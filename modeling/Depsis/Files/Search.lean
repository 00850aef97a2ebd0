import Depsis.Files.ListingComplete
import Depsis.Foundation.JsString
import Depsis.Foundation.Levels
import Mathlib.Data.List.Infix

/-! Name search: a query escaped for `LIKE` and then normalised, the rows it matches inside a folder, and
their pages.
-/
namespace Depsis.Files.Search

open Depsis.Foundation Depsis.Foundation.Keyset Depsis.Foundation.Levels Depsis.Files.Listing List Relation

def TRIGRAM_MIN_LENGTH : Nat := 3

/-- `[\\%_]`. -/
def special (char : Char) : Bool := ['\\', '%', '_'].contains char

def escape (query : List Char) : List Char := query.flatMap (fun char => if special char then ['\\', char] else [char])

/-- `LIKE`; an escape character that ends the pattern is no match. -/
def like : List Char → List Char → Bool
  | text,[] => text.isEmpty
  | text,char::pattern =>
    if char = '%' then text.tails.any (fun rest => like rest pattern)
    else if char = '\\' then
      match text,pattern with
      | first::text,literal::pattern => first = literal && like text pattern
      | _,_ => false
    else
      match text with
      | first::text => (char = '_' || first = char) && like text pattern
      | [] => false

/-- `depsis_norm`, which splits at a special character and leaves it as it is, and `similarity` negated. -/
structure Database extends Listing.Locale where
  norm : List Char → List Char
  Score : Type
  equal : DecidableEq Score
  order : StrictOrder Score
  rankScore : List Char → List Char → Score
  empty : norm [] = []
  splits : ∀ before char after, special char = true → norm (before ++ char::after) = norm before ++ char::norm after

def kids (entries : Table String FileRow) (organizationId id : String) : List String :=
  ((tenant entries organizationId).rows.filter (fun child => child.2.parentId = some id)).map Prod.fst

/-- The entries of an organisation, none of which lies below itself. -/
structure Stored (organizationId : String) where
  entries : Table String FileRow
  acyclic : ∀ id, ¬TransGen (RightBelow (kids entries organizationId)) id id

def booleans : StrictOrder Bool where
  before := fun first second => !first && second
  irreflexive := by decide
  transitive := by decide
  total := by decide

section

variable {organizationId : String} (database : Database) (stored : Stored organizationId) (shareId : String)
variable (scopeId : Option String) (query : List Char)

theorem scope_ends (id : String) : (levels (kids stored.entries organizationId)
    (tenant stored.entries organizationId).rows.length (kids stored.entries organizationId id)).isSome := by
  have inside (top : String) : ∀ node ∈ kids stored.entries organizationId top,
      node ∈ (tenant stored.entries organizationId).rows.map Prod.fst := by
    intro node member
    obtain ⟨child,listed,rfl⟩ := mem_map.mp member
    exact mem_map_of_mem (mem_filter.mp listed).1
  refine levels_ends ((tenant stored.entries organizationId).rows.map Prod.fst) (fun top listed node path => ?_)
    (fun _ _ node _ => stored.acyclic node) (length_map _).le
  rcases ReflTransGen.cases_tail path with rfl | ⟨last,-,below⟩
  · exact inside id _ listed
  · exact inside last _ below

/-- `scope_tree`. -/
def scopeTree (id : String) : List String := (levels (kids stored.entries organizationId)
  (tenant stored.entries organizationId).rows.length (kids stored.entries organizationId id)).get (scope_ends stored id)

def nameNorm (entry : Entry) : List Char := database.norm entry.2.name.toList

def pattern : List Char :=
  if (query.flatMap JsString.units).length < TRIGRAM_MIN_LENGTH then database.norm (escape query) ++ ['%']
  else '%' :: (database.norm (escape query) ++ ['%'])

def live (entry : Entry) : Bool :=
  entry.2.shareId = shareId && entry.2.trashedAt.isNone && scopeId.all (fun id => (scopeTree stored id).contains entry.1)

def matched : List Entry := (tenant stored.entries organizationId).rows.filter (fun entry =>
  live stored shareId scopeId entry && like (nameNorm database entry) (pattern database query))

/-- `rank_prefix, rank_score, name_fold, id`, in which a row comparison goes column by column. -/
def columns : List (Column Entry) :=
  [⟨Bool,inferInstance,booleans,fun entry => !like (nameNorm database entry) (database.norm (escape query) ++ ['%']),false⟩,
    ⟨database.Score,database.equal,database.order,
      fun entry => database.rankScore (nameNorm database entry) (database.norm query),false⟩,
    ⟨String,inferInstance,database.collation,fun entry => database.foldIdentity entry.2.name,false⟩,
    ⟨String,inferInstance,uuids,Prod.fst,false⟩]

def search (cursor : Option String) (limit : Nat) : FileEntryPage Entry :=
  let wanted := matched database stored shareId scopeId query
  let behind := match cursor with
    | none => wanted
    | some id => wanted.filter (fun entry =>
      (wanted.find? (fun cur => cur.1 = id)).any (fun cur => lexicographic (columns database query) cur entry))
  page (fun entry => entry) ((sorted (columns database query) behind).take (limit + 1)) limit

/-- A live row of the share inside the scope, by the folders above it. -/
def Inside (entry : Entry) : Prop :=
  entry ∈ (tenant stored.entries organizationId).rows ∧ entry.2.shareId = shareId ∧ entry.2.trashedAt = none ∧
    ∀ id ∈ scopeId, TransGen (RightBelow (kids stored.entries organizationId)) id entry.1

structure Finds (limit : Nat) : Prop where
  rows : ∀ entry, entry ∈ matched database stored shareId scopeId query ↔ Inside stored shareId scopeId entry ∧
    if (query.flatMap JsString.units).length < TRIGRAM_MIN_LENGTH then database.norm query <+: nameNorm database entry
    else database.norm query <:+: nameNorm database entry
  pages : Complete (columns database query) (lexicographic (columns database query))
    (matched database stored shareId scopeId query) (fun entry => entry)
    (fun cursor => search database stored shareId scopeId query cursor limit)
  first : ∀ starts ∈ matched database stored shareId scopeId query, ∀ holds ∈ matched database stored shareId scopeId query,
    database.norm query <+: nameNorm database starts → ¬database.norm query <+: nameNorm database holds →
      lexicographic (columns database query) starts holds = true

/-- What stands between the special characters of the query has none of them when it is normalised. -/
def Plain : Prop := ∀ stretch ∈ query.splitOnP special, ∀ char ∈ database.norm stretch, special char = false

end

variable {database : Database} {text word : List Char}

theorem like_any (text pattern : List Char) : like text ('%' :: pattern) = true ↔ ∃ rest, rest <:+ text ∧ like rest pattern = true := by
  conv_lhs => unfold like
  rw [if_pos rfl,any_eq_true]
  simp only [mem_tails]

theorem like_all (text : List Char) : like text ['%'] = true :=
  (like_any text []).mpr ⟨[],nil_suffix,rfl⟩

theorem like_escaped (char : Char) (text pattern : List Char) :
    like text ((if special char then ['\\', char] else [char]) ++ pattern) = true ↔ ∃ rest, text = char::rest ∧ like rest pattern = true := by
  have read : like text ((if special char then ['\\', char] else [char]) ++ pattern) = true ↔
      ∃ first rest, text = first::rest ∧ first = char ∧ like rest pattern = true := by
    split
    next =>
      cases text with
      | nil => exact ⟨nofun,fun ⟨_,_,split,_⟩ => nomatch split⟩
      | cons first text =>
        change (decide (first = char) && like text pattern) = true ↔ _
        rw [Bool.and_eq_true,decide_eq_true_eq]
        exact ⟨fun both => ⟨first,text,rfl,both⟩,fun ⟨_,_,same,both⟩ => by cases same; exact both⟩
    next plain =>
      have apart : char ≠ '\\' ∧ char ≠ '%' ∧ char ≠ '_' := by simpa [special] using plain
      rw [singleton_append]
      conv_lhs => unfold like
      rw [if_neg apart.2.1,if_neg apart.1]
      cases text with
      | nil => exact ⟨nofun,fun ⟨_,_,split,_⟩ => nomatch split⟩
      | cons first text =>
        dsimp only
        rw [decide_eq_false apart.2.2,Bool.false_or,Bool.and_eq_true,decide_eq_true_eq]
        exact ⟨fun both => ⟨first,text,rfl,both⟩,fun ⟨_,_,same,both⟩ => by cases same; exact both⟩
  rw [read]
  constructor
  · rintro ⟨_,rest,split,rfl,held⟩
    exact ⟨rest,split,held⟩
  · rintro ⟨rest,split,held⟩
    exact ⟨char,rest,split,rfl,held⟩

theorem like_literal (word : List Char) : ∀ text, like text (escape word ++ ['%']) = true ↔ word <+: text := by
  induction word with
  | nil => exact fun text => ⟨fun _ => List.nil_prefix,fun _ => like_all text⟩
  | cons char word ih =>
    intro text
    rw [escape,flatMap_cons,append_assoc,like_escaped]
    constructor
    · rintro ⟨rest,rfl,held⟩
      exact cons_prefix_cons.mpr ⟨rfl,(ih rest).mp held⟩
    · rintro ⟨rest,rfl⟩
      exact ⟨word ++ rest,rfl,(ih _).mpr (List.prefix_append _ _)⟩

theorem escape_plain (plain : ∀ char ∈ text, special char = false) : escape text = text := by
  induction text with
  | nil => rfl
  | cons char text ih =>
    obtain ⟨first,rest⟩ := forall_mem_cons.mp plain
    rw [escape,flatMap_cons,first]
    exact congrArg (char :: ·) (ih rest)

theorem norm_escape (query : List Char) (plain : Plain database query) : database.norm (escape query) = escape (database.norm query) := by
  induction length : query.length using Nat.strongRecOn generalizing query with
  | ind _ ih =>
    cases found : query.find? special with
    | none =>
      have none : ∀ char ∈ query, special char = false := fun char member =>
        Bool.eq_false_iff.mpr (find?_eq_none.mp found char member)
      have alone := plain query (splitOnP_eq_singleton none ▸ mem_cons_self)
      rw [escape_plain none,escape_plain alone]
    | some char =>
      obtain ⟨marks,before,rest,rfl,none⟩ := find?_eq_some_iff_append.mp found
      have none : ∀ char ∈ before, special char = false := fun char member => by simpa using none char member
      have pieces := splitOnP_append_cons_of_forall_mem none char marks rest
      have front := plain before (pieces ▸ mem_cons_self)
      have onward := ih rest.length (by rw [← length,length_append,length_cons]; omega) rest
        (fun stretch member => plain stretch (pieces ▸ mem_cons_of_mem _ member)) rfl
      have written (text more : List Char) (calm : ∀ char ∈ text, special char = false) :
          escape (text ++ char::more) = text ++ '\\' :: ([] ++ char::escape more) := by
        rw [escape,flatMap_append,flatMap_cons,marks]
        exact congrArg (· ++ '\\' :: char::escape more) (escape_plain calm)
      rw [written before rest none,database.splits _ '\\' _ rfl,database.splits _ _ _ marks,database.empty,onward,
        database.splits _ _ _ marks,written _ _ front]

theorem like_holds (word text : List Char) : like text ('%' :: (escape word ++ ['%'])) = true ↔ word <:+: text := by
  rw [like_any]
  constructor
  · rintro ⟨rest,⟨front,rfl⟩,held⟩
    exact ((like_literal word rest).mp held).isInfix.trans (List.suffix_append _ _).isInfix
  · rintro ⟨front,back,rfl⟩
    refine ⟨word ++ back,⟨front,(append_assoc _ _ _).symm⟩,(like_literal _ _).mpr (List.prefix_append _ _)⟩

section

variable {organizationId : String} {stored : Stored organizationId} {shareId : String} {scopeId : Option String} {query : List Char}

theorem mem_scopeTree {id node : String} :
    node ∈ scopeTree stored id ↔ TransGen (RightBelow (kids stored.entries organizationId)) id node := by
  have ran := (Option.some_get (scope_ends stored id)).symm
  rw [scopeTree,mem_levels ran,TransGen.head'_iff]
  rfl

theorem live_iff {entry : Entry} (listed : entry ∈ (tenant stored.entries organizationId).rows) :
    live stored shareId scopeId entry = true ↔ Inside stored shareId scopeId entry := by
  simp only [live,Inside,listed,true_and,Bool.and_eq_true,decide_eq_true_eq,Option.isNone_iff_eq_none,Option.all_eq_true,
    Option.mem_def,contains_iff_mem,mem_scopeTree,and_assoc]

theorem matched_tenant {entry : Entry} (member : entry ∈ matched database stored shareId scopeId query) :
    entry ∈ (tenant stored.entries organizationId).rows := (mem_filter.mp member).1

theorem pages_complete (limit : Nat) (room : 0 < limit) : Complete (columns database query) (lexicographic (columns database query))
    (matched database stored shareId scopeId query) (fun entry => entry)
    (fun cursor => search database stored shareId scopeId query cursor limit) := by
  have listed : (⟨String,inferInstance,uuids,Prod.fst,false⟩ : Column Entry) ∈ columns database query := by simp [columns]
  have stores : ∀ entry ∈ matched database stored shareId scopeId query, entry ∈ (tenant stored.entries organizationId).rows :=
    fun _ member => matched_tenant member
  refine complete_of_pages (told_of_id listed (fun first second same => Column.same_iff.mp same) stores) (tenant_nodup.filter _)
    room (fun _ _ _ _ => rfl) (fun after known => ?_)
  cases after with
  | none => rfl
  | some cur =>
    have here : cur ∈ matched database stored shareId scopeId query := known cur rfl
    have found : (matched database stored shareId scopeId query).find? (fun other => other.1 = cur.1) = some cur := by
      cases first : (matched database stored shareId scopeId query).find? (fun other => other.1 = cur.1) with
      | none => exact absurd (find?_eq_none.mp first cur here) (by simp)
      | some other =>
        have same : other.1 = cur.1 := by simpa using find?_some first
        exact congrArg some (same_id (stores other (mem_of_find?_eq_some first)) (stores cur here) same)
    simp only [search,Option.map_some,found,Option.any_some]

/-- A query that stays free of special characters finds what it says. -/
theorem search_finds (database : Database) (stored : Stored organizationId) (shareId : String) (scopeId : Option String)
    (query : List Char) (limit : Nat) (plain : Plain database query) : Finds database stored shareId scopeId query (limit + 1) := by
  have literal (entry : Entry) : like (nameNorm database entry) (database.norm (escape query) ++ ['%']) = true ↔
      database.norm query <+: nameNorm database entry := by
    rw [norm_escape query plain]
    exact like_literal _ _
  refine ⟨fun entry => ?_,pages_complete (limit + 1) (Nat.succ_pos limit),?_⟩
  · have wanted : like (nameNorm database entry) (pattern database query) = true ↔
        if (query.flatMap JsString.units).length < TRIGRAM_MIN_LENGTH then database.norm query <+: nameNorm database entry
        else database.norm query <:+: nameNorm database entry := by
      unfold pattern
      split
      next => exact literal entry
      next =>
        rw [norm_escape query plain]
        exact like_holds _ _
    rw [matched,mem_filter,Bool.and_eq_true,wanted]
    constructor
    · rintro ⟨listed,lives,held⟩
      exact ⟨(live_iff listed).mp lives,held⟩
    · rintro ⟨inside,held⟩
      exact ⟨inside.1,(live_iff inside.1).mpr inside,held⟩
  · intro starts _ holds _ one two
    have ahead := (literal starts).mpr one
    have behind := Bool.eq_false_iff.mpr (fun held => two ((literal holds).mp held))
    simp [columns,lexicographic,Column.before,ahead,behind,booleans]

end

/-- Names in lower case, in which the full-width percent sign is compatible with `%`. -/
def compatible : Database where
  toLocale := Listing.plain
  norm := map (fun char => if char = '％' then '%' else char.toLower)
  Score := Int
  equal := inferInstance
  order := numbers
  rankScore := fun _ _ => 0
  empty := rfl
  splits := by
    intro before char after marks
    have kept : (if char = '％' then '%' else char.toLower) = char := by
      obtain rfl | rfl | rfl : char = '\\' ∨ char = '%' ∨ char = '_' := by simpa [special] using marks
      all_goals rfl
    rw [map_append,map_cons,kept]

def report : Stored "o" where
  entries := (∅ : Table String FileRow).insert "1" ⟨"o","s",none,.file,"Rapor","/Rapor",7,3,none⟩
  acyclic := by
    intro id round
    obtain ⟨_,below,-⟩ := TransGen.head'_iff.mp round
    exact not_mem_nil below

theorem search_finds_report : Finds compatible report "s" none "rap".toList 1 :=
  search_finds compatible report "s" none "rap".toList 0 (fun stretch member char inside => by
    have plain : ("rap".toList.splitOnP special).all (fun stretch => (compatible.norm stretch).all (fun char => !special char)) =
        true := by decide
    exact (Bool.not_eq_true' _).mp (all_eq_true.mp (all_eq_true.mp plain stretch member) char inside))

theorem fullwidth_finds_all : ¬Finds compatible report "s" none "％".toList 1 := by
  intro finds
  have listed : (("1",⟨"o","s",none,.file,"Rapor","/Rapor",7,3,none⟩) : Entry) ∈ matched compatible report "s" none "％".toList :=
    mem_filter.mpr ⟨mem_cons_self,rfl⟩
  have starts := ((finds.rows _).mp listed).2
  rw [if_pos (by decide)] at starts
  exact absurd starts (by decide)

end Depsis.Files.Search

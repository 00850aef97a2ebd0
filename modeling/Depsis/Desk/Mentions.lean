import Mathlib.Data.List.Nodup
import Mathlib.Data.List.TakeWhile
import Mathlib.Data.Char

/-! Whom a comment mentions: the pattern as `matchAll` runs it, the names a token can stand for, and the
users stored under them.
-/
namespace Depsis.Desk.Mentions

open List Bool

def mark (char : Char) : Bool := ['.', '_', '-'].contains char

def inRun (char : Char) : Bool := char.isAlphanum || mark char

/-- `[^\w.@-]`, where a letter is one of the basic alphabet. -/
def leads (char : Char) : Bool := !(inRun char || char = '@')

/-- `@` and the second group behind it. -/
def named : List Char → Option (List Char)
  | '@'::first::rest => if first.isAlphanum then some (first::(rest.takeWhile inRun).take 63) else none
  | _ => none

/-- The second group of a match at the front of the text, and how long the match is. -/
def matchAt (start : Bool) (text : List Char) : Option (List Char × Nat) :=
  (if start then (named text).map (fun name => (name,name.length + 1)) else none) <|>
    (text.head?.filter leads).bind (fun _ => (named text.tail).map (fun name => (name,name.length + 2)))

/-- `matchAll`, so many characters before the end of the last match. -/
def matchAll (start : Bool) (inside : Nat) : List Char → List (List Char)
  | [] => []
  | char::rest =>
    match inside,matchAt start (char::rest) with
    | inside + 1,_ => matchAll false inside rest
    | 0,some (name,length) => name::matchAll false (length - 1) rest
    | 0,none => matchAll false 0 rest

def lower (name : List Char) : List Char := name.map Char.toLower

/-- The readings of a token that is given backwards. -/
def shrink : List Char → List (List Char)
  | last::before::rest => (last::before::rest).reverse::(if mark last then shrink (before::rest) else [])
  | short => [short.reverse]

def candidates (token : List Char) : List (List Char) := shrink token.reverse

structure User where
  id : String
  username : List Char

/-- The users of an organisation, as the constraints of their table keep them. -/
structure Users where
  rows : List User
  short : ∀ user ∈ rows, user.username.length ≤ 64
  distinct : (rows.map (fun user => lower user.username)).Nodup

/-- A `Map` of the rows: of several under one key the last one is kept. -/
def found (rows : List User) (name : List Char) : Option String :=
  (rows.reverse.find? (fun user => lower user.username = name)).map User.id

def resolveMentions (users : Users) (body : List Char) : List String :=
  let tokens := (((matchAll true 0 body).map lower).eraseDups.filter (· ≠ [])).map candidates
  let asked := tokens.flatten.eraseDups
  if asked = [] then []
  else
    let rows := users.rows.filter (fun user => asked.contains (lower user.username))
    (tokens.filterMap (fun variants => variants.findSome? (found rows))).eraseDups

/-- Which characters are letters or digits of any script. -/
structure Scripts where
  letterOrDigit : Char → Bool
  basic : ∀ char, char.isAlphanum = true → letterOrDigit char = true

section

variable (scripts : Scripts) (users : Users) (body : List Char)

/-- An `@` of the body: the character before it, and the run behind it in lower case. -/
def At (lead : Option Char) (run : List Char) : Prop :=
  ∃ before first rest, body = before ++ '@' :: first::rest ∧ before.getLast? = lead ∧ first.isAlphanum = true ∧
    run = lower (first::rest.takeWhile inRun)

def Candidate (run name : List Char) : Prop :=
  name ≠ [] ∧ ∃ marks, run = name ++ marks ∧ ∀ char ∈ marks, mark char = true

def Held (name : List Char) (id : String) : Prop := ∃ user ∈ users.rows, lower user.username = name ∧ user.id = id

/-- The user whose name is the longest candidate of the run. -/
def Names (run : List Char) (id : String) : Prop :=
  ∃ name, Candidate run name ∧ Held users name id ∧
    ∀ longer other, Candidate run longer → Held users longer other → longer.length ≤ name.length

def Mentioned (id : String) : Prop :=
  ∃ lead run, At body lead run ∧
    (∀ char ∈ lead, scripts.letterOrDigit char = false ∧ mark char = false ∧ char ≠ '@') ∧ Names users run id

/-- Named by the first 64 characters behind an `@` that stands behind a letter or digit beyond the basic ones,
or of a run that goes on with more than marks. -/
def Stray (id : String) : Prop :=
  ∃ lead run, At body lead run ∧ (∀ char ∈ lead, leads char = true) ∧
    ((∃ char ∈ lead, scripts.letterOrDigit char = true) ∨ ∃ char ∈ run.drop 64, mark char = false) ∧
    Names users (run.take 64) id

structure Exact : Prop where
  once : (resolveMentions users body).Nodup
  same : ∀ id, id ∈ resolveMentions users body ↔ Mentioned scripts users body id

end

def tokensFrom (lead : Option Char) : List Char → List (List Char)
  | [] => []
  | char::rest => (if lead.all leads then (named (char::rest)).toList else []) ++ tokensFrom (some char) rest

theorem named_cases {text name : List Char} : named text = some name ↔
    ∃ first rest, text = '@' :: first::rest ∧ first.isAlphanum = true ∧ name = first::(rest.takeWhile inRun).take 63 := by
  unfold named
  split
  next first rest =>
    rw [Option.ite_none_right_eq_some,Option.some.injEq]
    constructor
    · rintro ⟨alphanumeric,rfl⟩
      exact ⟨first,rest,rfl,alphanumeric,rfl⟩
    · rintro ⟨_,_,same,alphanumeric,rfl⟩
      cases same
      exact ⟨alphanumeric,rfl⟩
  next other =>
    refine ⟨nofun,?_⟩
    rintro ⟨first,rest,rfl,-⟩
    exact (other first rest rfl).elim

theorem not_leads {char : Char} (inside : inRun char = true) : leads char = false := by
  rw [leads,inside,Bool.true_or,Bool.not_true]

/-- Behind a match nothing leads into the next one before the run is over. -/
theorem take_run {first : Char} {rest : List Char} (alphanumeric : first.isAlphanum = true) :
    ∀ char ∈ '@' :: first::(rest.takeWhile inRun).take 63, leads char = false := by
  intro char member
  rcases mem_cons.mp member with rfl | member
  · rfl
  · rcases mem_cons.mp member with rfl | member
    · exact not_leads (by rw [inRun,alphanumeric,Bool.true_or])
    · exact not_leads (mem_takeWhile_imp (mem_of_mem_take member))

theorem take_named {text name : List Char} (is : named text = some name) : text.take (name.length + 1) = '@' :: name := by
  obtain ⟨first,rest,rfl,-,rfl⟩ := named_cases.mp is
  have front : (rest.takeWhile inRun).take 63 <+: rest := (List.take_prefix 63 _).trans (List.takeWhile_prefix inRun)
  exact (List.prefix_iff_eq_take.mp (cons_prefix_cons.mpr ⟨rfl,cons_prefix_cons.mpr ⟨rfl,front⟩⟩)).symm

variable {start : Bool} {char : Char} {rest : List Char}

theorem matchAll_some {name : List Char} {length : Nat} (is : matchAt start (char::rest) = some (name,length)) :
    matchAll start 0 (char::rest) = name::matchAll false (length - 1) rest := by
  simp only [matchAll,is]

theorem matchAll_none (is : matchAt start (char::rest) = none) : matchAll start 0 (char::rest) = matchAll false 0 rest := by
  simp only [matchAll,is]

theorem matchAll_tokens (text : List Char) : ∀ (inside : Nat) (lead : Option Char),
    (∀ char ∈ text.take inside, leads char = false) → (lead.all leads = false ∨ named text = none) →
    matchAll false inside text = tokensFrom lead text := by
  induction text with
  | nil => exact fun _ _ _ _ => rfl
  | cons char rest ih =>
    intro inside lead plain calm
    have quiet : (if lead.all leads then (named (char::rest)).toList else []) = [] := by
      rcases calm with none | none
      · rw [none]
        rfl
      · rw [none]
        exact ite_self _
    rw [tokensFrom,quiet,nil_append]
    cases inside with
    | succ inside =>
      exact ih inside (some char) (fun other member => plain other (mem_cons_of_mem _ member)) (.inl (plain char mem_cons_self))
    | zero =>
      have onward (calm : leads char = false ∨ named rest = none) : matchAll false 0 rest = tokensFrom (some char) rest :=
        ih 0 (some char) nofun calm
      cases leading : leads char with
      | false =>
        rw [matchAll_none (by simp [matchAt,leading])]
        exact onward (.inl leading)
      | true =>
        cases is : named rest with
        | none =>
          rw [matchAll_none (by simp [matchAt,is])]
          exact onward (.inr is)
        | some name =>
          obtain ⟨first,more,rfl,alphanumeric,same⟩ := named_cases.mp is
          have behind := ih (name.length + 1) (some '@') (by rw [take_named is,same]; exact take_run alphanumeric) (.inl rfl)
          have emitted : tokensFrom (some char) ('@' :: first::more) = name::tokensFrom (some '@') ('@' :: first::more) := by
            rw [tokensFrom,tokensFrom,is,Option.all_some,leading]
            rfl
          have matched : matchAt false (char :: '@' :: first::more) = some (name,name.length + 2) := by
            simp only [matchAt,head?_cons,tail_cons,is,Option.filter,leading]
            rfl
          rw [emitted,← behind]
          exact matchAll_some matched

theorem matchAll_eq (body : List Char) : matchAll true 0 body = tokensFrom none body := by
  cases is : named body with
  | none =>
    rw [← matchAll_tokens body 0 none nofun (.inr is)]
    cases body with
    | nil => rfl
    | cons char rest =>
      have same : matchAt true (char::rest) = matchAt false (char::rest) := by
        rw [matchAt,matchAt,is]
        rfl
      cases matched : matchAt false (char::rest) with
      | none => rw [matchAll_none matched,matchAll_none (same.trans matched)]
      | some result => rw [matchAll_some matched,matchAll_some (same.trans matched)]
  | some name =>
    obtain ⟨first,more,rfl,alphanumeric,same⟩ := named_cases.mp is
    have behind := matchAll_tokens ('@' :: first::more) (name.length + 1) (some '@')
      (by rw [take_named is,same]; exact take_run alphanumeric) (.inl rfl)
    have emitted : tokensFrom none ('@' :: first::more) = name::tokensFrom (some '@') ('@' :: first::more) := by
      rw [tokensFrom,tokensFrom,is]
      rfl
    have matched : matchAt true ('@' :: first::more) = some (name,name.length + 1) := by simp [matchAt,is]
    rw [emitted,← behind]
    exact matchAll_some matched

theorem mem_tokensFrom {text name : List Char} : ∀ {lead : Option Char}, name ∈ tokensFrom lead text ↔
    ∃ before after, text = before ++ after ∧ (before.getLast?.or lead).all leads = true ∧ named after = some name := by
  induction text with
  | nil =>
    refine ⟨nofun,?_⟩
    rintro ⟨before,after,split,-,is⟩
    rw [(append_eq_nil_iff.mp split.symm).2] at is
    cases is
  | cons char rest ih =>
    intro lead
    have last (before : List Char) : (before.getLast?.or (some char)) = (char::before).getLast?.or lead := by
      rw [getLast?_cons]
      cases before.getLast? <;> rfl
    rw [tokensFrom,mem_append,ih]
    constructor
    · rintro (member | ⟨before,after,rfl,leading,is⟩)
      · split at member
        next leading => exact ⟨[],char::rest,rfl,leading,Option.mem_toList.mp member⟩
        next => cases member
      · exact ⟨char::before,after,rfl,last before ▸ leading,is⟩
    · rintro ⟨before,after,split,leading,is⟩
      cases before with
      | nil =>
        obtain rfl : char::rest = after := split
        left
        have leading : lead.all leads = true := leading
        rw [if_pos leading]
        exact Option.mem_toList.mpr is
      | cons first before =>
        obtain ⟨rfl,rfl⟩ := cons.inj split
        exact .inr ⟨before,after,rfl,(last before).symm ▸ leading,is⟩

variable {users : Users} {body : List Char}

theorem mem_matchAll {token : List Char} : token ∈ (matchAll true 0 body).map lower ↔
    ∃ lead run, At body lead run ∧ (∀ char ∈ lead, leads char = true) ∧ token = run.take 64 := by
  have lowered (first : Char) (rest : List Char) : lower (first::(rest.takeWhile inRun).take 63) =
      (lower (first::rest.takeWhile inRun)).take 64 := by
    rw [lower,lower,← map_take]
    rfl
  rw [matchAll_eq,mem_map]
  constructor
  · rintro ⟨name,member,rfl⟩
    obtain ⟨before,after,split,leading,is⟩ := mem_tokensFrom.mp member
    obtain ⟨first,rest,rfl,alphanumeric,rfl⟩ := named_cases.mp is
    rw [Option.or_none] at leading
    exact ⟨_,_,⟨before,first,rest,split,rfl,alphanumeric,rfl⟩,(Option.all_eq_true _ _).mp leading,lowered first rest⟩
  · rintro ⟨lead,run,⟨before,first,rest,split,rfl,alphanumeric,rfl⟩,leading,rfl⟩
    refine ⟨_,mem_tokensFrom.mpr ⟨before,_,split,?_,named_cases.mpr ⟨first,rest,rfl,alphanumeric,rfl⟩⟩,lowered first rest⟩
    rw [Option.or_none]
    exact (Option.all_eq_true _ _).mpr leading

theorem nodup_eraseDups {Item : Type*} [DecidableEq Item] (items : List Item) : items.eraseDups.Nodup := by
  induction length : items.length using Nat.strongRecOn generalizing items with
  | ind _ ih =>
    cases items with
    | nil => exact nodup_nil
    | cons item items =>
      rw [eraseDups_cons,nodup_cons]
      constructor
      · intro again
        simpa using (mem_filter.mp (mem_eraseDups.mp again)).2
      · exact ih _ (length ▸ Nat.lt_succ_of_le (length_filter_le _ _)) _ rfl

theorem found_iff {rows : List User} (distinct : (rows.map (fun user => lower user.username)).Nodup) {name : List Char} {id : String} :
    found rows name = some id ↔ ∃ user ∈ rows, lower user.username = name ∧ user.id = id := by
  rw [found,Option.map_eq_some_iff]
  constructor
  · rintro ⟨user,first,rfl⟩
    exact ⟨user,mem_reverse.mp (mem_of_find?_eq_some first),by simpa using find?_some first,rfl⟩
  · rintro ⟨user,member,rfl,rfl⟩
    cases first : rows.reverse.find? (fun other => lower other.username = lower user.username) with
    | none => exact absurd (find?_eq_none.mp first user (mem_reverse.mpr member)) (by simp)
    | some other =>
      have same : lower other.username = lower user.username := by simpa using find?_some first
      rw [inj_on_of_nodup_map distinct (mem_reverse.mp (mem_of_find?_eq_some first)) member same]
      exact ⟨user,rfl,rfl⟩

/-- Users nobody asked for are not missed. -/
theorem found_asked {rows : List User} {asked : List (List Char)} {name : List Char} (member : name ∈ asked) :
    found (rows.filter (fun user => asked.contains (lower user.username))) name = found rows name := by
  rw [found,found,← filter_reverse,find?_filter]
  congr 2
  funext user
  by_cases same : lower user.username = name
  · simp [same,member]
  · simp [same]

theorem Candidate.length_le {run name : List Char} (candidate : Candidate run name) : name.length ≤ run.length := by
  obtain ⟨-,marks,rfl,-⟩ := candidate
  rw [length_append]
  exact Nat.le_add_right _ _

theorem candidate_snoc {run name : List Char} {last : Char} : Candidate (run ++ [last]) name ↔
    name = run ++ [last] ∨ (mark last = true ∧ Candidate run name) := by
  constructor
  · rintro ⟨some,marks,split,each⟩
    rcases eq_nil_or_concat' marks with rfl | ⟨marks,other,rfl⟩
    · exact .inl (split.trans (append_nil name)).symm
    · rw [← append_assoc] at split
      obtain ⟨rfl,same⟩ := append_inj' split rfl
      cases same
      exact .inr ⟨each last (mem_append_right _ mem_cons_self),some,marks,rfl,fun char member => each char (mem_append_left _ member)⟩
  · rintro (rfl | ⟨marked,some,marks,rfl,each⟩)
    · exact ⟨append_ne_nil_of_right_ne_nil _ (cons_ne_nil _ _),[],(append_nil _).symm,nofun⟩
    · refine ⟨some,marks ++ [last],append_assoc _ _ _,fun char member => ?_⟩
      rcases mem_append.mp member with inside | here
      · exact each char inside
      · exact mem_singleton.mp here ▸ marked

/-- The first reading that is found is the longest one. -/
theorem findSome_shrink (find : List Char → Option String) (id : String) : ∀ {back : List Char}, back ≠ [] →
    ((shrink back).findSome? find = some id ↔ ∃ name, Candidate back.reverse name ∧ find name = some id ∧
      ∀ longer other, Candidate back.reverse longer → find longer = some other → longer.length ≤ name.length) := by
  intro back
  induction back with
  | nil => exact fun none => (none rfl).elim
  | cons last back ih =>
    intro _
    have readings : (shrink (last::back)).findSome? find = (find (last::back).reverse).or
        (if mark last = true ∧ back ≠ [] then (shrink back).findSome? find else none) := by
      cases back with
      | nil => cases found : find [last] <;> simp [shrink,found]
      | cons before rest => cases found : find (last::before::rest).reverse <;> cases marked : mark last <;> simp_all [shrink]
    have whole : Candidate (last::back).reverse (last::back).reverse := by
      rw [reverse_cons]
      exact candidate_snoc.mpr (.inl rfl)
    rw [readings]
    cases found : find (last::back).reverse with
    | some other =>
      rw [Option.some_or]
      constructor
      · intro same
        exact ⟨_,whole,found.trans same,fun longer _ candidate _ => candidate.length_le⟩
      · rintro ⟨name,candidate,named,longest⟩
        obtain ⟨-,marks,split,-⟩ := candidate
        have long := longest _ _ whole found
        have none : marks = [] := by
          have lengths := congrArg List.length split
          rw [length_append] at lengths
          exact eq_nil_of_length_eq_zero (by omega)
        rw [none,append_nil] at split
        rw [← found,split,named]
    | none =>
      have others {name : List Char} (candidate : Candidate (last::back).reverse name) {other : String} (is : find name = some other) :
          mark last = true ∧ Candidate back.reverse name := by
        rw [reverse_cons] at candidate
        rcases candidate_snoc.mp candidate with rfl | rest
        · rw [← reverse_cons,found] at is
          cases is
        · exact rest
      have lifted {name : List Char} (marked : mark last = true) (candidate : Candidate back.reverse name) :
          Candidate (last::back).reverse name := by
        rw [reverse_cons]
        exact candidate_snoc.mpr (.inr ⟨marked,candidate⟩)
      rw [Option.none_or]
      split
      next more =>
        rw [ih more.2]
        constructor
        · rintro ⟨name,candidate,named,longest⟩
          exact ⟨name,lifted more.1 candidate,named,fun longer other larger is => longest longer other (others larger is).2 is⟩
        · rintro ⟨name,candidate,named,longest⟩
          exact ⟨name,(others candidate named).2,named,fun longer other larger is => longest longer other (lifted more.1 larger) is⟩
      next single =>
        refine ⟨nofun,?_⟩
        rintro ⟨name,candidate,named,-⟩
        obtain ⟨marked,rest⟩ := others candidate named
        refine (single ⟨marked,?_⟩).elim
        rintro rfl
        obtain ⟨some,marks,split,-⟩ := rest
        exact some (append_eq_nil_iff.mp split.symm).1

theorem candidates_ne_nil (token : List Char) : candidates token ≠ [] := by
  unfold candidates shrink
  split <;> exact cons_ne_nil _ _

theorem names_iff {token : List Char} (filled : token ≠ []) {id : String} :
    (candidates token).findSome? (found users.rows) = some id ↔ Names users token id := by
  have held (name : List Char) (id : String) : found users.rows name = some id ↔ Held users name id := found_iff users.distinct
  rw [candidates,findSome_shrink _ _ (reverse_eq_nil_iff.not.mpr filled),reverse_reverse]
  simp only [held,Names]

theorem mem_resolveMentions {id : String} : id ∈ resolveMentions users body ↔
    ∃ lead run, At body lead run ∧ (∀ char ∈ lead, leads char = true) ∧ Names users (run.take 64) id := by
  have tokens (token : List Char) : token ∈ ((matchAll true 0 body).map lower).eraseDups.filter (· ≠ []) ↔
      ∃ lead run, At body lead run ∧ (∀ char ∈ lead, leads char = true) ∧ token = run.take 64 := by
    rw [mem_filter,mem_eraseDups,mem_matchAll,decide_eq_true_eq,and_iff_left_iff_imp]
    rintro ⟨_,_,⟨_,_,_,-,-,-,rfl⟩,-,rfl⟩
    exact cons_ne_nil _ _
  have present {token : List Char} (member : token ∈ ((matchAll true 0 body).map lower).eraseDups.filter (· ≠ [])) : token ≠ [] :=
    of_decide_eq_true (mem_filter.mp member).2
  have result : id ∈ resolveMentions users body ↔ ∃ token ∈ ((matchAll true 0 body).map lower).eraseDups.filter (· ≠ []),
      Names users token id := by
    unfold resolveMentions
    dsimp only
    generalize ((matchAll true 0 body).map lower).eraseDups.filter (· ≠ []) = tokens at present ⊢
    split
    next none =>
      refine ⟨nofun,?_⟩
      rintro ⟨token,member,-⟩
      obtain ⟨name,reading⟩ := exists_mem_of_ne_nil _ (candidates_ne_nil token)
      have asked := mem_eraseDups.mpr (mem_flatten.mpr ⟨_,mem_map_of_mem member,reading⟩)
      rw [none] at asked
      cases asked
    next =>
      have same {token : List Char} (member : token ∈ tokens) :
          (candidates token).findSome? (found (users.rows.filter fun user =>
            (tokens.map candidates).flatten.eraseDups.contains (lower user.username))) = some id ↔ Names users token id := by
        rw [← names_iff (present member)]
        have read := map_congr_left fun name (reading : name ∈ candidates token) =>
          @found_asked users.rows _ name (mem_eraseDups.mpr (mem_flatten.mpr ⟨_,mem_map_of_mem member,reading⟩))
        have first := congrArg (findSome? (fun kept => kept)) read
        rw [findSome?_map,findSome?_map] at first
        exact Eq.congr_left first
      simp only [mem_eraseDups,mem_filterMap,mem_map]
      constructor
      · rintro ⟨_,⟨token,member,rfl⟩,is⟩
        exact ⟨token,member,(same member).mp is⟩
      · rintro ⟨token,member,named⟩
        exact ⟨_,⟨token,member,rfl⟩,(same member).mpr named⟩
  rw [result]
  constructor
  · rintro ⟨token,member,named⟩
    obtain ⟨lead,run,there,leading,rfl⟩ := (tokens token).mp member
    exact ⟨lead,run,there,leading,named⟩
  · rintro ⟨lead,run,there,leading,named⟩
    exact ⟨_,(tokens _).mpr ⟨lead,run,there,leading,rfl⟩,named⟩

/-- No name is longer than 64, so a run names somebody only if nothing but marks follows these. -/
theorem names_take {run : List Char} {id : String} : Names users run id ↔
    Names users (run.take 64) id ∧ ∀ char ∈ run.drop 64, mark char = true := by
  have short {name : List Char} {id : String} (held : Held users name id) : name.length ≤ 64 := by
    obtain ⟨user,member,rfl,-⟩ := held
    exact (length_map _).trans_le (users.short user member)
  have cut {name : List Char} (few : name.length ≤ 64) : Candidate run name ↔
      Candidate (run.take 64) name ∧ ∀ char ∈ run.drop 64, mark char = true := by
    constructor
    · rintro ⟨some,marks,rfl,each⟩
      rw [take_append,take_of_length_le few,drop_append,drop_of_length_le few,nil_append]
      exact ⟨⟨some,_,rfl,fun char member => each char (mem_of_mem_take member)⟩,fun char member => each char (mem_of_mem_drop member)⟩
    · rintro ⟨⟨some,marks,split,each⟩,rest⟩
      refine ⟨some,marks ++ run.drop 64,?_,fun char member => ?_⟩
      · rw [← append_assoc,← split,take_append_drop]
      · exact (mem_append.mp member).elim (each char) (rest char)
  constructor
  · rintro ⟨name,candidate,held,longest⟩
    obtain ⟨front,rest⟩ := (cut (short held)).mp candidate
    exact ⟨⟨name,front,held,fun longer other larger also => longest longer other ((cut (short also)).mpr ⟨larger,rest⟩) also⟩,rest⟩
  · rintro ⟨⟨name,candidate,held,longest⟩,rest⟩
    exact ⟨name,(cut (short held)).mpr ⟨candidate,rest⟩,held,
      fun longer other larger also => longest longer other ((cut (short also)).mp larger).1 also⟩

theorem mentions_exact (scripts : Scripts) (users : Users) (body : List Char) :
    Exact scripts users body ↔ ∀ id, Stray scripts users body id → Mentioned scripts users body id := by
  have proper {char : Char} (apart : scripts.letterOrDigit char = false ∧ mark char = false ∧ char ≠ '@') : leads char = true := by
    have basic : char.isAlphanum = false := eq_false_iff.mpr fun letter => by
      rw [scripts.basic char letter] at apart
      cases apart.1
    rw [leads,inRun,basic,apart.2.1]
    simpa using apart.2.2
  have plain {char : Char} (leading : leads char = true) : mark char = false ∧ char ≠ '@' := by
    simp only [leads,inRun,not_eq_true',or_eq_false_iff,decide_eq_false_iff_not] at leading
    exact ⟨leading.1.2,leading.2⟩
  have among (id : String) (mentioned : Mentioned scripts users body id) : id ∈ resolveMentions users body := by
    obtain ⟨lead,run,there,apart,named⟩ := mentioned
    exact mem_resolveMentions.mpr ⟨lead,run,there,fun char is => proper (apart char is),(names_take.mp named).1⟩
  constructor
  · intro exactly id ⟨lead,run,there,leading,_,named⟩
    exact (exactly.same id).mp (mem_resolveMentions.mpr ⟨lead,run,there,leading,named⟩)
  · intro spared
    refine ⟨?_,fun id => ⟨fun member => ?_,among id⟩⟩
    · unfold resolveMentions
      dsimp only
      split
      · exact nodup_nil
      · exact nodup_eraseDups _
    · obtain ⟨lead,run,there,leading,named⟩ := mem_resolveMentions.mp member
      by_cases letter : ∃ char ∈ lead, scripts.letterOrDigit char = true
      · exact spared id ⟨lead,run,there,leading,.inl letter,named⟩
      · by_cases rest : ∃ char ∈ run.drop 64, mark char = false
        · exact spared id ⟨lead,run,there,leading,.inr rest,named⟩
        · have marks : ∀ char ∈ run.drop 64, mark char = true := by simpa using rest
          refine ⟨lead,run,there,fun char is => ⟨?_,plain (leading char is)⟩,names_take.mpr ⟨named,marks⟩⟩
          exact eq_false_iff.mpr fun known => letter ⟨char,is,known⟩

/-- An address whose last letter before the `@` is none of the basic ones. -/
theorem address_notifies : ¬Exact ⟨fun char => char.isAlphanum || char = 'ş',fun _ letter => by rw [letter,Bool.true_or]⟩
    ⟨[⟨"1","firma".toList⟩],by decide,by decide⟩ "barış@firma".toList := by
  intro exactly
  obtain ⟨lead,run,⟨before,first,rest,split,rfl,-,-⟩,apart,-⟩ := (exactly.same "1").mp (by decide)
  have here : "barış@firma".toList[before.length]? = some '@' := by
    rw [split,getElem?_append_right le_rfl,Nat.sub_self]
    rfl
  have only : ∀ place < 11, "barış@firma".toList[place]? = some '@' → place = 5 := by decide
  have front : before = "barış".toList := by
    have five := only _ (List.getElem?_eq_some_iff.mp here).1 here
    calc
      before = "barış@firma".toList.take before.length := by rw [split,take_left]
      _ = "barış".toList := by rw [five]; rfl
  rw [front] at apart
  exact absurd (apart 'ş' rfl).1 (by decide)

end Depsis.Desk.Mentions

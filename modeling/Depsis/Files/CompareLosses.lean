import Depsis.Files.Compare

/-! What a comparison takes away or trashes, whatever the listing and however it ends. -/
namespace Depsis.Files.Indexer

open Depsis.Foundation Depsis.Foundation.Levels Relation List AList

variable {fold : String → String} {server : Server} {sight : Sight} {entries : List DirEntryInfo}
variable {before table later : Index} {id : String} {row : IndexRow}

def Supplanted (sight : Sight) (entries : List DirEntryInfo) (before : Index) (top : String) : Prop :=
  ∃ was entry, before.lookup top = some was ∧ Here sight.spot was ∧ was.trashedAt = none ∧ entry ∈ entries ∧
    entry.name = was.name ∧ was.kind ≠ kindOf entry

/-- A row the comparison may act on that a whole listing does not show, or whose name
another row has already answered for.
-/
structure Missed (sight : Sight) (entries : List DirEntryInfo) (before : Index) (top : String) (was : IndexRow) : Prop where
  whole : sight.truncated = false
  stored : before.lookup top = some was
  here : Here sight.spot was
  may : was.trashedAt = none ∨ was.recycled = true
  unseen : ¬Listed entries was.name ∨ ∃ other sibling, before.lookup other = some sibling ∧ other ≠ top ∧
    Here sight.spot sibling ∧ sibling.name = was.name

def Lost (sight : Sight) (entries : List DirEntryInfo) (before : Index) (top : String) : Prop :=
  Supplanted sight entries before top ∨
    ∃ was, Missed sight entries before top was ∧ sight.bin.contains was.name = false

def Safe (row : IndexRow) (table : Index) (id : String) : Prop :=
  ∃ now, table.lookup id = some now ∧ (now.trashedAt = none ∧ now.recycled = false ∨
    now.trashedAt = row.trashedAt ∧ now.recycled = row.recycled)

inductive Fate (sight : Sight) (entries : List DirEntryInfo) (before : Index) (id : String) (row : IndexRow) (table : Index) :
    Prop where
  | safe (still : Safe row table id)
  | trashed (present : table.lookup id ≠ none) (top : String) (was : IndexRow) (missed : Missed sight entries before top was)
    (path : ReflTransGen (RightBelow (kids before sight.spot.organizationId)) top id)
  | removed (top : String) (lost : Lost sight entries before top)
    (path : ReflTransGen (RightBelow (kids before sight.spot.organizationId)) top id)

structure Accounted (server : Server) (sight : Sight) (entries : List DirEntryInfo) (before : Index) (start : Nat)
    (seen : List (String × IndexRow)) (state : Comparison) : Prop where
  fate : ∀ id row, before.lookup id = some row → Fate sight entries before id row state.table
  others : ∀ id row was, state.table.lookup id = some row → before.lookup id = some was → Alike was row
  childless : ∀ id row parent, state.table.lookup id = some row → row.parentId = some parent →
    before.lookup parent = none → state.table.lookup parent = none
  made : ∀ id row, state.table.lookup id = some row → before.lookup id = none → ∃ next, start ≤ next ∧ id = server.newId next
  later : start ≤ state.drawn
  fresh : Fresh server state.drawn state.table
  undrawn : ∀ next, state.drawn ≤ next → before.lookup (server.newId next) = none
  onDisk : ∀ entry ∈ state.onDisk, entry ∈ entries
  used : ∀ entry ∈ entries, entry ∈ state.onDisk ∨ ∃ known ∈ seen, known.2.name = entry.name

theorem Safe.refl (stored : table.lookup id = some row) : Safe row table id := ⟨row,stored,.inr ⟨rfl,rfl⟩⟩

theorem Fate.next (fate : Fate sight entries before id row table)
    (next : ∀ now, table.lookup id = some now → Fate sight entries before id now later) :
    Fate sight entries before id row later := by
  cases fate with
  | safe still =>
    obtain ⟨now,present,how⟩ := still
    cases next now present with
    | safe still =>
      obtain ⟨after,shown,then'⟩ := still
      refine .safe ⟨after,shown,?_⟩
      rcases then' with clear | ⟨trashed,recycled⟩
      · exact .inl clear
      · rw [trashed,recycled]
        exact how
    | trashed shown top was missed path => exact .trashed shown top was missed path
    | removed top lost path => exact .removed top lost path
  | trashed present top was missed path =>
    obtain ⟨now,found⟩ := Option.ne_none_iff_exists'.mp present
    cases next now found with
    | safe still =>
      obtain ⟨after,shown,-⟩ := still
      exact .trashed (by simp [shown]) top was missed path
    | trashed shown => exact .trashed shown top was missed path
    | removed top lost path => exact .removed top lost path
  | removed top lost path => exact .removed top lost path

section

variable {state after : Comparison} {start : Nat} {seen : List (String × IndexRow)}

section

variable (accounted : Accounted server sight entries before start seen state)
include accounted

theorem Accounted.path {top id organizationId : String}
    (path : ReflTransGen (RightBelow (kids state.table organizationId)) top id) (root : before.lookup top ≠ none)
    (known : before.lookup id ≠ none) : ReflTransGen (RightBelow (kids before organizationId)) top id := by
  induction path with
  | refl => exact .refl
  | @tail above id path step ih =>
    obtain ⟨row,stored,own,named⟩ := under_iff.mp step
    obtain ⟨was,present⟩ := Option.ne_none_iff_exists'.mp known
    have alike := accounted.others id row was stored present
    refine .tail (ih (fun absent => ?_)) (under_iff.mpr ⟨was,present,alike.organizationId ▸ own,alike.parentId ▸ named⟩)
    have gone := accounted.childless id row above stored named absent
    rcases ReflTransGen.cases_tail path with rfl | ⟨higher,-,last⟩
    · exact root absent
    · obtain ⟨_,there,-,-⟩ := under_iff.mp last
      rw [gone] at there
      cases there

theorem Accounted.derived
    (derived : Derived state.table after.table)
    (fates : ∀ id row, state.table.lookup id = some row → before.lookup id ≠ none → Fate sight entries before id row after.table)
    (drawn : after.drawn = state.drawn) (onDisk : after.onDisk = state.onDisk) :
    Accounted server sight entries before start seen after := by
  refine ⟨fun id row stored => (accounted.fate id row stored).next (fun now present => ?_),fun id row was found stored => ?_,
    fun id row parent found named absent => ?_,fun id row found absent => ?_,drawn ▸ accounted.later,drawn ▸ accounted.fresh.derived derived,
    fun next past => accounted.undrawn next (drawn ▸ past),onDisk ▸ accounted.onDisk,onDisk ▸ accounted.used⟩
  · exact fates id now present (by simp [stored])
  · obtain ⟨old,present,alike⟩ := derived id row found
    exact (accounted.others id old was present stored).trans alike
  · obtain ⟨old,present,alike⟩ := derived id row found
    have gone := accounted.childless id old parent present (alike.parentId ▸ named) absent
    cases there : after.table.lookup parent with
    | none => rfl
    | some child =>
      obtain ⟨older,shown,-⟩ := derived parent child there
      rw [gone] at shown
      cases shown
  · obtain ⟨old,present,-⟩ := derived id row found
    exact accounted.made id old present absent

theorem Accounted.insert {was : IndexRow}
    (stored : state.table.lookup id = some was) (alike : Alike was row)
    (how : row.trashedAt = none ∧ row.recycled = false ∨ row.trashedAt = was.trashedAt ∧ row.recycled = was.recycled)
    (written : after.table = state.table.insert id row) (drawn : after.drawn = state.drawn)
    (onDisk : after.onDisk = state.onDisk) : Accounted server sight entries before start seen after := by
  refine accounted.derived (written ▸ .insert stored alike) (fun other found present _ => .safe ?_) drawn onDisk
  rw [written]
  by_cases same : other = id
  · subst same
    cases stored.symm.trans present
    exact ⟨row,lookup_insert _,how⟩
  · exact .refl ((lookup_insert_ne same).trans present)

theorem Accounted.idle (same : after.table = state.table)
    (drawn : after.drawn = state.drawn) (onDisk : after.onDisk = state.onDisk) :
    Accounted server sight entries before start seen after :=
  accounted.derived (same ▸ .refl _) (fun _ _ stored _ => .safe (.refl (same ▸ stored))) drawn onDisk

theorem Accounted.wider (known : String × IndexRow) :
    Accounted server sight entries before start (seen ++ [known]) state where
  __ := accounted
  used := fun entry listed => (accounted.used entry listed).imp_right
    (fun ⟨one,member,named⟩ => ⟨one,mem_append_left _ member,named⟩)

theorem Accounted.delete (known : String × IndexRow) :
    Accounted server sight entries before start (seen ++ [known]) (state.delete known.2.name) where
  fate := accounted.fate
  others := accounted.others
  childless := accounted.childless
  made := accounted.made
  later := accounted.later
  fresh := accounted.fresh
  undrawn := accounted.undrawn
  onDisk := fun entry left => accounted.onDisk entry (mem_of_mem_filter left)
  used := fun entry listed => by
    by_cases named : known.2.name = entry.name
    · exact .inr ⟨known,by simp,named⟩
    · rcases accounted.used entry listed with left | ⟨one,member,same⟩
      · refine .inl (mem_filter.mpr ⟨left,?_⟩)
        simpa using Ne.symm named
      · exact .inr ⟨one,mem_append_left _ member,same⟩

theorem Accounted.remembering (settled : Settled sight.spot before)
    (entry : DirEntryInfo) : Accounted server sight entries before start seen (state.remembering fold server sight entry) := by
  have folder : ∀ next, state.drawn ≤ next → sight.spot.folder.id ≠ some (server.newId next) := by
    intro next past named
    have present := settled _ named
    rw [accounted.undrawn next past] at present
    cases present
  obtain ⟨onDisk,drawn,⟨-,same⟩ | ⟨-,written⟩⟩ := remembering_spec fold server sight state entry
  · refine ⟨same ▸ accounted.fate,same ▸ accounted.others,same ▸ accounted.childless,same ▸ accounted.made,
      drawn ▸ accounted.later.trans (Nat.le_succ _),fun next past => ?_,fun next past => ?_,onDisk ▸ accounted.onDisk,onDisk ▸ accounted.used⟩
    · rw [same]
      exact accounted.fresh next (by omega)
    · exact accounted.undrawn next (by omega)
  · have mark := accounted.undrawn state.drawn le_rfl
    refine ⟨fun id row stored => (accounted.fate id row stored).next (fun now present => ?_),fun id row was found stored => ?_,
      fun id row parent found named absent => ?_,fun id row found absent => ?_,
      drawn ▸ accounted.later.trans (Nat.le_succ _),?_,fun next past => accounted.undrawn next (by omega),onDisk ▸ accounted.onDisk,onDisk ▸ accounted.used⟩
    · refine .safe (.refl ?_)
      rw [written]
      exact (lookup_insert_ne (accounted.fresh.stored_ne present le_rfl)).trans present
    · rw [written,lookup_insert_eq] at found
      split_ifs at found with new
      · rw [new,mark] at stored
        cases stored
      · exact accounted.others id row was found stored
    · rw [written,lookup_insert_eq] at found ⊢
      have old : parent ≠ server.newId state.drawn := by
        rintro rfl
        split_ifs at found
        · cases found
          exact folder _ le_rfl named
        · exact (accounted.fresh state.drawn le_rfl).2 id row found named
      rw [if_neg old]
      split_ifs at found
      · cases found
        have present := settled parent named
        rw [absent] at present
        cases present
      · exact accounted.childless id row parent found named absent
    · rw [written,lookup_insert_eq] at found
      split_ifs at found with new
      · exact ⟨state.drawn,accounted.later,new⟩
      · exact accounted.made id row found absent
    · rw [written,drawn]
      exact accounted.fresh.remember folder

theorem Accounted.forgetting {top : String}
    (stored : before.lookup top ≠ none) (lost : Lost sight entries before top) :
    Accounted server sight entries before start seen (state.forgetting sight top).1 := by
  unfold Comparison.forgetting
  split
  next => exact accounted
  next table count ran =>
    obtain ⟨ids,grown,lookups⟩ := forget_ok ran
    refine accounted.derived (forgotten_derived lookups) (fun id row present known => ?_) rfl rfl
    by_cases member : id ∈ ids
    · exact .removed top lost (accounted.path ((mem_tree grown).mp member).2 stored known)
    · exact .safe (.refl (by rw [lookups,if_neg member]; exact present))

theorem Accounted.binning {top : String} {was : IndexRow}
    (missed : Missed sight entries before top was) :
    Accounted server sight entries before start seen (state.binning server sight top).1 := by
  unfold Comparison.binning
  split
  next => exact accounted
  next table count ran =>
    obtain ⟨ids,grown,lookups⟩ := sendSubtreeToTheBin_ok ran
    refine accounted.derived (fun id row present => ?_) (fun id row present known => ?_) rfl rfl
    · rw [lookups] at present
      obtain ⟨old,there,rfl⟩ := Option.map_eq_some_iff.mp present
      refine ⟨old,there,?_⟩
      split_ifs
      · exact binned_alike _ _
      · exact .refl old
    · have shown := lookups id
      rw [present,Option.map_some] at shown
      by_cases member : id ∈ ids
      · refine .trashed (by simp [shown]) top was missed (accounted.path ((mem_tree grown).mp member).2 ?_ known)
        simp [missed.stored]
      · rw [if_neg (fun both => member both.1)] at shown
        exact .safe (.refl shown)

theorem Accounted.restoring :
    Accounted server sight entries before start seen (state.restoring fold server sight id).1 := by
  unfold Comparison.restoring
  split
  next => exact accounted
  next table count ran =>
    rcases backFromTheBin_ok ran with rfl | ⟨row,present,-,-,-,rfl⟩
    · exact accounted.idle rfl rfl rfl
    · exact accounted.insert present (restored_alike _ _) (.inl ⟨rfl,rfl⟩) rfl rfl rfl

theorem Accounted.refreshing (entry : DirEntryInfo) :
    Accounted server sight entries before start seen (state.refreshing server sight id row entry) := by
  obtain ⟨table,drawn,onDisk⟩ := refreshing_frame server sight state id row entry
  rcases refresh_cases server state.table id row entry with same | ⟨found,present,same⟩
  · exact accounted.idle (table.trans same) drawn onDisk
  · exact accounted.insert present (refreshed_alike _ _ _) (.inr ⟨rfl,rfl⟩) (table.trans same) drawn onDisk

end

section

variable {known : String × IndexRow}
variable (accounted : Accounted server sight entries before start seen state) (apart : ∀ other ∈ seen, other.1 ≠ known.1)
variable (rows : ∀ other ∈ seen, before.lookup other.1 = some other.2 ∧ Here sight.spot other.2)
variable (stored : before.lookup known.1 = some known.2) (here : Here sight.spot known.2)

include accounted apart rows stored here

theorem Accounted.missed (whole : sight.truncated = false) (may : known.2.trashedAt = none ∨ known.2.recycled = true)
    (absent : state.get known.2.name = none) : Missed sight entries before known.1 known.2 := by
  refine ⟨whole,stored,here,may,?_⟩
  by_cases listed : Listed entries known.2.name
  · obtain ⟨entry,member,named⟩ := listed
    rcases accounted.used entry member with left | ⟨other,earlier,same⟩
    · have differs := find?_eq_none.mp absent entry left
      simp [named] at differs
    · exact .inr ⟨other.1,other.2,(rows other earlier).1,apart other earlier,(rows other earlier).2,same.trans named⟩
  · exact .inl listed

theorem Accounted.visit (fold : String → String) (settled : Settled sight.spot before) :
    Accounted server sight entries before start (seen ++ [known]) (state.visit fold server sight known).1 := by
  have present : before.lookup known.1 ≠ none := by simp [stored]
  have deleted := accounted.delete known
  unfold Comparison.visit
  split
  next trashed =>
    unfold Comparison.visitTrashed
    simp only
    split_ifs with left found cut inBin
    · exact deleted
    · exact deleted.restoring
    · exact deleted
    · exact deleted
    · refine deleted.forgetting present (.inr ⟨known.2,?_,by simpa using inBin⟩)
      exact accounted.missed apart rows stored here (by simpa using cut) (.inr (by simpa using left)) (by simpa using found)
  next out =>
    have live : known.2.trashedAt = none := by simpa using out
    unfold Comparison.visitLive
    split
    next absent =>
      split_ifs with cut inBin
      · exact accounted.wider known
      · exact (accounted.wider known).binning (accounted.missed apart rows stored here (by simpa using cut) (.inl live) absent)
      · refine (accounted.wider known).forgetting present (.inr ⟨known.2,?_,by simpa using inBin⟩)
        exact accounted.missed apart rows stored here (by simpa using cut) (.inl live) absent
    next entry found =>
      have listed := accounted.onDisk entry (mem_of_find?_eq_some found)
      have named : entry.name = known.2.name := by simpa using find?_some found
      simp only
      split_ifs with differs
      · have gone := deleted.forgetting present (.inl ⟨known.2,entry,stored,here,live,listed,named,differs⟩)
        split
        next told =>
          rw [told] at gone
          exact gone
        next told =>
          rw [told] at gone
          exact gone.remembering settled entry
      · exact deleted.refreshing entry

end

theorem Accounted.visitAll (fold : String → String) (settled : Settled sight.spot before) {rest : List (String × IndexRow)}
    (accounted : Accounted server sight entries before start seen state) (distinct : ((seen ++ rest).map Prod.fst).Nodup)
    (rows : ∀ known ∈ seen ++ rest, before.lookup known.1 = some known.2 ∧ Here sight.spot known.2) :
    ∃ all, Accounted server sight entries before start all (Comparison.visitAll fold server sight state rest).1 := by
  induction rest generalizing seen state with
  | nil => exact ⟨seen,accounted⟩
  | cons known rest ih =>
    have same : seen ++ [known] ++ rest = seen ++ known::rest := by simp
    have apart : ∀ other ∈ seen, other.1 ≠ known.1 := by
      rw [map_append,map_cons] at distinct
      have absent := (nodup_middle.mp distinct).notMem
      intro other member equal
      exact absent (mem_append_left _ (equal ▸ mem_map_of_mem member))
    obtain ⟨stored,here⟩ := rows known (by simp)
    have step := accounted.visit apart (fun other member => rows other (mem_append_left _ member)) stored here fold settled
    unfold Comparison.visitAll
    split
    next told =>
      rw [told] at step
      exact ⟨_,step⟩
    next told =>
      rw [told] at step
      exact ih step (same ▸ distinct) (same ▸ rows)

theorem Accounted.rememberAll (fold : String → String) (settled : Settled sight.spot before) (left : List DirEntryInfo)
    (accounted : Accounted server sight entries before start seen state) : Accounted server sight entries before start seen
      (left.foldl (fun state entry => state.remembering fold server sight entry) state) := by
  induction left generalizing state with
  | nil => exact accounted
  | cons entry rest ih => exact ih (accounted.remembering settled entry)

end

theorem compare_accounted {drawn : Nat} (result : ReconcileResult) (queue : Option (List Folder)) (seen : Option (List String))
    (settled : Settled sight.spot before) (fresh : Fresh server drawn before) : ∃ all,
      Accounted server sight entries before drawn all (compare fold server sight entries before drawn result queue seen).1 := by
  have opening : Accounted server sight entries before drawn [] ⟨before,drawn,entries,result,queue,seen⟩ := by
    refine ⟨fun id row stored => .safe (.refl stored),fun id row was found present => ?_,fun _ _ _ _ _ absent => absent,
      fun id row found absent => ?_,le_rfl,fresh,fun next past => (fresh next past).1,fun _ left => left,fun _ listed => .inl listed⟩
    · cases found.symm.trans present
      exact .refl row
    · rw [absent] at found
      cases found
  have distinct : (([] ++ rowsUnder server before sight.spot).map Prod.fst).Nodup := by
    rw [nil_append,rowsUnder]
    refine ((server.arranged _).map Prod.fst).nodup_iff.mpr (before.rows_nodup.sublist ?_)
    exact filter_sublist.map Prod.fst
  obtain ⟨all,ended⟩ := opening.visitAll fold settled distinct (fun known member => mem_rowsUnder.mp member)
  refine ⟨all,?_⟩
  unfold compare
  split
  next told =>
    rw [told] at ended
    exact ended
  next told =>
    rw [told] at ended
    exact ended.rememberAll fold settled _

theorem compare_cut {drawn : Nat} (result : ReconcileResult) (queue : Option (List Folder)) (seen : Option (List String))
    (settled : Settled sight.spot before) (fresh : Fresh server drawn before) (cut : sight.truncated = true)
    (stored : before.lookup id = some row) :
    Safe row (compare fold server sight entries before drawn result queue seen).1.table id ∨
      ∃ top, Supplanted sight entries before top ∧
        ReflTransGen (RightBelow (kids before sight.spot.organizationId)) top id := by
  obtain ⟨all,ended⟩ := @compare_accounted fold server sight entries before drawn result queue seen settled fresh
  have never {top : String} {was : IndexRow} (missed : Missed sight entries before top was) : False := by
    rw [missed.whole] at cut
    cases cut
  cases ended.fate id row stored with
  | safe still => exact .inl still
  | trashed _ top was missed => exact (never missed).elim
  | removed top lost path =>
    rcases lost with supplanted | ⟨was,missed,-⟩
    · exact .inr ⟨top,supplanted,path⟩
    · exact (never missed).elim

end Depsis.Files.Indexer

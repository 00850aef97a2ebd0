import Depsis.Files.Indexer
import Mathlib.Data.List.Find

/-! A folder's rows compared with a listing of all that is in it: what becomes of each
row, and that a second comparison finds nothing left to do.
-/
namespace Depsis.Files.Indexer

open Depsis.Foundation Depsis.Foundation.Levels Relation List AList

structure Here (spot : Spot) (row : IndexRow) : Prop where
  organizationId : row.organizationId = spot.organizationId
  shareId : row.shareId = spot.shareId
  parentId : row.parentId = spot.folder.id

def Listed (entries : List DirEntryInfo) (name : String) : Prop := ∃ entry ∈ entries, entry.name = name

structure Returns (spot : Spot) (entries : List DirEntryInfo) (row : IndexRow) : Prop where
  here : Here spot row
  trashed : row.trashedAt.isSome = true
  recycled : row.recycled = true
  listed : Listed entries row.name

/-- No two rows lay claim to one listed name, and what is back at its place is what it was. -/
structure Uncontested (fold : String → String) (spot : Spot) (entries : List DirEntryInfo) (table : Index) : Prop where
  alone : ∀ id row other sibling, table.lookup id = some row → table.lookup other = some sibling → other ≠ id →
    Returns spot entries row → sibling.trashedAt = none ∨ Returns spot entries sibling →
    placeOf fold sibling ≠ placeOf fold row
  faithful : ∀ id row, table.lookup id = some row → Returns spot entries row →
    ∀ entry ∈ entries, entry.name = row.name → row.kind = kindOf entry
  inPlace : ∀ id row other sibling, table.lookup id = some row → table.lookup other = some sibling →
    Here spot row → Here spot sibling → row.trashedAt.isSome = true → row.recycled = false →
    Listed entries row.name → sibling.name = row.name → sibling.trashedAt.isSome = true ∧ sibling.recycled = false

def outcome (server : Server) (sight : Sight) (entries : List DirEntryInfo) (id : String) (row : IndexRow) :
    Option IndexRow :=
  match entries.find? (fun entry => entry.name = row.name),row.trashedAt with
  | some entry,none =>
    if row.kind ≠ kindOf entry then none
    else some (if entry.directory || upToDate row entry then row else refreshed (server.now id) entry row)
  | none,none => if sight.bin.contains row.name then some (binned (server.now id) row) else none
  | some _,some _ => some (if row.recycled then restored (server.now id) row else row)
  | none,some _ => if row.recycled && !sight.bin.contains row.name then none else some row

def Stays (server : Server) (sight : Sight) (entries : List DirEntryInfo) (id : String) (row : IndexRow) : Prop :=
  ∃ kept, outcome server sight entries id row = some kept ∧ (row.trashedAt = none → kept.trashedAt = none)

section

variable (fold : String → String) (server : Server) (sight : Sight) (entries : List DirEntryInfo) (before : Index)

structure Midway (seen rest : List (String × IndexRow)) (state : Comparison) : Prop where
  distinct : ((seen ++ rest).map Prod.fst).Nodup
  stored : ∀ known ∈ seen ++ rest, before.lookup known.1 = some known.2 ∧ Here sight.spot known.2
  onDisk : state.onDisk = entries.filter (fun entry => entry.name ∉ seen.map (fun known => known.2.name))
  todo : ∀ known ∈ rest, state.table.lookup known.1 = some known.2
  done : ∀ known ∈ seen, state.table.lookup known.1 = outcome server sight entries known.1 known.2
  others : ∀ id row was, state.table.lookup id = some row → before.lookup id = some was → Alike was row
  made : ∀ id row, state.table.lookup id = some row → before.lookup id = none →
    ∃ known ∈ seen, known.2.trashedAt = none ∧ ∃ entry ∈ entries, entry.name = known.2.name ∧
      known.2.kind ≠ kindOf entry ∧ row = rowOf sight.spot entry
  replaced : ∀ known ∈ seen, known.2.trashedAt = none → ∀ entry ∈ entries, entry.name = known.2.name →
    known.2.kind ≠ kindOf entry → ∃ id, before.lookup id = none ∧ state.table.lookup id = some (rowOf sight.spot entry)
  holders : ∀ id row, state.table.lookup id = some row → row.trashedAt = none → ∃ source was,
    before.lookup source = some was ∧ placeOf fold was = placeOf fold row ∧ ((source = id ∧ was.trashedAt = none) ∨
      ((source,was) ∈ seen ∧ (was.trashedAt = none ∨ Returns sight.spot entries was)))
  still : (∀ known ∈ seen, Stays server sight entries known.1 known.2) →
    ∀ id, id ∉ seen.map Prod.fst → state.table.lookup id = before.lookup id
  unique : Unique fold state.table
  rooted : Rooted sight.spot state.table
  settled : Settled sight.spot state.table
  fresh : Fresh server state.drawn state.table
  undrawn : ∀ next, state.drawn ≤ next → before.lookup (server.newId next) = none

end

section

variable {fold : String → String} {server : Server} {sight : Sight} {entries : List DirEntryInfo} {before : Index}
variable {seen rest : List (String × IndexRow)} {known : String × IndexRow} {state after : Comparison}

theorem outcome_alike {id : String} {row kept : IndexRow} (found : outcome server sight entries id row = some kept) :
    Alike row kept := by
  unfold outcome at found
  split at found
  · split_ifs at found with other idle
    · cases found
      exact .refl row
    · cases found
      exact refreshed_alike _ _ row
  · split_ifs at found
    cases found
    exact binned_alike _ row
  · cases found
    split_ifs
    · exact restored_alike _ row
    · exact .refl row
  · split_ifs at found
    cases found
    exact .refl row

theorem rowOf_place {entry : DirEntryInfo} {row : IndexRow} (here : Here sight.spot row) (same : entry.name = row.name) :
    placeOf fold (rowOf sight.spot entry) = placeOf fold row := by
  simp only [placeOf,rowOf,here.parentId,here.organizationId,here.shareId,same]

section

variable (mid : Midway fold server sight entries before seen (known::rest) state)
include mid

theorem Midway.apart
    {other : String × IndexRow} (member : other ∈ seen ++ rest) : other.1 ≠ known.1 := by
  have alone := mid.distinct
  rw [map_append,map_cons] at alone
  have absent := (nodup_middle.mp alone).notMem
  intro equal
  apply absent
  rw [← map_append,← equal]
  exact mem_map_of_mem member

theorem Midway.advance
    (onDisk : after.onDisk = state.onDisk.filter (fun entry => entry.name ≠ known.2.name))
    (self : after.table.lookup known.1 = outcome server sight entries known.1 known.2)
    (siblings : ∀ id row, state.table.lookup id = some row → row.parentId = sight.spot.folder.id → id ≠ known.1 →
      after.table.lookup id = some row)
    (origin : ∀ id row, after.table.lookup id = some row →
      (∃ was, state.table.lookup id = some was ∧ Alike was row ∧ (row.trashedAt = none → was.trashedAt = none ∨
        (id = known.1 ∧ Returns sight.spot entries known.2))) ∨
      (before.lookup id = none ∧ known.2.trashedAt = none ∧ ∃ entry ∈ entries, entry.name = known.2.name ∧
        known.2.kind ≠ kindOf entry ∧ row = rowOf sight.spot entry))
    (replaces : known.2.trashedAt = none → ∀ entry ∈ entries, entry.name = known.2.name → known.2.kind ≠ kindOf entry →
      ∃ id, before.lookup id = none ∧ after.table.lookup id = some (rowOf sight.spot entry))
    (still : Stays server sight entries known.1 known.2 → ∀ id, id ≠ known.1 →
      after.table.lookup id = state.table.lookup id)
    (unique : Unique fold after.table) (rooted : Rooted sight.spot after.table) (settled : Settled sight.spot after.table)
    (fresh : Fresh server after.drawn after.table) (later : state.drawn ≤ after.drawn) :
    Midway fold server sight entries before (seen ++ [known]) rest after := by
  have same : seen ++ [known] ++ rest = seen ++ known::rest := by simp
  have apart : ∀ other ∈ seen ++ rest, other.1 ≠ known.1 := fun other member => mid.apart member
  have here := mid.stored known (mem_append_right _ mem_cons_self)
  refine ⟨same ▸ mid.distinct,same ▸ mid.stored,?_,fun other member => ?_,fun other member => ?_,?_,?_,?_,?_,
    ?_,unique,rooted,settled,fresh,fun next past => mid.undrawn next (later.trans past)⟩
  · rw [onDisk,mid.onDisk,filter_filter]
    refine filter_congr (fun entry _ => ?_)
    rw [map_append,map_singleton,← Bool.decide_and,decide_eq_decide,mem_append,mem_singleton,
      not_or,and_comm]
  · have stored := mid.todo other (mem_cons_of_mem _ member)
    exact siblings _ _ stored (mid.stored other (by simp [member])).2.parentId (apart other (mem_append_right _ member))
  · rcases mem_append.mp member with earlier | last
    · have was := mid.done other earlier
      obtain ⟨present,under⟩ := mid.stored other (mem_append_left _ earlier)
      rw [← was]
      cases kept : state.table.lookup other.1 with
      | some row =>
        have alike := outcome_alike (was.symm.trans kept)
        exact siblings _ _ kept (alike.parentId.trans under.parentId) (apart other (mem_append_left _ earlier))
      | none =>
        cases found : after.table.lookup other.1 with
        | none => rfl
        | some row =>
          rcases origin _ _ found with ⟨old,there,-⟩ | ⟨absent,-⟩
          · rw [kept] at there
            cases there
          · rw [present] at absent
            cases absent
    · rw [mem_singleton.mp last]
      exact self
  · intro id row was found present
    rcases origin id row found with ⟨old,there,alike,-⟩ | ⟨absent,-⟩
    · exact (mid.others id old was there present).trans alike
    · rw [present] at absent
      cases absent
  · intro id row found absent
    rcases origin id row found with ⟨old,there,alike,-⟩ | ⟨-,live,entry,listed,named,differs,made⟩
    · obtain ⟨source,member,live,entry,listed,named,differs,rfl⟩ := mid.made id old there absent
      refine ⟨source,mem_append_left _ member,live,entry,listed,named,differs,?_⟩
      have other : id ≠ known.1 := by
        rintro rfl
        rw [here.1] at absent
        cases absent
      exact Option.some.inj (found.symm.trans (siblings id _ there rfl other))
    · exact ⟨known,by simp,live,entry,listed,named,differs,made⟩
  · intro source member live entry listed named differs
    rcases mem_append.mp member with earlier | last
    · obtain ⟨id,absent,there⟩ := mid.replaced source earlier live entry listed named differs
      refine ⟨id,absent,siblings id _ there rfl ?_⟩
      rintro rfl
      rw [here.1] at absent
      cases absent
    · rw [mem_singleton.mp last] at live named differs
      exact replaces live entry listed named differs
  · intro id row found out
    rcases origin id row found with ⟨old,there,alike,kept⟩ | ⟨-,live,entry,-,named,-,rfl⟩
    · rcases kept out with live | ⟨rfl,returns⟩
      · obtain ⟨source,was,present,place,held⟩ := mid.holders id old there live
        exact ⟨source,was,present,place.trans alike.place.symm,held.imp_right (And.imp_left (mem_append_left _))⟩
      · have now := mid.todo known mem_cons_self
        cases there.symm.trans now
        exact ⟨known.1,known.2,here.1,alike.place.symm,.inr ⟨by simp,.inr returns⟩⟩
    · exact ⟨known.1,known.2,here.1,(rowOf_place here.2 named).symm,.inr ⟨by simp,.inl live⟩⟩
  · intro stay id absent
    rw [map_append,mem_append,not_or] at absent
    rw [still (stay known (by simp)) id (fun same => absent.2 (by simp [same]))]
    exact mid.still (fun other member => stay other (mem_append_left _ member)) id absent.1

end

section Steps

variable {ids : List String} {id : String} {row : IndexRow}

theorem forgetting_spec (found : tree state.table sight.spot.organizationId id = some ids) : ∃ table result,
    state.forgetting sight id = ({state with table := table, result := result},none) ∧
      ∀ other, table.lookup other = if other ∈ ids then none else state.table.lookup other := by
  obtain ⟨table,count,ran⟩ := forget_runs found
  obtain ⟨gone,same,lookups⟩ := forget_ok ran
  cases found.symm.trans same
  refine ⟨table,{state.result with removed := state.result.removed + count},?_,lookups⟩
  rw [Comparison.forgetting,ran]

theorem binning_spec (found : tree state.table sight.spot.organizationId id = some ids) : ∃ table result,
    state.binning server sight id = ({state with table := table, result := result},none) ∧
      ∀ other, table.lookup other = (state.table.lookup other).map (fun row =>
        if other ∈ ids ∧ row.trashedAt = none then binned (server.now id) row else row) := by
  obtain ⟨table,count,ran⟩ := @sendSubtreeToTheBin_runs server _ _ _ _ found
  obtain ⟨gone,same,lookups⟩ := sendSubtreeToTheBin_ok ran
  cases found.symm.trans same
  refine ⟨table,{state.result with binned := state.result.binned + count},?_,lookups⟩
  rw [Comparison.binning,ran]

@[simp] theorem descend_table (name : String) : (state.descend sight id name).table = state.table := by
  unfold Comparison.descend
  split <;> rfl

@[simp] theorem descend_onDisk (name : String) : (state.descend sight id name).onDisk = state.onDisk := by
  unfold Comparison.descend
  split <;> rfl

@[simp] theorem descend_drawn (name : String) : (state.descend sight id name).drawn = state.drawn := by
  unfold Comparison.descend
  split <;> rfl

theorem refreshing_frame (server : Server) (sight : Sight) (state : Comparison) (id : String) (row : IndexRow)
    (entry : DirEntryInfo) : (state.refreshing server sight id row entry).table = (refresh server state.table id row entry).1 ∧
      (state.refreshing server sight id row entry).drawn = state.drawn ∧
      (state.refreshing server sight id row entry).onDisk = state.onDisk := by
  simp only [Comparison.refreshing]
  split
  next => exact ⟨descend_table _,descend_drawn _,descend_onDisk _⟩
  next => exact ⟨rfl,rfl,rfl⟩

theorem refreshing_spec {entry : DirEntryInfo} (stored : state.table.lookup id = some row) (other : String) :
    (state.refreshing server sight id row entry).table.lookup other = if other = id then
        some (if entry.directory || upToDate row entry then row else refreshed (server.now id) entry row)
      else state.table.lookup other := by
  rw [(refreshing_frame server sight state id row entry).1]
  exact refresh_lookup server entry stored other

theorem remembering_spec (fold : String → String) (server : Server) (sight : Sight) (state : Comparison) (entry : DirEntryInfo) :
    (state.remembering fold server sight entry).onDisk = state.onDisk ∧
      (state.remembering fold server sight entry).drawn = state.drawn + 1 ∧
      ((Refused fold state.table sight.spot (server.newId state.drawn) entry ∧
        (state.remembering fold server sight entry).table = state.table) ∨
      (¬Refused fold state.table sight.spot (server.newId state.drawn) entry ∧
        (state.remembering fold server sight entry).table =
          state.table.insert (server.newId state.drawn) (rowOf sight.spot entry))) := by
  unfold Comparison.remembering
  rcases remember_cases fold state.table sight.spot (server.newId state.drawn) entry with
    ⟨refused,same⟩ | ⟨admitted,same⟩
  · rw [same]
    exact ⟨rfl,rfl,.inl ⟨refused,rfl⟩⟩
  · rw [same]
    simp only
    split
    next => exact ⟨descend_onDisk _,descend_drawn _,.inr ⟨admitted,descend_table _⟩⟩
    next => exact ⟨rfl,rfl,.inr ⟨admitted,rfl⟩⟩

theorem Midway.subtree (mid : Midway fold server sight entries before seen (known::rest) state) :
    ∃ ids, tree state.table sight.spot.organizationId known.1 = some ids ∧ known.1 ∈ ids ∧
      (∀ id row, state.table.lookup id = some row → row.parentId = sight.spot.folder.id → id ≠ known.1 → id ∉ ids) ∧
      ∀ folder, sight.spot.folder.id = some folder → folder ∉ ids := by
  have stored := mid.todo known mem_cons_self
  have here := (mid.stored known (mem_append_right _ mem_cons_self)).2
  have rooted : ∀ parent, known.2.parentId = some parent →
      ¬TransGen (RightBelow (kids state.table sight.spot.organizationId)) parent parent :=
    fun parent named => mid.rooted parent (here.parentId.symm.trans named)
  obtain ⟨ids,found⟩ := Option.isSome_iff_exists.mp (tree_ends stored rooted)
  refine ⟨ids,found,(mem_tree found).mpr ⟨⟨_,stored,here.organizationId⟩,.refl⟩,?_,?_⟩
  · intro id row present under other member
    exact other (siblings_apart stored present (under.trans here.parentId.symm) here.organizationId rooted
      ((mem_tree found).mp member).2)
  · intro folder named member
    exact folder_apart stored (here.parentId.trans named) here.organizationId (mid.rooted folder named)
      ((mem_tree found).mp member).2

end Steps

section Visits

variable (mid : Midway fold server sight entries before seen (known::rest) state)
variable (unique : Unique fold before) (uncontested : Uncontested fold sight.spot entries before)

theorem Here.place (fold : String → String) {first second : IndexRow} (one : Here sight.spot first) (two : Here sight.spot second)
    (same : first.name = second.name) : placeOf fold first = placeOf fold second := by
  simp only [placeOf,one.parentId,one.organizationId,one.shareId,two.parentId,two.organizationId,two.shareId,same]

include unique uncontested in
theorem sole {id other : String} {row sibling : IndexRow} (stored : before.lookup id = some row)
    (present : before.lookup other = some sibling) (here : Here sight.spot row) (under : Here sight.spot sibling)
    (same : sibling.name = row.name) (listed : Listed entries row.name)
    (may : row.trashedAt = none ∨ row.recycled = true) : other = id := by
  by_contra apart
  have place := under.place fold here same
  by_cases live : row.trashedAt = none
  · by_cases out : sibling.trashedAt = none
    · exact apart (unique _ _ _ _ present stored out live place)
    · have binned := Option.isSome_iff_ne_none.mpr out
      cases recycled : sibling.recycled with
      | true =>
        exact uncontested.alone _ _ _ _ present stored (Ne.symm apart) ⟨under,binned,recycled,same ▸ listed⟩
          (.inl live) place.symm
      | false =>
        have both := uncontested.inPlace _ _ _ _ present stored under here binned recycled (same ▸ listed) same.symm
        rw [live] at both
        cases both.1
  · have returns : Returns sight.spot entries row :=
      ⟨here,Option.isSome_iff_ne_none.mpr live,may.resolve_left live,listed⟩
    by_cases out : sibling.trashedAt = none
    · exact uncontested.alone _ _ _ _ stored present apart returns (.inl out) place
    · have binned := Option.isSome_iff_ne_none.mpr out
      cases recycled : sibling.recycled with
      | true =>
        exact uncontested.alone _ _ _ _ stored present apart returns (.inr ⟨under,binned,recycled,same ▸ listed⟩) place
      | false =>
        have both := uncontested.inPlace _ _ _ _ present stored under here binned recycled (same ▸ listed) same.symm
        rw [returns.recycled] at both
        cases both.2

include mid unique uncontested in
theorem Midway.unseen (may : known.2.trashedAt = none ∨ known.2.recycled = true)
    (listed : Listed entries known.2.name) : ∀ other ∈ seen, other.2.name ≠ known.2.name := by
  intro other member same
  obtain ⟨stored,here⟩ := mid.stored other (mem_append_left _ member)
  obtain ⟨present,under⟩ := mid.stored known (mem_append_right _ mem_cons_self)
  exact mid.apart (mem_append_left rest member) (sole unique uncontested present stored under here same listed may)

include mid unique uncontested in
theorem Midway.get (may : known.2.trashedAt = none ∨ known.2.recycled = true) :
    state.get known.2.name = entries.find? (fun entry => entry.name = known.2.name) := by
  rw [Comparison.get,mid.onDisk,find?_filter]
  refine find?_congr (fun entry listed => ?_)
  rw [decide_eq_decide]
  simp only [decide_eq_true_eq]
  refine and_iff_right_of_imp (fun same taken => ?_)
  obtain ⟨other,member,named⟩ := mem_map.mp taken
  exact mid.unseen unique uncontested may ⟨entry,listed,same⟩ other member (named.trans same)

theorem filter_absent {name : String} (absent : state.get name = none) :
    state.onDisk = state.onDisk.filter (fun entry => entry.name ≠ name) := by
  symm
  refine filter_eq_self.mpr (fun entry member => ?_)
  have other := find?_eq_none.mp absent entry member
  simpa using other

section Forgotten

variable {table : Index} {ids : List String}
variable (lookups : ∀ other, table.lookup other = if other ∈ ids then none else state.table.lookup other)

include lookups

theorem forgotten_kept {id : String} {row : IndexRow} (stored : table.lookup id = some row) :
    id ∉ ids ∧ state.table.lookup id = some row := by
  rw [lookups] at stored
  split_ifs at stored with member
  exact ⟨member,stored⟩

theorem forgotten_derived : Derived state.table table :=
  fun _ row stored => ⟨row,(forgotten_kept lookups stored).2,.refl row⟩

theorem forgotten_unique (unique : Unique fold state.table) : Unique fold table :=
  unique.derived (fun _ row stored live => ⟨row,(forgotten_kept lookups stored).2,live,rfl⟩)

theorem forgotten_settled (settled : Settled sight.spot state.table)
    (apart : ∀ folder, sight.spot.folder.id = some folder → folder ∉ ids) : Settled sight.spot table := by
  intro folder named
  rw [lookups,if_neg (apart folder named)]
  exact settled folder named

end Forgotten

include mid unique uncontested in
theorem Midway.free (may : known.2.trashedAt = none ∨ known.2.recycled = true) (listed : Listed entries known.2.name)
    {id : String} {row sibling : IndexRow} (stored : state.table.lookup id = some sibling) (other : id ≠ known.1)
    (live : sibling.trashedAt = none) (same : placeOf fold row = placeOf fold known.2) :
    placeOf fold sibling ≠ placeOf fold row := by
  intro place
  obtain ⟨present,under⟩ := mid.stored known (mem_append_right _ mem_cons_self)
  obtain ⟨source,was,there,held,reason⟩ := mid.holders id sibling stored live
  have contested : placeOf fold was = placeOf fold known.2 := held.trans (place.trans same)
  have apart : source ≠ known.1 := by
    rcases reason with ⟨rfl,-⟩ | ⟨member,-⟩
    · exact other
    · exact mid.apart (mem_append_left rest member)
  have reason : was.trashedAt = none ∨ Returns sight.spot entries was := by
    rcases reason with ⟨-,live⟩ | ⟨-,either⟩
    · exact .inl live
    · exact either
  by_cases out : known.2.trashedAt = none
  · rcases reason with live | returns
    · exact apart (unique _ _ _ _ there present live out contested)
    · exact uncontested.alone _ _ _ _ there present apart.symm returns (.inl out) contested.symm
  · exact uncontested.alone _ _ _ _ present there apart
      ⟨under,Option.isSome_iff_ne_none.mpr out,may.resolve_left out,listed⟩ reason contested

include mid in
theorem Midway.let_go (ended : outcome server sight entries known.1 known.2 = none)
    (unlisted : ¬Listed entries known.2.name) {table : Index} {ids : List String} (member : known.1 ∈ ids)
    (siblings : ∀ id row, state.table.lookup id = some row → row.parentId = sight.spot.folder.id → id ≠ known.1 → id ∉ ids)
    (folder : ∀ folder, sight.spot.folder.id = some folder → folder ∉ ids)
    (lookups : ∀ other, table.lookup other = if other ∈ ids then none else state.table.lookup other)
    (written : after.table = table) (drawn : after.drawn = state.drawn)
    (onDisk : after.onDisk = state.onDisk.filter (fun entry => entry.name ≠ known.2.name)) :
    Midway fold server sight entries before (seen ++ [known]) rest after := by
  subst written
  refine mid.advance onDisk ?_ ?_ ?_ ?_ ?_ (forgotten_unique lookups mid.unique) (mid.rooted.derived (forgotten_derived lookups))
    (forgotten_settled lookups mid.settled folder) ?_ drawn.ge
  · rw [lookups,if_pos member,ended]
  · intro id row stored under other
    rw [lookups,if_neg (siblings id row stored under other),stored]
  · intro id row stored
    exact .inl ⟨row,(forgotten_kept lookups stored).2,.refl row,.inl⟩
  · intro _ entry listed same
    exact absurd ⟨entry,listed,same⟩ unlisted
  · rintro ⟨kept,stays,-⟩
    rw [ended] at stays
    cases stays
  · exact drawn ▸ mid.fresh.derived (forgotten_derived lookups)

include mid unique uncontested in
theorem Midway.visitTrashed (whole : sight.truncated = false) (trashed : known.2.trashedAt.isSome = true) :
    ∃ after, state.visitTrashed fold server sight known.1 known.2 = (after,none) ∧
      Midway fold server sight entries before (seen ++ [known]) rest after := by
  obtain ⟨moment,when⟩ := Option.isSome_iff_exists.mp trashed
  have stored := mid.todo known mem_cons_self
  have here := (mid.stored known (mem_append_right _ mem_cons_self)).2
  have resting (still : outcome server sight entries known.1 known.2 = some known.2) :
      Midway fold server sight entries before (seen ++ [known]) rest (state.delete known.2.name) := by
    refine mid.advance rfl (stored.trans still.symm) (fun _ _ present _ _ => present)
      (fun id row present => .inl ⟨row,present,.refl row,.inl⟩) ?_ (fun _ _ _ => rfl) mid.unique mid.rooted mid.settled mid.fresh le_rfl
    intro live
    rw [when] at live
    cases live
  unfold Comparison.visitTrashed
  simp only
  cases recycled : known.2.recycled with
  | false =>
    refine ⟨_,if_pos rfl,resting ?_⟩
    simp only [outcome,when,recycled]
    split <;> simp_all
  | true =>
    rw [mid.get unique uncontested (.inr recycled)]
    cases found : entries.find? (fun entry => entry.name = known.2.name) with
    | some entry =>
      have listed : Listed entries known.2.name :=
        ⟨entry,mem_of_find?_eq_some found,by simpa using find?_some found⟩
      have free : placeTaken fold state.table known.1 (restored (server.now known.1) known.2) = false := by
        refine Bool.eq_false_iff.mpr (fun taken => ?_)
        obtain ⟨other,sibling,present,differs,live,place⟩ := placeTaken_iff.mp taken
        exact mid.free unique uncontested (.inr recycled) listed present differs live (restored_alike _ _).place place
      have derived : Derived state.table (state.table.insert known.1 (restored (server.now known.1) known.2)) :=
        .insert stored (restored_alike _ _)
      have ran := backFromTheBin_runs fold server stored here.organizationId recycled free
      refine ⟨{state.delete known.2.name with
        table := state.table.insert known.1 (restored (server.now known.1) known.2)
        result := {state.result with restored := state.result.restored + 1}},?_,
        mid.advance rfl ?_ ?_ ?_ ?_ ?_ (mid.unique.insert free) (mid.rooted.derived derived) ?_ (mid.fresh.derived derived)
          le_rfl⟩
      · simp only [Bool.not_true,Bool.false_eq_true,if_false,Option.isSome_some,if_true,Comparison.restoring,
          Comparison.delete,ran]
      · simp [outcome,found,when,recycled]
      · intro id row present _ other
        exact (lookup_insert_ne other).trans present
      · intro id row present
        simp only [lookup_insert_eq] at present
        split_ifs at present with same
        · cases present
          exact .inl ⟨known.2,same ▸ stored,restored_alike _ _,fun _ => .inr ⟨same,⟨here,trashed,recycled,listed⟩⟩⟩
        · exact .inl ⟨row,present,.refl row,.inl⟩
      · intro live
        rw [when] at live
        cases live
      · exact fun _ id other => lookup_insert_ne other
      · intro folder named
        simp only [lookup_insert_eq]
        split_ifs
        · rfl
        · exact mid.settled folder named
    | none =>
      cases kept : sight.bin.contains known.2.name with
      | true =>
        refine ⟨_,?_,resting ?_⟩
        · simp only [Bool.not_true,Bool.false_eq_true,if_false,Option.isSome_none,whole,if_true]
        · simp only [outcome,found,when,kept,Bool.not_true,Bool.and_false,Bool.false_eq_true,if_false]
      | false =>
        obtain ⟨ids,grown,member,siblings,folder⟩ := mid.subtree
        obtain ⟨table,result,ran,lookups⟩ := @forgetting_spec sight (state.delete known.2.name) ids known.1 grown
        refine ⟨{state.delete known.2.name with table := table, result := result},?_,
          mid.let_go ?_ ?_ member siblings folder lookups rfl rfl rfl⟩
        · simp only [Bool.not_true,Bool.false_eq_true,if_false,Option.isSome_none,whole]
          exact ran
        · simp only [outcome,found,when,recycled,kept,Bool.not_false,Bool.and_true,if_true]
        · rintro ⟨entry,listed,same⟩
          simpa [same] using find?_eq_none.mp found entry listed

include mid unique uncontested in
theorem Midway.visitLive (whole : sight.truncated = false) (live : known.2.trashedAt = none)
    (distinct : (entries.map DirEntryInfo.name).Nodup) (proper : ∀ entry ∈ entries, nameComponent entry.name = true) :
    ∃ after, state.visitLive fold server sight known.1 known.2 = (after,none) ∧
      Midway fold server sight entries before (seen ++ [known]) rest after := by
  have stored := mid.todo known mem_cons_self
  have here := (mid.stored known (mem_append_right _ mem_cons_self)).2
  obtain ⟨ids,grown,member,siblings,folder⟩ := mid.subtree
  have got := mid.get unique uncontested (.inl live)
  unfold Comparison.visitLive
  rw [got]
  cases found : entries.find? (fun entry => entry.name = known.2.name) with
  | none =>
    have unlisted : ¬Listed entries known.2.name := by
      rintro ⟨entry,listed,same⟩
      simpa [same] using find?_eq_none.mp found entry listed
    have untouched := filter_absent (got.trans found)
    simp only [whole,Bool.false_eq_true,if_false]
    cases kept : sight.bin.contains known.2.name with
    | true =>
      obtain ⟨table,result,ran,lookups⟩ := @binning_spec server sight state ids known.1 grown
      have origin (id : String) (row : IndexRow) (present : table.lookup id = some row) :
          ∃ was, state.table.lookup id = some was ∧ Alike was row ∧ (row.trashedAt = none → was.trashedAt = none) := by
        rw [lookups] at present
        obtain ⟨was,there,rfl⟩ := Option.map_eq_some_iff.mp present
        refine ⟨was,there,?_⟩
        split_ifs
        · exact ⟨binned_alike _ _,nofun⟩
        · exact ⟨.refl was,fun out => out⟩
      have derived : Derived state.table table := fun id row present =>
        (origin id row present).imp (fun _ both => ⟨both.1,both.2.1⟩)
      refine ⟨_,ran,mid.advance untouched ?_ ?_ ?_ ?_ ?_ ?_ (mid.rooted.derived derived) ?_ (mid.fresh.derived derived) le_rfl⟩
      · simp only [lookups,stored,Option.map_some,member,live,and_self,if_true,outcome,found,kept]
      · intro id row present under other
        simp [lookups,present,siblings id row present under other]
      · intro id row present
        obtain ⟨was,there,alike,out⟩ := origin id row present
        exact .inl ⟨was,there,alike,fun now => .inl (out now)⟩
      · intro _ entry listed same
        exact absurd ⟨entry,listed,same⟩ unlisted
      · rintro ⟨row,stays,out⟩
        simp only [outcome,found,live,kept,if_true,Option.some.injEq] at stays
        have now := out live
        rw [← stays] at now
        cases now
      · refine mid.unique.derived (fun id row present out => ?_)
        obtain ⟨was,there,alike,before'⟩ := origin id row present
        exact ⟨was,there,before' out,alike.place.symm⟩
      · intro folder' named
        rw [lookups,Option.isSome_map]
        exact mid.settled folder' named
    | false =>
      obtain ⟨table,result,ran,lookups⟩ := @forgetting_spec sight state ids known.1 grown
      refine ⟨_,ran,mid.let_go ?_ unlisted member siblings folder lookups rfl rfl untouched⟩
      simp only [outcome,found,live,kept,Bool.false_eq_true,if_false]
  | some entry =>
    have listed := mem_of_find?_eq_some found
    have named : entry.name = known.2.name := by simpa using find?_some found
    have only : ∀ other ∈ entries, other.name = known.2.name → other = entry :=
      fun other member same => inj_on_of_nodup_map distinct member listed (same.trans named.symm)
    simp only
    by_cases differs : known.2.kind ≠ kindOf entry
    · rw [if_pos differs]
      obtain ⟨table,result,ran,lookups⟩ := @forgetting_spec sight (state.delete known.2.name) ids known.1 grown
      rw [ran]
      simp only
      have settled := forgotten_settled lookups mid.settled folder
      have fresh := mid.fresh.derived (forgotten_derived lookups)
      have mark := mid.undrawn state.drawn le_rfl
      obtain ⟨onDisk,drawn,⟨refused,-⟩ | ⟨admitted,written⟩⟩ := remembering_spec fold server sight
        {state.delete known.2.name with table := table, result := result} entry
      · exfalso
        rcases refused with odd | ⟨parentId,above,missing⟩ | taken
        · rw [proper entry listed] at odd
          cases odd
        · have present := settled parentId above
          rw [missing] at present
          cases present
        · obtain ⟨other,sibling,present,-,out,place⟩ := placeTaken_iff.mp taken
          obtain ⟨outside,there⟩ := forgotten_kept lookups present
          refine mid.free unique uncontested (.inl live) ⟨entry,listed,named⟩ there ?_ out (rowOf_place here named) place
          rintro rfl
          exact outside member
      · refine ⟨_,rfl,mid.advance onDisk ?_ ?_ ?_ ?_ ?_ ?_ ?_ ?_ ?_ (by rw [drawn]; exact Nat.le_succ _)⟩
        · rw [written,lookup_insert_eq,if_neg,lookups,if_pos member]
          · simp only [outcome,found,live]
            rw [if_pos differs]
          · exact mid.fresh.stored_ne stored le_rfl
        · intro id row present under other
          rw [written,lookup_insert_eq,if_neg,lookups,if_neg (siblings id row present under other)]
          · exact present
          · exact mid.fresh.stored_ne present le_rfl
        · intro id row present
          rw [written,lookup_insert_eq] at present
          split_ifs at present with same
          · cases present
            exact .inr ⟨same ▸ mark,live,entry,listed,named,differs,rfl⟩
          · exact .inl ⟨row,(forgotten_kept lookups present).2,.refl row,.inl⟩
        · intro _ other member same _
          rw [only other member same,written]
          exact ⟨_,mark,lookup_insert _⟩
        · rintro ⟨kept,stays,-⟩
          simp only [outcome,found,live] at stays
          rw [if_pos differs] at stays
          cases stays
        · rw [written]
          refine (forgotten_unique lookups mid.unique).insert (Bool.eq_false_iff.mpr (fun taken => ?_))
          exact admitted (.inr (.inr taken))
        · rw [written]
          exact (mid.rooted.derived (forgotten_derived lookups)).remember fresh settled
        · rw [written]
          intro folder' above
          rw [lookup_insert_eq]
          split_ifs
          · rfl
          · exact settled folder' above
        · rw [written,drawn]
          exact fresh.remember (fun _ => fresh.folder_ne settled)
    · rw [if_neg differs]
      obtain ⟨-,drawn,onDisk⟩ := refreshing_frame server sight (state.delete known.2.name) known.1 known.2 entry
      have lookups := @refreshing_spec server sight (state.delete known.2.name) known.1 known.2 entry stored
      have origin (id : String) (row : IndexRow) (present :
          ((state.delete known.2.name).refreshing server sight known.1 known.2 entry).table.lookup id = some row) :
          ∃ was, state.table.lookup id = some was ∧ Alike was row ∧ (row.trashedAt = none → was.trashedAt = none) := by
        rw [lookups] at present
        split_ifs at present with same idle
        · cases present
          exact ⟨known.2,same ▸ stored,.refl _,fun out => out⟩
        · cases present
          exact ⟨known.2,same ▸ stored,refreshed_alike _ _ _,fun _ => live⟩
        · exact ⟨row,present,.refl row,fun out => out⟩
      have derived : Derived state.table
          ((state.delete known.2.name).refreshing server sight known.1 known.2 entry).table := fun id row present =>
        (origin id row present).imp (fun _ both => ⟨both.1,both.2.1⟩)
      refine ⟨_,rfl,mid.advance onDisk ?_ ?_ ?_ ?_ ?_ ?_ (mid.rooted.derived derived) ?_ ?_ drawn.ge⟩
      · rw [lookups,if_pos rfl]
        simp only [outcome,found,live]
        rw [if_neg differs]
      · intro id row present _ other
        rw [lookups,if_neg other]
        exact present
      · intro id row present
        obtain ⟨was,there,alike,out⟩ := origin id row present
        exact .inl ⟨was,there,alike,fun now => .inl (out now)⟩
      · intro _ other member same differs'
        rw [only other member same] at differs'
        exact absurd differs' differs
      · intro _ id other
        rw [lookups,if_neg other]
        rfl
      · refine mid.unique.derived (fun id row present out => ?_)
        obtain ⟨was,there,alike,kept⟩ := origin id row present
        exact ⟨was,there,kept out,alike.place.symm⟩
      · intro folder' above
        rw [lookups]
        split_ifs
        · rfl
        · rfl
        · exact mid.settled folder' above
      · rw [drawn]
        exact mid.fresh.derived derived

end Visits

section Loops

theorem Midway.visitAll (mid : Midway fold server sight entries before seen rest state) (unique : Unique fold before)
    (uncontested : Uncontested fold sight.spot entries before) (whole : sight.truncated = false)
    (distinct : (entries.map DirEntryInfo.name).Nodup) (proper : ∀ entry ∈ entries, nameComponent entry.name = true) :
    ∃ after, Comparison.visitAll fold server sight state rest = (after,none) ∧
      Midway fold server sight entries before (seen ++ rest) [] after := by
  induction rest generalizing seen state with
  | nil => exact ⟨state,rfl,by simpa using mid⟩
  | cons known rest ih =>
    have visited : ∃ after, state.visit fold server sight known = (after,none) ∧
        Midway fold server sight entries before (seen ++ [known]) rest after := by
      unfold Comparison.visit
      split
      next trashed => exact mid.visitTrashed unique uncontested whole trashed
      next out => exact mid.visitLive unique uncontested whole (by simpa using out) distinct proper
    obtain ⟨after,ran,mid⟩ := visited
    obtain ⟨final,ends,mid⟩ := ih mid
    refine ⟨final,?_,by simpa using mid⟩
    rw [Comparison.visitAll,ran]
    exact ends

structure Remembered (fold : String → String) (server : Server) (spot : Spot) (left : List DirEntryInfo)
    (state after : Comparison) : Prop where
  kept : ∀ id row, state.table.lookup id = some row → after.table.lookup id = some row
  made : ∀ id row, after.table.lookup id = some row → state.table.lookup id = none →
    (∃ next, state.drawn ≤ next ∧ id = server.newId next) ∧ ∃ entry ∈ left, row = rowOf spot entry
  held : ∀ entry ∈ left, ∃ id row, after.table.lookup id = some row ∧ row.trashedAt = none ∧
    placeOf fold row = placeOf fold (rowOf spot entry)
  unique : Unique fold after.table
  rooted : Rooted spot after.table

theorem rememberAll_spec (left : List DirEntryInfo) (state : Comparison) (proper : ∀ entry ∈ left, nameComponent entry.name = true)
    (unique : Unique fold state.table) (rooted : Rooted sight.spot state.table) (settled : Settled sight.spot state.table)
    (fresh : Fresh server state.drawn state.table) : Remembered fold server sight.spot left state
      (left.foldl (fun state entry => state.remembering fold server sight entry) state) := by
  induction left generalizing state with
  | nil =>
    refine ⟨fun _ _ stored => stored,fun _ _ stored absent => ?_,fun entry listed => ?_,unique,rooted⟩
    · rw [foldl_nil,absent] at stored
      cases stored
    · cases listed
  | cons entry left ih =>
    obtain ⟨-,drawn,⟨refused,same⟩ | ⟨admitted,written⟩⟩ := remembering_spec fold server sight state entry
    · have rest := ih (state.remembering fold server sight entry)
        (fun other listed => proper other (mem_cons_of_mem _ listed)) (same ▸ unique) (same ▸ rooted) (same ▸ settled)
        (fun next later => same ▸ fresh next (by omega))
      refine ⟨fun id row stored => rest.kept id row (same ▸ stored),fun id row stored absent => ?_,fun other listed => ?_,
        rest.unique,rest.rooted⟩
      · obtain ⟨⟨next,later,named⟩,source,member,made⟩ := rest.made id row stored (same ▸ absent)
        exact ⟨⟨next,by omega,named⟩,source,mem_cons_of_mem _ member,made⟩
      · rcases mem_cons.mp listed with rfl | later
        · rcases refused with odd | ⟨parentId,above,missing⟩ | taken
          · rw [proper _ mem_cons_self] at odd
            cases odd
          · have present := settled parentId above
            rw [missing] at present
            cases present
          · obtain ⟨id,row,stored,-,out,place⟩ := placeTaken_iff.mp taken
            exact ⟨id,row,rest.kept id row (same ▸ stored),out,place⟩
        · exact rest.held other later
    · have free : placeTaken fold state.table (server.newId state.drawn) (rowOf sight.spot entry) = false :=
        Bool.eq_false_iff.mpr (fun taken => admitted (.inr (.inr taken)))
      have grown (id : String) (row : IndexRow) (stored : state.table.lookup id = some row) :
          (state.remembering fold server sight entry).table.lookup id = some row := by
        rw [written]
        exact (lookup_insert_ne (fresh.stored_ne stored le_rfl)).trans stored
      have rest := ih (state.remembering fold server sight entry)
        (fun other listed => proper other (mem_cons_of_mem _ listed)) (written ▸ unique.insert free)
        (written ▸ rooted.remember fresh settled)
        (fun folder above => by
          obtain ⟨row,stored⟩ := Option.isSome_iff_exists.mp (settled folder above)
          rw [grown folder row stored]
          rfl)
        (by rw [written,drawn]; exact fresh.remember (fun _ => fresh.folder_ne settled))
      refine ⟨fun id row stored => rest.kept id row (grown id row stored),fun id row stored absent => ?_,
        fun other listed => ?_,rest.unique,rest.rooted⟩
      · by_cases new : id = server.newId state.drawn
        · refine ⟨⟨state.drawn,le_rfl,new⟩,entry,mem_cons_self,?_⟩
          have made := rest.kept id (rowOf sight.spot entry) (by rw [written,new]; exact lookup_insert _)
          exact Option.some.inj (stored.symm.trans made)
        · obtain ⟨⟨next,later,named⟩,source,member,made⟩ := rest.made id row stored
            (by rw [written]; exact (lookup_insert_ne new).trans absent)
          exact ⟨⟨next,by omega,named⟩,source,mem_cons_of_mem _ member,made⟩
      · rcases mem_cons.mp listed with rfl | later
        · exact ⟨_,_,rest.kept _ (rowOf sight.spot other) (by rw [written]; exact lookup_insert _),rfl,rfl⟩
        · exact rest.held other later

end Loops

end

section

variable (fold : String → String) (server : Server) (sight : Sight) (entries : List DirEntryInfo) (before : Index)

structure Compared (after : Index) : Prop where
  known : ∀ id row, before.lookup id = some row → Here sight.spot row →
    after.lookup id = outcome server sight entries id row
  others : ∀ id row was, after.lookup id = some row → before.lookup id = some was → Alike was row
  made : ∀ id row, after.lookup id = some row → before.lookup id = none → ∃ entry ∈ entries,
    row = rowOf sight.spot entry ∧ ∀ other was, before.lookup other = some was → Here sight.spot was →
      was.name = entry.name → was.trashedAt = none ∧ was.kind ≠ kindOf entry
  held : ∀ entry ∈ entries, (∃ id row, after.lookup id = some row ∧ Here sight.spot row ∧ row.name = entry.name ∧
      (row.trashedAt = none ∧ row.kind = kindOf entry ∨ row.trashedAt.isSome = true ∧ row.recycled = false)) ∨
    ∃ id row, after.lookup id = some row ∧ row.trashedAt = none ∧ placeOf fold row = placeOf fold (rowOf sight.spot entry)
  still : (∀ id row, before.lookup id = some row → Here sight.spot row → Stays server sight entries id row) →
    ∀ id row, before.lookup id = some row → ¬Here sight.spot row → after.lookup id = some row
  unique : Unique fold after
  rooted : Rooted sight.spot after
  settled : Settled sight.spot after

end

section

variable {fold : String → String} {server : Server} {sight : Sight} {entries : List DirEntryInfo} {before : Index}

theorem mem_rowsUnder {known : String × IndexRow} : known ∈ rowsUnder server before sight.spot ↔
    before.lookup known.1 = some known.2 ∧ Here sight.spot known.2 := by
  obtain ⟨id,row⟩ := known
  rw [rowsUnder,(server.arranged _).mem_iff,mem_filter,mem_rows]
  simp only [Bool.and_eq_true,decide_eq_true_eq]
  exact and_congr_right (fun _ => ⟨fun told => ⟨told.1.1,told.1.2,told.2⟩,fun here => ⟨⟨here.1,here.2⟩,here.3⟩⟩)

theorem Midway.start {drawn : Nat} {result : ReconcileResult} {queue : Option (List Folder)} {seen : Option (List String)}
    (unique : Unique fold before) (rooted : Rooted sight.spot before) (settled : Settled sight.spot before)
    (fresh : Fresh server drawn before) : Midway fold server sight entries before [] (rowsUnder server before sight.spot)
      ⟨before,drawn,entries,result,queue,seen⟩ := by
  refine ⟨?_,fun known member => mem_rowsUnder.mp member,?_,fun known member => (mem_rowsUnder.mp member).1,nofun,?_,?_,
    nofun,?_,fun _ _ _ => rfl,unique,rooted,settled,fresh,fun next later => (fresh next later).1⟩
  · rw [nil_append,rowsUnder]
    refine ((server.arranged _).map Prod.fst).nodup_iff.mpr (before.rows_nodup.sublist ?_)
    exact filter_sublist.map Prod.fst
  · simp
  · intro id row was stored present
    cases stored.symm.trans present
    exact .refl row
  · intro id row stored absent
    rw [absent] at stored
    cases stored
  · exact fun id row stored live => ⟨id,row,stored,rfl,.inl ⟨rfl,live⟩⟩

theorem find_entry {entry : DirEntryInfo} {name : String} (distinct : (entries.map DirEntryInfo.name).Nodup)
    (listed : entry ∈ entries) (named : entry.name = name) :
    entries.find? (fun entry => entry.name = name) = some entry := by
  cases found : entries.find? (fun entry => entry.name = name) with
  | none => simpa [named] using find?_eq_none.mp found entry listed
  | some other =>
    have same : other.name = name := by simpa using find?_some found
    exact congrArg some (inj_on_of_nodup_map distinct (mem_of_find?_eq_some found) listed (same.trans named.symm))

section

variable {middle after : Comparison}

private theorem Midway.compared (mid : Midway fold server sight entries before (rowsUnder server before sight.spot) [] middle)
    (filled : Remembered fold server sight.spot middle.onDisk middle after) (unique : Unique fold before)
    (distinct : (entries.map DirEntryInfo.name).Nodup) (uncontested : Uncontested fold sight.spot entries before) :
    Compared fold server sight entries before after.table := by
  have earlier (id : String) (row : IndexRow) (found : after.table.lookup id = some row)
      (known : before.lookup id ≠ none) : middle.table.lookup id = some row := by
    cases stored : middle.table.lookup id with
    | some old => rw [← found,filled.kept id old stored]
    | none =>
      obtain ⟨⟨next,later,rfl⟩,-⟩ := filled.made id row found stored
      exact absurd (mid.undrawn next later) known
  refine ⟨fun id row stored here => ?_,fun id row was found stored => ?_,fun id row found absent => ?_,fun entry listed => ?_,
    fun stay id row stored away => ?_,filled.unique,filled.rooted,fun folder above => ?_⟩
  · have done := mid.done (id,row) (mem_rowsUnder.mpr ⟨stored,here⟩)
    cases became : outcome server sight entries id row with
    | some kept => exact filled.kept id kept (done.trans became)
    | none =>
      cases found : after.table.lookup id with
      | none => rfl
      | some other =>
        have kept := earlier id other found (by simp [stored])
        rw [done.trans became] at kept
        cases kept
  · exact mid.others id row was (earlier id row found (by simp [stored])) stored
  · cases stored : middle.table.lookup id with
    | some old =>
      cases found.symm.trans (filled.kept id old stored)
      obtain ⟨known,member,live,entry,listed,named,differs,made⟩ := mid.made id row stored absent
      obtain ⟨there,under⟩ := mem_rowsUnder.mp member
      refine ⟨entry,listed,made,fun other was present here same => ?_⟩
      have alone := sole unique uncontested there present under here (same.trans named) ⟨entry,listed,named⟩ (.inl live)
      subst alone
      cases there.symm.trans present
      exact ⟨live,differs⟩
    | none =>
      obtain ⟨-,entry,left,made⟩ := filled.made id row found stored
      rw [mid.onDisk,mem_filter,decide_eq_true_eq] at left
      refine ⟨entry,left.1,made,fun other was present here same => absurd ?_ left.2⟩
      exact mem_map.mpr ⟨(other,was),mem_rowsUnder.mpr ⟨present,here⟩,same⟩
  · by_cases taken : ∃ known ∈ rowsUnder server before sight.spot, known.2.name = entry.name
    · refine .inl ?_
      obtain ⟨known,member,same⟩ := taken
      obtain ⟨stored,here⟩ := mem_rowsUnder.mp member
      have found := find_entry distinct listed same.symm
      have became := mid.done known member
      rw [outcome,found] at became
      cases when : known.2.trashedAt with
      | none =>
        simp only [when] at became
        by_cases differs : known.2.kind ≠ kindOf entry
        · obtain ⟨id,-,made⟩ := mid.replaced known member when entry listed same.symm differs
          exact ⟨id,_,filled.kept id _ made,⟨rfl,rfl,rfl⟩,rfl,.inl ⟨rfl,rfl⟩⟩
        · rw [if_neg differs] at became
          refine ⟨known.1,_,filled.kept _ _ became,?_⟩
          split_ifs
          · exact ⟨here,same,.inl ⟨when,not_not.mp differs⟩⟩
          · exact ⟨⟨here.1,here.2,here.3⟩,same,.inl ⟨when,not_not.mp differs⟩⟩
      | some moment =>
        simp only [when] at became
        refine ⟨known.1,_,filled.kept _ _ became,?_⟩
        cases recycled : known.2.recycled with
        | true =>
          have returns : Returns sight.spot entries known.2 := ⟨here,by simp [when],recycled,⟨entry,listed,same.symm⟩⟩
          exact ⟨⟨here.1,here.2,here.3⟩,same,.inl ⟨rfl,uncontested.faithful _ _ stored returns entry listed same.symm⟩⟩
        | false => exact ⟨here,same,.inr ⟨by simp [when],recycled⟩⟩
    · have left : entry ∈ middle.onDisk := by
        rw [mid.onDisk,mem_filter,decide_eq_true_eq]
        refine ⟨listed,fun named => taken ?_⟩
        obtain ⟨known,member,same⟩ := mem_map.mp named
        exact ⟨known,member,same⟩
      exact .inr (filled.held entry left)
  · refine filled.kept id row ?_
    rw [mid.still (fun known member => ?_) id (fun member => ?_)]
    · exact stored
    · obtain ⟨present,here⟩ := mem_rowsUnder.mp member
      exact stay known.1 known.2 present here
    · obtain ⟨known,listed,rfl⟩ := mem_map.mp member
      obtain ⟨present,here⟩ := mem_rowsUnder.mp listed
      cases stored.symm.trans present
      exact away here
  · obtain ⟨row,stored⟩ := Option.isSome_iff_exists.mp (mid.settled folder above)
    rw [filled.kept folder row stored]
    rfl

end

theorem compare_complete {drawn : Nat} (result : ReconcileResult) (queue : Option (List Folder))
    (seen : Option (List String)) (unique : Unique fold before) (rooted : Rooted sight.spot before)
    (settled : Settled sight.spot before) (fresh : Fresh server drawn before)
    (distinct : (entries.map DirEntryInfo.name).Nodup) (proper : ∀ entry ∈ entries, nameComponent entry.name = true)
    (uncontested : Uncontested fold sight.spot entries before) (whole : sight.truncated = false) :
    ∃ after, compare fold server sight entries before drawn result queue seen = (after,none) ∧
      Compared fold server sight entries before after.table := by
  have start := @Midway.start fold server sight entries before drawn result queue seen unique rooted settled fresh
  obtain ⟨middle,ran,mid⟩ := start.visitAll unique uncontested whole distinct proper
  rw [nil_append] at mid
  have unlisted (entry : DirEntryInfo) (left : entry ∈ middle.onDisk) : entry ∈ entries := by
    rw [mid.onDisk] at left
    exact mem_of_mem_filter left
  have filled := rememberAll_spec middle.onDisk middle
    (fun entry left => proper entry (unlisted entry left)) mid.unique mid.rooted mid.settled mid.fresh
  refine ⟨middle.rememberAll fold server sight,?_,?_⟩
  · rw [compare,ran]
  · exact mid.compared filled unique distinct uncontested

end

end Depsis.Files.Indexer

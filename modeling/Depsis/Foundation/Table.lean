import Mathlib.Data.List.AList
import Mathlib.Data.List.Perm.Subperm

/-! Finite tables with one row for each key. Mathlib's association lists carry
the uniqueness of the keys; this module adds the row-wise operations that
databases and hash maps have and the association lists lack.
-/
abbrev Depsis.Foundation.Table (Key Row : Type*) := AList (fun _ : Key => Row)

namespace AList

open List AList Option

open Depsis.Foundation (Table)

variable {Key Row : Type*}

def rows (table : Table Key Row) : List (Key × Row) :=
  table.entries.map (fun entry => (entry.1,entry.2))

def size (table : Table Key Row) : Nat := table.entries.length

def any (test : Key → Row → Bool) (table : Table Key Row) : Bool :=
  table.rows.any (fun row => test row.1 row.2)

def all (test : Key → Row → Bool) (table : Table Key Row) : Bool :=
  table.rows.all (fun row => test row.1 row.2)

def retain (test : Key → Row → Bool) (table : Table Key Row) : Table Key Row where
  entries := table.entries.filter (fun entry => test entry.1 entry.2)
  nodupKeys := List.NodupKeys.sublist filter_sublist table.nodupKeys

def mapRows (change : Key → Row → Row) (table : Table Key Row) : Table Key Row where
  entries := table.entries.map (fun entry => ⟨entry.1,change entry.1 entry.2⟩)
  nodupKeys := by
    have keys : (table.entries.map (fun entry => (⟨entry.1,change entry.1 entry.2⟩ : Sigma fun _ : Key => Row))).keys =
        table.entries.keys := by simp [List.keys]
    rw [List.NodupKeys,keys]
    exact table.nodupKeys

theorem rows_nodup (table : Table Key Row) : (table.rows.map Prod.fst).Nodup := by
  have keys := table.keys_nodup
  simpa [rows,AList.keys,List.keys,Function.comp_def] using keys

theorem size_retain_le (test : Key → Row → Bool) (table : Table Key Row) :
    (table.retain test).size ≤ table.size :=
  length_filter_le _ _

variable [DecidableEq Key]

variable {key : Key} {row : Row} {rows : List (Key × Row)} {table : Table Key Row}

@[simp] theorem mem_rows :
    (key,row) ∈ table.rows ↔ table.lookup key = some row := by
  rw [← mem_def,mem_lookup_iff]
  simp [rows]

theorem rows_at (table : Table Key Row) (key : Key) :
    table.rows.filter (fun row => row.1 = key) = (table.lookup key).toList.map (fun row => (key,row)) := by
  have only : ∀ entry ∈ table.rows.filter (fun row => row.1 = key), table.lookup key = some entry.2 ∧ entry = (key,entry.2) := by
    rintro ⟨other,row⟩ member
    obtain ⟨stored,same⟩ := mem_filter.mp member
    obtain rfl : other = key := of_decide_eq_true same
    exact ⟨mem_rows.mp stored,rfl⟩
  have distinct : (table.rows.filter (fun row => row.1 = key)).Nodup := (List.Nodup.of_map _ table.rows_nodup).filter _
  cases found : table.rows.filter (fun row => row.1 = key) with
  | nil =>
    cases there : table.lookup key with
    | none => rfl
    | some row =>
      have member : (key,row) ∈ table.rows.filter (fun row => row.1 = key) :=
        mem_filter.mpr ⟨mem_rows.mpr there,decide_eq_true rfl⟩
      rw [found] at member
      cases member
  | cons first rest =>
    rw [found] at only distinct
    obtain ⟨there,same⟩ := only first mem_cons_self
    cases rest with
    | nil => rw [there,same]; rfl
    | cons second rest =>
      obtain ⟨again,also⟩ := only second (mem_cons_of_mem _ mem_cons_self)
      rw [there] at again
      refine absurd ?_ (nodup_cons.mp distinct).1
      rw [same,also,Option.some.inj again]
      exact mem_cons_self

theorem any_iff {test : Key → Row → Bool} :
    table.any test = true ↔ ∃ key row, table.lookup key = some row ∧ test key row = true := by
  simp [any,← mem_rows]

theorem all_iff {test : Key → Row → Bool} :
    table.all test = true ↔ ∀ key row, table.lookup key = some row → test key row = true := by
  simp [all,← mem_rows]

theorem lookup_retain (test : Key → Row → Bool) (table : Table Key Row) (key : Key) :
    (table.retain test).lookup key = (table.lookup key).filter (test key) := by
  apply Option.ext
  intro row
  rw [mem_def.symm.trans mem_lookup_iff,filter_eq_some_iff,
    ← mem_def,mem_lookup_iff]
  simp [retain]

theorem lookup_mapRows (change : Key → Row → Row) (table : Table Key Row) (key : Key) :
    (table.mapRows change).lookup key = (table.lookup key).map (change key) := by
  apply Option.ext
  intro row
  rw [mem_def.symm.trans mem_lookup_iff,map_eq_some_iff]
  simp only [mapRows,List.mem_map,Sigma.mk.injEq,← mem_def,mem_lookup_iff]
  constructor
  · rintro ⟨⟨found,old⟩,member,rfl,changed⟩
    exact ⟨old,member,eq_of_heq changed⟩
  · rintro ⟨old,member,rfl⟩
    exact ⟨⟨key,old⟩,member,rfl,HEq.rfl⟩

theorem size_erase_le (table : Table Key Row) (key : Key) : (table.erase key).size ≤ table.size :=
  (kerase_sublist _ _).length_le

theorem size_insert_le (table : Table Key Row) (key : Key) (row : Row) :
    (table.insert key row).size ≤ (table.erase key).size + 1 := by
  rw [size,entries_insert,length_cons]
  rfl

theorem size_erase_of_lookup
    (found : table.lookup key = some row) : (table.erase key).size + 1 = table.size := by
  have member : key ∈ table.keys :=
    mem_keys.mp (lookup_isSome.mp (by simp [found]))
  have positive := length_pos_of_mem member
  have erased : (table.erase key).keys.length = table.keys.length - 1 := by
    rw [keys_erase]
    exact length_erase_of_mem member
  simp only [AList.keys,List.keys,length_map] at erased positive
  simp only [size]
  omega

theorem entries_erase (table : Table Key Row) (key : Key) : (table.erase key).entries = table.entries.kerase key := rfl

theorem size_retain_insert (test : Key → Row → Bool) (table : Table Key Row) (key : Key) (row : Row) :
    ((table.insert key row).retain test).size = ((table.erase key).retain test).size + if test key row then 1 else 0 := by
  simp only [size,retain,entries_insert,entries_erase,filter_cons]
  split
  next => rfl
  next => rfl

theorem size_retain_erase_le (test : Key → Row → Bool) (table : Table Key Row) (key : Key) :
    ((table.erase key).retain test).size ≤ (table.retain test).size :=
  ((kerase_sublist _ _).filter _).length_le

theorem size_retain_erase {test : Key → Row → Bool}
    (found : table.lookup key = some row) (passes : test key row = true) :
    ((table.erase key).retain test).size + 1 = (table.retain test).size := by
  have inside : (table.retain test).lookup key = some row := by
    rw [lookup_retain,found,filter_some,if_pos passes]
  have same : ((table.erase key).retain test).entries = ((table.retain test).erase key).entries := by
    obtain ⟨entries,distinct⟩ := table
    clear found inside
    simp only [retain,entries_erase]
    induction entries with
    | nil => rfl
    | cons entry rest ih =>
      by_cases here : key = entry.1
      · rw [kerase_cons_eq here]
        have absent : key ∉ (rest.filter (fun entry => test entry.1 entry.2)).keys := by
          intro member
          have later : key ∈ rest.keys := (filter_sublist.map _).subset member
          exact (nodupKeys_cons.mp distinct).1 (here ▸ later)
        rw [filter_cons]
        split
        next => rw [kerase_cons_eq here]
        next => rw [kerase_of_notMem_keys absent]
      · have tail := ih (nodupKeys_cons.mp distinct).2
        rw [kerase_cons_ne here,filter_cons,filter_cons]
        split
        next => rw [kerase_cons_ne here,tail]
        next => exact tail
  rw [← size_erase_of_lookup inside]
  simp only [size,same]

theorem lookup_insert_eq (table : Table Key Row) (key other : Key) (row : Row) :
    (table.insert key row).lookup other = if other = key then some row else table.lookup other := by
  split
  next same => subst same; exact lookup_insert table
  next different => exact lookup_insert_ne different

theorem lookup_insert_cases {other : Key} {stored : Row}
    (found : (table.insert key row).lookup other = some stored) :
    (other = key ∧ stored = row) ∨ (other ≠ key ∧ table.lookup other = some stored) := by
  rw [lookup_insert_eq] at found
  split at found
  next same => exact .inl ⟨same,(Option.some.inj found).symm⟩
  next different => exact .inr ⟨different,found⟩

theorem lookup_erase_eq (table : Table Key Row) (key other : Key) :
    (table.erase key).lookup other = if other = key then none else table.lookup other := by
  split
  next same => subst same; exact lookup_erase _ table
  next different => exact lookup_erase_ne different

theorem lookup_erase_some {other : Key} {stored : Row} (found : (table.erase key).lookup other = some stored) :
    other ≠ key ∧ table.lookup other = some stored := by
  rw [lookup_erase_eq] at found
  exact ite_none_left_eq_some.mp found

theorem size_insert_of_none
    (missing : table.lookup key = none) : (table.insert key row).size = table.size + 1 := by
  have absent : key ∉ table.entries.keys := lookup_eq_none.mp missing
  simp [size,entries_insert,kerase_of_notMem_keys absent]

/-- `new Map(rows)`, or one `set` for each row: a later row replaces an earlier one. -/
def fill (table : Table Key Row) (rows : List (Key × Row)) : Table Key Row :=
  rows.foldl (fun filled row => filled.insert row.1 row.2) table

theorem lookup_fill_of_notMem
    (absent : key ∉ rows.map Prod.fst) : (table.fill rows).lookup key = table.lookup key := by
  induction rows generalizing table with
  | nil => rfl
  | cons row rest ih =>
    obtain ⟨here,later⟩ := not_or.mp (mem_cons.not.mp absent)
    exact (ih later).trans (lookup_insert_ne here)

theorem lookup_fill_of_mem
    (distinct : (rows.map Prod.fst).Nodup) (member : (key,row) ∈ rows) :
    (table.fill rows).lookup key = some row := by
  induction rows generalizing table with
  | nil => cases member
  | cons first rest ih =>
    obtain ⟨apart,distinct⟩ := nodup_cons.mp distinct
    rcases mem_cons.mp member with rfl | later
    · exact (lookup_fill_of_notMem apart).trans (lookup_insert _)
    · exact ih distinct later

theorem lookup_fill_some
    (found : (table.fill rows).lookup key = some row) : (key,row) ∈ rows ∨ table.lookup key = some row := by
  induction rows generalizing table with
  | nil => exact .inr found
  | cons first rest ih =>
    rcases @ih (table.insert first.1 first.2) found with later | before
    · exact .inl (mem_cons_of_mem _ later)
    · rw [lookup_insert_eq] at before
      split at before
      next same =>
        cases before
        exact .inl (same ▸ mem_cons_self)
      next => exact .inr before

theorem lookup_fill_none
    (missing : (table.fill rows).lookup key = none) : table.lookup key = none := by
  induction rows generalizing table with
  | nil => exact missing
  | cons first rest ih =>
    have before := @ih (table.insert first.1 first.2) missing
    rw [lookup_insert_eq] at before
    split at before
    next => cases before
    next => exact before

theorem lookup_fill_agree
    (member : key ∈ rows.map Prod.fst) (agree : ∀ other, (key,other) ∈ rows → other = row) :
    (table.fill rows).lookup key = some row := by
  induction rows generalizing table with
  | nil => cases member
  | cons first rest ih =>
    by_cases later : key ∈ rest.map Prod.fst
    · exact ih later (fun other listed => agree other (mem_cons_of_mem _ listed))
    · rcases mem_cons.mp member with same | listed
      · subst same
        refine (lookup_fill_of_notMem later).trans ((lookup_insert _).trans (congrArg some ?_))
        exact agree first.2 mem_cons_self
      · exact absurd listed later

theorem lookup_fill_find (distinct : (rows.map Prod.fst).Nodup) (key : Key) :
    ((∅ : Table Key Row).fill rows).lookup key = (rows.find? (fun row => row.1 = key)).map Prod.snd := by
  cases found : rows.find? (fun row => row.1 = key) with
  | some row =>
    have same : row.1 = key := by simpa using find?_some found
    exact same ▸ lookup_fill_of_mem distinct (mem_of_find?_eq_some found)
  | none =>
    refine (lookup_fill_of_notMem fun member => ?_).trans (lookup_empty key)
    obtain ⟨row,listed,same⟩ := mem_map.mp member
    exact absurd same (by simpa using find?_eq_none.mp found row listed)

theorem length_le_size {keys : List Key} (distinct : keys.Nodup)
    (stored : ∀ key ∈ keys, (table.lookup key).isSome) : keys.length ≤ table.size := by
  have inside : keys ⊆ table.keys := fun key member =>
    mem_keys.mp (lookup_isSome.mp (stored key member))
  have count := (subperm_of_subset distinct inside).length_le
  simpa [AList.keys,List.keys,size] using count

theorem size_fill (distinct : (rows.map Prod.fst).Nodup)
    (fresh : ∀ key ∈ rows.map Prod.fst, table.lookup key = none) :
    (table.fill rows).size = table.size + rows.length := by
  induction rows generalizing table with
  | nil => rfl
  | cons row rest ih =>
    obtain ⟨apart,distinct⟩ := nodup_cons.mp distinct
    have step := @ih (table.insert row.1 row.2) distinct (fun key member => by
      have different : key ≠ row.1 := fun same => apart (same ▸ member)
      rw [lookup_insert_ne different]
      exact fresh key (mem_cons_of_mem _ member))
    change ((table.insert row.1 row.2).fill rest).size = _
    rw [step,size_insert_of_none (fresh row.1 mem_cons_self),length_cons]
    omega

end AList

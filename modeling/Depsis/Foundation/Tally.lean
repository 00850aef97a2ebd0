import Depsis.Foundation.Table

/-! How many rows of a table pass a test, as single rows are written: the counting that bounds on the
requests under way rest on.
-/
namespace AList

open List

open Depsis.Foundation (Table)

variable {Key Row : Type*}

def tally (test : Key → Row → Bool) (table : Table Key Row) : Nat := (table.retain test).size

theorem tally_add_le {first second third : Key → Row → Bool} (table : Table Key Row)
    (each : ∀ key row, (first key row).toNat + (second key row).toNat ≤ (third key row).toNat) :
    table.tally first + table.tally second ≤ table.tally third := by
  simp only [tally,size,retain]
  induction table.entries with
  | nil => exact Nat.le_refl 0
  | cons entry rest ih =>
    have here := each entry.1 entry.2
    simp only [filter_cons]
    cases one : first entry.1 entry.2 <;> cases two : second entry.1 entry.2 <;> cases three : third entry.1 entry.2 <;>
      simp [one,two,three] at here ⊢ <;> omega

variable [DecidableEq Key] {test : Key → Row → Bool} {table : Table Key Row} {key : Key} {old row : Row}

theorem tally_erase (found : table.lookup key = some old) :
    (table.erase key).tally test + (test key old).toNat = table.tally test := by
  have member : (⟨key,old⟩ : Sigma (fun _ : Key => Row)) ∈ table.entries := AList.mem_lookup_iff.mp found
  obtain ⟨value,front,back,-,split,less⟩ := exists_of_kerase (mem_keys_of_mem member)
  have same : value = old :=
    List.NodupKeys.eq_of_mk_mem table.nodupKeys (split ▸ mem_append_right _ mem_cons_self) member
  subst same
  simp only [tally,size,retain,entries_erase]
  rw [less,split,filter_append,filter_append,filter_cons]
  cases test key value
  · simp
  · simp
    omega

theorem tally_row (table : Table Key Row) (key : Key) (row : Row) :
    (table.insert key row).tally test = (table.erase key).tally test + (test key row).toNat := by
  simp only [tally,size_retain_insert]
  cases test key row <;> rfl

theorem tally_update (found : table.lookup key = some old) :
    (table.insert key row).tally test + (test key old).toNat = table.tally test + (test key row).toNat := by
  have erased : (table.erase key).tally test + (test key old).toNat = table.tally test := tally_erase found
  rw [tally_row]
  omega

theorem erase_missing (missing : table.lookup key = none) : table.erase key = table :=
  AList.ext (kerase_of_notMem_keys (fun member => AList.lookup_eq_none.mp missing member))

theorem tally_insert (missing : table.lookup key = none) :
    (table.insert key row).tally test = table.tally test + (test key row).toNat := by
  rw [tally_row,erase_missing missing]

theorem tally_erase_le (table : Table Key Row) (key : Key) : (table.erase key).tally test ≤ table.tally test :=
  size_retain_erase_le test table key

theorem tally_insert_le (table : Table Key Row) (key : Key) (fails : test key row = false) :
    (table.insert key row).tally test ≤ table.tally test := by
  rw [tally_row,fails]
  exact tally_erase_le table key

variable {Group : Type*} [DecidableEq Group]

def tallyOf (group : Row → Group) (test : Row → Bool) (table : Table Key Row) (id : Group) : Nat :=
  table.tally (fun _ row => group row = id && test row)

variable {group : Row → Group} {check : Row → Bool}

theorem tallyOf_update (found : table.lookup key = some old) (same : group row = group old) (id : Group) :
    (table.insert key row).tallyOf group check id + (if group old = id then (check old).toNat else 0) =
      table.tallyOf group check id + (if group old = id then (check row).toNat else 0) := by
  have moved := @tally_update _ _ _ (fun _ row => group row = id && check row) _ _ _ row found
  unfold tallyOf
  by_cases here : group old = id
  · have there : group row = id := same.trans here
    simpa [here,there] using moved
  · have apart : group row ≠ id := fun there => here (same.symm.trans there)
    simpa [here,apart] using moved

theorem tallyOf_erase (found : table.lookup key = some old) (id : Group) :
    (table.erase key).tallyOf group check id + (if group old = id then (check old).toNat else 0) =
      table.tallyOf group check id := by
  have moved := @tally_erase _ _ _ (fun _ row => group row = id && check row) _ _ _ found
  unfold tallyOf
  by_cases here : group old = id
  all_goals simpa [here] using moved

theorem tallyOf_insert_le (table : Table Key Row) (key : Key) (fails : check row = false) (id : Group) :
    (table.insert key row).tallyOf group check id ≤ table.tallyOf group check id :=
  tally_insert_le table key (by simp [fails])

theorem tallyOf_erase_le (table : Table Key Row) (key : Key) (id : Group) :
    (table.erase key).tallyOf group check id ≤ table.tallyOf group check id :=
  tally_erase_le table key

omit [DecidableEq Key] in
theorem tallyOf_add_le {first second third : Row → Bool} (table : Table Key Row) (id : Group)
    (each : ∀ row, (first row).toNat + (second row).toNat ≤ (third row).toNat) :
    table.tallyOf group first id + table.tallyOf group second id ≤ table.tallyOf group third id := by
  refine tally_add_le table (fun _ row => ?_)
  by_cases here : group row = id
  · simpa [here] using each row
  · simp [here]

end AList

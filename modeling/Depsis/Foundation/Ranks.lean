import Mathlib.Order.Lattice
import Mathlib.Data.List.Basic

/-! The largest elements of a list: the one at a rank says how many lie above a bound.
-/
namespace Depsis.Foundation.Ranks

open List

variable {α : Type*} [LinearOrder α]

def descending (list : List α) : List α := list.mergeSort (fun first second => decide (second ≤ first))

theorem descending_perm (list : List α) : (descending list).Perm list := mergeSort_perm list _

theorem descending_sorted (list : List α) : (descending list).Pairwise (fun first second => second ≤ first) := by
  have sorted := @pairwise_mergeSort α (fun first second => decide (second ≤ first))
    (fun first second third one two => decide_eq_true (le_trans (of_decide_eq_true two) (of_decide_eq_true one)))
    (fun first second => by simpa using le_total second first) list
  exact sorted.imp (fun holds => of_decide_eq_true holds)

theorem sorted_rank {list : List α} (sorted : list.Pairwise (fun first second => second ≤ first)) (rank : Nat) (bound : α) :
    rank < list.countP (fun element => decide (bound < element)) ↔ ∃ element, list[rank]? = some element ∧ bound < element := by
  induction list generalizing rank with
  | nil => simp
  | cons first rest ih =>
    obtain ⟨most,sorted⟩ := pairwise_cons.mp sorted
    rw [countP_cons]
    by_cases above : bound < first
    · rw [if_pos (decide_eq_true above)]
      cases rank with
      | zero => simp [above]
      | succ rank => simpa using ih sorted rank
    · have none' : rest.countP (fun element => decide (bound < element)) = 0 := by
        rw [countP_eq_zero]
        intro element member
        simpa using le_trans (most element member) (not_lt.mp above)
      rw [none',if_neg (by simpa using above)]
      constructor
      · intro less
        exact absurd less (Nat.not_lt_zero _)
      · intro found
        obtain ⟨element,at',over'⟩ := found
        have member := mem_of_getElem? at'
        rcases mem_cons.mp member with rfl | member
        · exact absurd over' above
        · exact absurd (lt_of_lt_of_le over' (most element member)) above

theorem descending_rank (list : List α) (rank : Nat) (bound : α) :
    rank < list.countP (fun element => decide (bound < element)) ↔
      ∃ element, (descending list)[rank]? = some element ∧ bound < element := by
  rw [← sorted_rank (descending_sorted list) rank bound,(descending_perm list).countP_eq]

end Depsis.Foundation.Ranks

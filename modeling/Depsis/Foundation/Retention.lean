import Mathlib.Data.List.Sort

/-! What a rule that keeps the first few of an ordered collection lets go. -/
namespace Depsis.Foundation.Retention

open List

variable {α : Type*} (before : α → α → Prop) [DecidableRel before]

/-- Everything after the first `keep`, the last of the order first. -/
def surplus (keep : Nat) (items : List α) : List α := ((items.insertionSort before).drop keep).reverse

variable {keep : Nat} {items : List α} {item : α}

theorem mem_of_mem_surplus (surplusOne : item ∈ surplus before keep items) : item ∈ items :=
  (mem_insertionSort before).mp (mem_of_mem_drop (mem_reverse.mp surplusOne))

theorem length_surplus (keep : Nat) (items : List α) : (surplus before keep items).length = items.length-keep := by
  simp [surplus]

theorem nodup_surplus (distinct : items.Nodup) : (surplus before keep items).Nodup :=
  nodup_reverse.mpr (((perm_insertionSort before items).nodup_iff.mpr distinct).sublist (drop_sublist _ _))

variable [DecidableEq α]

def ahead (items : List α) (item : α) : Nat :=
  (items.filter (fun other => before other item ∧ other ≠ item)).length

/-- In a list that is in order, whatever comes after the first `keep` has that many ahead of it. -/
private theorem ahead_of_mem_drop {sorted : List α} (ordered : sorted.Pairwise before) (distinct : sorted.Nodup)
    (member : item ∈ sorted.drop keep) : keep ≤ ahead before sorted item := by
  induction sorted generalizing keep with
  | nil => simp at member
  | cons head rest ih =>
    cases keep with
    | zero => exact Nat.zero_le _
    | succ keep =>
      rw [drop_succ_cons] at member
      obtain ⟨least,ordered⟩ := pairwise_cons.mp ordered
      obtain ⟨absent,distinct⟩ := nodup_cons.mp distinct
      have inRest : item ∈ rest := mem_of_mem_drop member
      have apart : head ≠ item := fun same => absent (same ▸ inRest)
      have counted : ahead before (head::rest) item = ahead before rest item+1 := by
        simp [ahead,least item inRest,apart]
      rw [counted]
      exact Nat.succ_le_succ (ih ordered distinct member)

theorem ahead_of_mem_surplus [Std.Total before] [IsTrans α before] (distinct : items.Nodup)
    (surplusOne : item ∈ surplus before keep items) : keep ≤ ahead before items item := by
  have sorted := perm_insertionSort before items
  have count := ahead_of_mem_drop before (pairwise_insertionSort before items) (sorted.nodup_iff.mpr distinct)
    (mem_reverse.mp surplusOne)
  rwa [ahead,(sorted.filter _).length_eq] at count

theorem length_kept (distinct : items.Nodup) :
    (items.filter (fun item => item ∉ surplus before keep items)).length = min keep items.length := by
  have split := length_eq_length_filter_add (l := items) (fun item => decide (item ∈ surplus before keep items))
  have gone : (items.filter (fun item => item ∈ surplus before keep items)).Perm (surplus before keep items) := by
    refine (perm_ext_iff_of_nodup (distinct.filter _) (nodup_surplus before distinct)).mpr (fun item => ?_)
    simpa using mem_of_mem_surplus before
  rw [gone.length_eq,length_surplus] at split
  simp only [decide_not]
  omega

end Depsis.Foundation.Retention

import Mathlib.Data.List.Sort
import Mathlib.Order.Basic

/-! A sorted list read in pages whose items are sifted after the cut. The reader
never sees what a page dropped: it goes on after the last item it was given.
-/
namespace Depsis.Foundation.SiftedPages

open List

variable {Item Kept Mark : Type*} [LinearOrder Mark] (key : Item → Mark) (keep : Item → Option Kept)

def behind (items : List Item) : Option Mark → List Item
  | none => items
  | some mark => items.filter (fun item => decide (mark < key item))

def page (size : Nat) (items : List Item) (after : Option Mark) : List Kept × Bool :=
  (((behind key items after).take size).filterMap keep,decide (size < (behind key items after).length))

variable {key keep}

theorem behind_append {front back : List Item} {item : Item}
    (ordered : (front ++ item::back).Pairwise (fun first second => key first < key second)) :
    behind key (front ++ item::back) (some (key item)) = back := by
  obtain ⟨-,tail,across⟩ := pairwise_append.mp ordered
  have before : front.filter (fun other => decide (key item < key other)) = [] := by
    refine filter_eq_nil_iff.mpr (fun other member => ?_)
    simpa using (across other member item mem_cons_self).le
  have after : back.filter (fun other => decide (key item < key other)) = back :=
    filter_eq_self.mpr (fun other member => decide_eq_true ((pairwise_cons.mp tail).1 other member))
  simp [behind,before,after]

theorem behind_sublist (items : List Item) (after : Option Mark) : (behind key items after).Sublist items := by
  cases after with
  | none => exact List.Sublist.refl _
  | some mark => exact filter_sublist

theorem behind_behind {items : List Item} {after : Option Mark} {item : Item}
    (member : item ∈ behind key items after) :
    behind key (behind key items after) (some (key item)) = behind key items (some (key item)) := by
  cases after with
  | none => rfl
  | some mark =>
    have past : mark < key item := of_decide_eq_true (mem_filter.mp member).2
    simp only [behind,filter_filter]
    refine filter_congr (fun other _ => ?_)
    by_cases later : key item < key other
    · simp [later,past.trans later]
    · simp [later]

theorem page_next {size : Nat} {items : List Item} {after : Option Mark} {last : Kept} {mark : Mark}
    (ordered : items.Pairwise (fun first second => key first < key second))
    (marks : ∀ item, keep item = some last → key item = mark)
    (kept : (page key keep size items after).1.getLast? = some last) :
    (behind key items after).filterMap keep =
      (page key keep size items after).1 ++ (behind key items (some mark)).filterMap keep := by
  obtain ⟨front,written⟩ := getLast?_eq_some_iff.mp kept
  change ((behind key items after).take size).filterMap keep = _ at written
  obtain ⟨before,after',cut,-,ended⟩ := filterMap_eq_append_iff.mp written
  obtain ⟨skipped,item,rest,split,dropped,found,silent⟩ := filterMap_eq_cons_iff.mp ended
  have parts := take_append_drop size (behind key items after)
  generalize (behind key items after).drop size = left at parts
  have whole : behind key items after = (before ++ skipped) ++ item::(rest ++ left) := by
    rw [← parts,cut,split]
    simp
  have sorted : (behind key items after).Pairwise (fun first second => key first < key second) :=
    ordered.sublist (behind_sublist items after)
  have later : behind key items (some mark) = rest ++ left := by
    have member : item ∈ behind key items after := by rw [whole]; simp
    rw [whole] at sorted
    rw [← marks item found,← behind_behind member,whole]
    exact behind_append sorted
  rw [later,filterMap_append,silent,nil_append]
  conv => lhs; rw [← parts,filterMap_append]
  rfl

theorem page_last {size : Nat} {items : List Item} {after : Option Mark}
    (whole : (page key keep size items after).2 = false) :
    (page key keep size items after).1 = (behind key items after).filterMap keep := by
  have short := not_lt.mp (of_decide_eq_false whole)
  exact congrArg (List.filterMap keep) (take_of_length_le short)

end Depsis.Foundation.SiftedPages

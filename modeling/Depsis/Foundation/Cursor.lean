import Mathlib.Data.List.Basic

/-! Reading a strictly ordered list in pages behind a cursor: each page starts
strictly after the last item of the one before it, and says whether more is left.
-/
namespace Depsis.Foundation.Cursor

open List

variable {Item : Type*} (lt : Item → Item → Bool)

def remaining (items : List Item) : Option Item → List Item
  | none => items
  | some mark => items.filter (fun item => lt mark item)

def page (size : Nat) (items : List Item) (after : Option Item) : List Item × Option Item :=
  let rest := remaining lt items after
  let written := rest.take size
  (written,if written.length < rest.length then written.getLast? else none)

variable {lt}

private theorem filter_past {front back : List Item} {mark : Item}
    (ordered : (front ++ mark::back).Pairwise (fun first second => lt first second = true))
    (irreflexive : ∀ item, lt item item = false)
    (asymmetric : ∀ first second, lt first second = true → lt second first = false) :
    (front ++ mark::back).filter (fun item => lt mark item) = back := by
  obtain ⟨_,tail,across⟩ := pairwise_append.mp ordered
  have before : front.filter (fun item => lt mark item) = [] := by
    refine filter_eq_nil_iff.mpr (fun item member => ?_)
    simp [asymmetric item mark (across item member mark mem_cons_self)]
  have behind : back.filter (fun item => lt mark item) = back :=
    filter_eq_self.mpr (fun item member => (pairwise_cons.mp tail).1 item member)
  rw [filter_append,before,filter_cons,irreflexive,behind]
  rfl

theorem page_next {size : Nat} {items : List Item} {after : Option Item} {mark : Item}
    (ordered : items.Pairwise (fun first second => lt first second = true))
    (irreflexive : ∀ item, lt item item = false)
    (asymmetric : ∀ first second, lt first second = true → lt second first = false)
    (transitive : ∀ first second third, lt first second = true → lt second third = true →
      lt first third = true)
    (next : (page lt size items after).2 = some mark) :
    remaining lt items after = (page lt size items after).1 ++ remaining lt items (some mark) ∧
      0 < (page lt size items after).1.length := by
  simp only [page] at next ⊢
  split at next
  next =>
    obtain ⟨front,written⟩ : ∃ front, (remaining lt items after).take size = front ++ [mark] :=
      getLast?_eq_some_iff.mp next
    have split : remaining lt items after = front ++ mark::(remaining lt items after).drop size := by
      conv => lhs; rw [← take_append_drop size (remaining lt items after),written]
      simp
    have narrowed : remaining lt items (some mark) =
        (remaining lt items after).filter (fun item => lt mark item) := by
      cases after with
      | none => rfl
      | some start =>
        have inside : lt start mark = true := by
          have member : mark ∈ remaining lt items (some start) := by rw [split]; simp
          simpa using (mem_filter.mp member).2
        simp only [remaining,filter_filter]
        refine filter_congr (fun item _ => ?_)
        cases past : lt mark item with
        | false => rfl
        | true => simp [transitive start mark item inside past]
    have sorted : (remaining lt items after).Pairwise (fun first second => lt first second = true) := by
      cases after with
      | none => exact ordered
      | some start => exact ordered.sublist filter_sublist
    have rest : remaining lt items (some mark) = (remaining lt items after).drop size := by
      have past := filter_past (by rw [← split]; exact sorted) irreflexive asymmetric
      rwa [← split,← narrowed] at past
    refine ⟨?_,?_⟩
    · rw [rest,take_append_drop]
    · rw [written]
      simp
  next => cases next

theorem page_last {size : Nat} {items : List Item} {after : Option Item} (room : 0 < size)
    (next : (page lt size items after).2 = none) :
    (page lt size items after).1 = remaining lt items after := by
  simp only [page] at next ⊢
  split at next
  next more =>
    have written := getLast?_eq_none_iff.mp next
    rw [written] at more
    have all : (remaining lt items after).length = 0 ∨ size = 0 := by
      simpa [Nat.min_eq_zero_iff,or_comm] using congrArg List.length written
    simp only [length_nil] at more
    omega
  next whole =>
    rw [length_take] at whole
    exact take_of_length_le (by omega)

section Following

variable {Mark Shown : Type*}

/-- The pages from a cursor on, each asked for with the cursor of the one before it, if they end in time. -/
def follow (fetch : Option Mark → List Shown × Option Mark) : Nat → Option Mark → Option (List Shown)
  | 0,_ => none
  | left + 1,after =>
    match fetch after with
    | (written,none) => some written
    | (written,some mark) => (follow fetch left (some mark)).map (written ++ ·)

/-- Pages whose cursors stand for their last items are the whole list, in order and once each. -/
theorem follow_complete {fetch : Option Mark → List Shown × Option Mark} {mark : Item → Mark} {shown : Item → Shown}
    {size : Nat} {items : List Item} (room : 0 < size)
    (ordered : items.Pairwise (fun first second => lt first second = true))
    (irreflexive : ∀ item, lt item item = false)
    (asymmetric : ∀ first second, lt first second = true → lt second first = false)
    (transitive : ∀ first second third, lt first second = true → lt second third = true →
      lt first third = true)
    (fetched : ∀ after : Option Item, (∀ item, after = some item → item ∈ items) →
      fetch (after.map mark) = ((page lt size items after).1.map shown,(page lt size items after).2.map mark))
    {left : Nat} {after : Option Item} (known : ∀ item, after = some item → item ∈ items)
    (enough : (remaining lt items after).length < left) :
    follow fetch left (after.map mark) = some ((remaining lt items after).map shown) := by
  induction left generalizing after with
  | zero => exact absurd enough (Nat.not_lt_zero _)
  | succ left ih =>
    rw [follow,fetched after known]
    cases next : (page lt size items after).2 with
    | none =>
      have last := page_last room next
      simp only [Option.map_none]
      rw [last]
    | some item =>
      obtain ⟨split,some'⟩ := page_next ordered irreflexive asymmetric transitive next
      have lengths := congrArg List.length split
      rw [length_append] at lengths
      have within : ∀ other, some item = some other → other ∈ items := by
        intro other same
        cases same
        have listed : item ∈ remaining lt items after := by
          simp only [page] at next
          split at next
          next => exact mem_of_mem_take (mem_of_getLast? next)
          next => cases next
        cases after with
        | none => exact listed
        | some start => exact (mem_filter.mp listed).1
      have rest := ih within (by omega)
      simp only [Option.map_some] at rest ⊢
      rw [rest,split,map_append]
      rfl

end Following

end Depsis.Foundation.Cursor

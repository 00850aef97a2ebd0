import Mathlib.Data.List.Basic

/-! Hierarchical names: what is inside what, by the components between separators. -/
namespace Depsis.Foundation.Components

open List

variable {α : Type*} {separator : α}

theorem intercalate_append (separator : α) {first second : List (List α)} (some : first ≠ []) (more : second ≠ []) :
    [separator].intercalate (first++second) =
      [separator].intercalate first++separator::[separator].intercalate second := by
  induction first with
  | nil => exact absurd rfl some
  | cons head rest ih =>
    cases rest with
    | nil => simp [intercalate_cons_of_ne_nil more]
    | cons next rest =>
      have step := ih (cons_ne_nil _ _)
      rw [cons_append] at step
      rw [cons_append,cons_append,intercalate_cons_cons,step,intercalate_cons_cons]
      simp

variable [DecidableEq α] {inner outer other : List α}

def Within (separator : α) (inner outer : List α) : Prop := outer.splitOn separator <+: inner.splitOn separator

instance : Decidable (Within separator inner outer) := inferInstanceAs (Decidable (_ <+: _))

def Apart (separator : α) (first second : List α) : Prop :=
  ¬Within separator first second ∧ ¬Within separator second first

instance : Decidable (Apart separator inner outer) := inferInstanceAs (Decidable (_ ∧ _))

theorem Within.refl (separator : α) (name : List α) : Within separator name name := prefix_refl _

theorem Within.trans (first : Within separator inner outer) (second : Within separator outer other) :
    Within separator inner other := List.IsPrefix.trans second first

theorem Within.antisymm (first : Within separator inner outer) (second : Within separator outer inner) : inner = outer := by
  have parts : inner.splitOn separator = outer.splitOn separator := second.eq_of_length_le first.length_le
  rw [← @intercalate_splitOn _ inner _ _ separator,parts,intercalate_splitOn]

theorem Within.comparable {name : List α} (first : Within separator name inner) (second : Within separator name outer) :
    Within separator inner outer ∨ Within separator outer inner :=
  (List.prefix_or_prefix_of_prefix first second).symm

theorem Apart.below {name : List α} (apart : Apart separator name outer) (inside : Within separator inner outer) :
    Apart separator name inner := by
  refine ⟨fun under => apart.1 (under.trans inside),fun under => ?_⟩
  rcases inside.comparable under with upward | downward
  · exact apart.2 upward
  · exact apart.1 downward

theorem within_iff : Within separator inner outer ↔ inner = outer ∨ outer++[separator] <+: inner := by
  constructor
  · rintro ⟨more,parts⟩
    by_cases ends : more = []
    · left
      rw [ends,append_nil] at parts
      rw [← @intercalate_splitOn _ inner _ _ separator,← parts,intercalate_splitOn]
    · refine Or.inr ⟨[separator].intercalate more,?_⟩
      rw [← @intercalate_splitOn _ inner _ _ separator,← parts,
        intercalate_append separator (splitOn_ne_nil _ _) ends,intercalate_splitOn]
      simp
  · rintro (rfl | ⟨rest,rfl⟩)
    · exact Within.refl _ _
    · rw [Within,append_assoc,singleton_append,splitOn_append_cons_self]
      exact prefix_append _ _

end Depsis.Foundation.Components

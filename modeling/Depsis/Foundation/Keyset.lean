import Mathlib.Data.List.Sort

/-! Items ordered by one column after another, each in a direction of its own. -/
namespace Depsis.Foundation.Keyset

open List Bool

structure StrictOrder (Key : Type*) where
  before : Key → Key → Bool
  irreflexive : ∀ key, before key key = false
  transitive : ∀ first second third, before first second = true → before second third = true → before first third = true
  total : ∀ first second, before first second = false → before second first = false → first = second

structure Column (Item : Type*) where
  Value : Type
  equal : DecidableEq Value
  order : StrictOrder Value
  value : Item → Value
  descending : Bool

variable {Item : Type*}

namespace Column

variable (column : Column Item)

def before (first second : Item) : Bool :=
  if column.descending then column.order.before (column.value second) (column.value first)
  else column.order.before (column.value first) (column.value second)

def same (first second : Item) : Bool := @decide (column.value first = column.value second) (column.equal _ _)

variable {column} {first second third : Item}

theorem same_iff : column.same first second = true ↔ column.value first = column.value second := by
  simp [same]

theorem before_irreflexive (item : Item) : column.before item item = false := by
  unfold before
  split <;> exact column.order.irreflexive _

theorem before_transitive (one : column.before first second = true) (two : column.before second third = true) :
    column.before first third = true := by
  unfold before at *
  split
  next down =>
    rw [if_pos down] at one two
    exact column.order.transitive _ _ _ two one
  next up =>
    rw [if_neg up] at one two
    exact column.order.transitive _ _ _ one two

theorem same_of_neither (one : column.before first second = false) (two : column.before second first = false) :
    column.same first second = true := by
  refine same_iff.mpr ?_
  unfold before at *
  split at one
  next down =>
    rw [if_pos down] at two
    exact column.order.total _ _ two one
  next up =>
    rw [if_neg up] at two
    exact column.order.total _ _ one two

theorem before_cotransitive (across : column.before first third = true) (second : Item) :
    column.before first second = true ∨ column.before second third = true := by
  by_cases one : column.before first second = true
  · exact .inl one
  · by_cases back : column.before second first = true
    · exact .inr (before_transitive back across)
    · have same := same_iff.mp (same_of_neither (of_not_eq_true one) (of_not_eq_true back))
      unfold before at across ⊢
      rw [← same]
      exact .inr across

theorem before_congr_left (same : column.same first second = true) : column.before first third = column.before second third := by
  unfold before
  rw [same_iff.mp same]

theorem before_congr_right (same : column.same second third = true) : column.before first second = column.before first third := by
  unfold before
  rw [same_iff.mp same]

end Column

def lexicographic : List (Column Item) → Item → Item → Bool
  | [],_,_ => false
  | column::rest,first,second =>
    column.before first second || (column.same first second && lexicographic rest first second)

variable {columns : List (Column Item)} {first second third : Item}

theorem lexicographic_irreflexive (item : Item) : lexicographic columns item item = false := by
  induction columns with
  | nil => rfl
  | cons column rest ih => simp [lexicographic,column.before_irreflexive,ih]

theorem lexicographic_transitive (one : lexicographic columns first second = true)
    (two : lexicographic columns second third = true) : lexicographic columns first third = true := by
  induction columns with
  | nil => cases one
  | cons column rest ih =>
    simp only [lexicographic,or_eq_true,and_eq_true] at one two ⊢
    rcases one with one | ⟨same,one⟩ <;> rcases two with two | ⟨alike,two⟩
    · exact .inl (Column.before_transitive one two)
    · exact .inl ((Column.before_congr_right alike).symm.trans one)
    · exact .inl ((Column.before_congr_left same).trans two)
    · exact .inr ⟨Column.same_iff.mpr ((Column.same_iff.mp same).trans (Column.same_iff.mp alike)),ih one two⟩

theorem lexicographic_asymmetric (one : lexicographic columns first second = true) :
    lexicographic columns second first = false := by
  by_contra other
  have loop := lexicographic_transitive one (of_not_eq_false other)
  rw [lexicographic_irreflexive] at loop
  cases loop

theorem lexicographic_cotransitive (across : lexicographic columns first third = true) (second : Item) :
    lexicographic columns first second = true ∨ lexicographic columns second third = true := by
  induction columns with
  | nil => cases across
  | cons column rest ih =>
    simp only [lexicographic,or_eq_true,and_eq_true] at across ⊢
    rcases across with before | ⟨same,later⟩
    · exact (Column.before_cotransitive before second).imp .inl .inl
    · by_cases one : column.before first second = true
      · exact .inl (.inl one)
      · by_cases back : column.before second first = true
        · exact .inr (.inl ((Column.before_congr_right same).symm.trans back))
        · have alike := Column.same_of_neither (of_not_eq_true one) (of_not_eq_true back)
          have onward : column.same second third = true :=
            Column.same_iff.mpr ((Column.same_iff.mp alike).symm.trans (Column.same_iff.mp same))
          exact (ih later).imp (fun held => .inr ⟨alike,held⟩) (fun held => .inr ⟨onward,held⟩)

theorem same_of_neither (one : lexicographic columns first second = false) (two : lexicographic columns second first = false) :
    ∀ column ∈ columns, column.same first second = true := by
  induction columns with
  | nil => exact fun _ member => absurd member not_mem_nil
  | cons column rest ih =>
    simp only [lexicographic,or_eq_false_iff,and_eq_false_iff] at one two
    have same := Column.same_of_neither one.1 two.1
    have alike : column.same second first = true := Column.same_iff.mpr (Column.same_iff.mp same).symm
    intro other member
    rcases mem_cons.mp member with rfl | later
    · exact same
    · refine ih ?_ ?_ other later
      · exact one.2.resolve_left (by simp [same])
      · exact two.2.resolve_left (by simp [alike])

def sorted (columns : List (Column Item)) (items : List Item) : List Item :=
  items.mergeSort (fun first second => !lexicographic columns second first)

theorem sorted_perm (items : List Item) : (sorted columns items).Perm items := mergeSort_perm _ _

theorem mem_sorted {items : List Item} {item : Item} : item ∈ sorted columns items ↔ item ∈ items :=
  (sorted_perm items).mem_iff

def Told (columns : List (Column Item)) (items : List Item) : Prop :=
  ∀ first ∈ items, ∀ second ∈ items, (∀ column ∈ columns, column.same first second = true) → first = second

theorem sorted_pairwise {items : List Item} (told : Told columns items) (distinct : items.Nodup) :
    (sorted columns items).Pairwise (fun first second => lexicographic columns first second = true) := by
  have weakly : (sorted columns items).Pairwise (fun first second => (!lexicographic columns second first) = true) := by
    refine pairwise_mergeSort (fun first second third one two => ?_) (fun first second => ?_) items
    · by_contra across
      have past : lexicographic columns third first = true := by simpa using across
      rcases lexicographic_cotransitive past second with after | before
      · simp [after] at two
      · simp [before] at one
    · by_cases ahead : lexicographic columns second first = true
      · simp [lexicographic_asymmetric ahead]
      · simp [of_not_eq_true ahead]
  have apart : (sorted columns items).Pairwise (fun first second => first ≠ second) := (sorted_perm items).nodup_iff.mpr distinct
  refine (weakly.and apart).imp_of_mem (fun {first second} left right both => ?_)
  by_contra behind
  refine both.2 (told first (mem_sorted.mp left) second (mem_sorted.mp right) ?_)
  exact same_of_neither (of_not_eq_true behind) (by simpa using both.1)

theorem sorted_filter {items : List Item} (told : Told columns items) (distinct : items.Nodup) (keeps : Item → Bool) :
    sorted columns (items.filter keeps) = (sorted columns items).filter keeps := by
  have perm : (sorted columns (items.filter keeps)).Perm ((sorted columns items).filter keeps) :=
    (sorted_perm _).trans ((sorted_perm items).filter keeps).symm
  have fewer : Told columns (items.filter keeps) := fun first left second right =>
    told first (mem_filter.mp left).1 second (mem_filter.mp right).1
  refine perm.eq_of_pairwise (fun first second _ _ one two => ?_) (sorted_pairwise fewer (distinct.filter keeps)) ?_
  · rw [lexicographic_asymmetric one] at two
    cases two
  · exact (sorted_pairwise told distinct).sublist filter_sublist

end Depsis.Foundation.Keyset

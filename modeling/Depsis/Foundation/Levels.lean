import Mathlib.Data.List.Chain
import Mathlib.Data.List.Nodup
import Mathlib.Logic.Relation

/-! A recursive query: from some rows to the rows right below them, level by level,
with no memory of the rows it has met. It comes to an end where no row lies
below itself.
-/
namespace Depsis.Foundation.Levels

open Relation List Option

variable {Node : Type*} (kids : Node → List Node)

/-- All levels from `working` down, unless `steps` of them are too few. -/
def levels : Nat → List Node → Option (List Node)
  | _,[] => some []
  | 0,_::_ => none
  | steps + 1,first::rest =>
    (levels steps ((first::rest).flatMap kids)).map ((first::rest) ++ ·)

def RightBelow (top node : Node) : Prop := node ∈ kids top

variable {kids} {working all : List Node} {node : Node} {steps : Nat}

theorem mem_levels (ran : levels kids steps working = some all) :
    node ∈ all ↔ ∃ top ∈ working, ReflTransGen (RightBelow kids) top node := by
  induction steps generalizing working all with
  | zero =>
    cases working with
    | nil => cases ran; simp
    | cons first rest => cases ran
  | succ steps ih =>
    cases working with
    | nil => cases ran; simp
    | cons first rest =>
      obtain ⟨deeper,next,rfl⟩ := map_eq_some_iff.mp ran
      rw [mem_append,ih next]
      constructor
      · rintro (here | ⟨child,member,path⟩)
        · exact ⟨node,here,.refl⟩
        · obtain ⟨top,listed,child'⟩ := mem_flatMap.mp member
          exact ⟨top,listed,.head child' path⟩
      · rintro ⟨top,listed,path⟩
        rcases ReflTransGen.cases_head path with rfl | ⟨child,under,path⟩
        · exact .inl listed
        · exact .inr ⟨child,mem_flatMap.mpr ⟨top,listed,under⟩,path⟩

theorem levels_none (stuck : levels kids steps working = none) :
    ∃ top path, top ∈ working ∧ path.length = steps ∧ (top::path).IsChain (RightBelow kids) := by
  induction steps generalizing working with
  | zero =>
    cases working with
    | nil => cases stuck
    | cons first rest => exact ⟨first,[],mem_cons_self,rfl,isChain_singleton first⟩
  | succ steps ih =>
    cases working with
    | nil => cases stuck
    | cons first rest =>
      obtain ⟨child,path,member,long,chain⟩ := ih (map_eq_none_iff.mp stuck)
      obtain ⟨top,listed,under⟩ := mem_flatMap.mp member
      exact ⟨top,child::path,listed,congrArg Nat.succ long,isChain_cons_cons.mpr ⟨under,chain⟩⟩

private theorem chain_below {top : Node} {path : List Node} (chain : (top::path).IsChain (RightBelow kids))
    (member : node ∈ top::path) : ReflTransGen (RightBelow kids) top node := by
  induction path generalizing top with
  | nil => rw [mem_singleton.mp member]
  | cons child path ih =>
    obtain ⟨under,chain⟩ := isChain_cons_cons.mp chain
    rcases mem_cons.mp member with rfl | later
    · exact .refl
    · exact .head under (ih chain later)

theorem levels_ends (nodes : List Node) (listed : ∀ top ∈ working, ∀ node, ReflTransGen (RightBelow kids) top node → node ∈ nodes)
    (acyclic : ∀ top ∈ working, ∀ node, ReflTransGen (RightBelow kids) top node → ¬TransGen (RightBelow kids) node node)
    (enough : nodes.length ≤ steps) : (levels kids steps working).isSome := by
  by_contra stuck
  obtain ⟨top,path,member,long,chain⟩ := levels_none (not_isSome_iff_eq_none.mp stuck)
  have ordered : (top::path).Pairwise (TransGen (RightBelow kids)) :=
    isChain_iff_pairwise.mp (chain.imp (fun _ _ => .single))
  have distinct : (top::path).Nodup := by
    refine List.Pairwise.imp_of_mem (fun {first second} inside _ later same => ?_) ordered
    exact acyclic top member first (chain_below chain inside) (same ▸ later)
  have short := List.Nodup.length_le_of_subset distinct (fun node inside => listed top member node (chain_below chain inside))
  rw [length_cons,long] at short
  omega

theorem levels_succ (steps : Nat) (working : List Node) :
    levels kids (steps+1) working = (levels kids steps (working.flatMap kids)).map (working ++ ·) := by
  cases working with
  | nil => cases steps <;> rfl
  | cons first rest => rfl

theorem levels_append {left right : List Node} (ran : levels kids steps (left ++ right) = some all) :
    ∃ first second, levels kids steps left = some first ∧ levels kids steps right = some second ∧
      all.Perm (first ++ second) := by
  induction steps generalizing left right all with
  | zero =>
    cases left with
    | nil => exact ⟨[],all,rfl,ran,.refl _⟩
    | cons head rest => cases ran
  | succ steps ih =>
    rw [levels_succ,flatMap_append] at ran
    obtain ⟨deeper,next,rfl⟩ := map_eq_some_iff.mp ran
    obtain ⟨first,second,leftRan,rightRan,perm⟩ := ih next
    refine ⟨left ++ first,right ++ second,by rw [levels_succ,leftRan]; rfl,by rw [levels_succ,rightRan]; rfl,?_⟩
    calc left ++ right ++ deeper
        |>.Perm (left ++ right ++ (first ++ second)) := perm.append_left _
      _ = left ++ (right ++ first ++ second) := by simp
      _ |>.Perm (left ++ (first ++ right ++ second)) := (perm_append_comm.append_right _).append_left _
      _ = left ++ first ++ (right ++ second) := by simp

theorem levels_nodup (ran : levels kids steps working = some all) (distinct : working.Nodup)
    (single : ∀ top, (kids top).Nodup) (parent : ∀ first second node, node ∈ kids first → node ∈ kids second → first = second)
    (apart : ∀ first ∈ working, ∀ second ∈ working, ¬TransGen (RightBelow kids) first second) : all.Nodup := by
  induction steps generalizing working all with
  | zero =>
    cases working with
    | nil => cases ran; exact .nil
    | cons first rest => cases ran
  | succ steps ih =>
    rw [levels_succ] at ran
    obtain ⟨deeper,next,rfl⟩ := map_eq_some_iff.mp ran
    refine nodup_append.mpr ⟨distinct,ih next ?_ ?_,fun node here other below same => ?_⟩
    · refine nodup_flatMap.mpr ⟨fun top _ => single top,distinct.imp (fun different => ?_)⟩
      intro node left right
      exact different (parent _ _ node left right)
    · intro first firstMember second secondMember path
      obtain ⟨top,listed,under⟩ := mem_flatMap.mp firstMember
      obtain ⟨other,also,above⟩ := mem_flatMap.mp secondMember
      obtain ⟨last,path,under'⟩ := TransGen.tail'_iff.mp path
      cases parent last other second under' above
      exact apart top listed other also (.head' under path)
    · subst same
      obtain ⟨child,member,path⟩ := (mem_levels next).mp below
      obtain ⟨top,listed,under⟩ := mem_flatMap.mp member
      exact apart top listed node here (.head' under path)

end Depsis.Foundation.Levels

import Mathlib.Data.List.Nodup
import Mathlib.Logic.Relation

/-! Inheritance along a forest: a node without a value of its own has the value
of the nearest node above it that holds one. A walk up a path of the forest
computes it, and it depends on nothing but the nodes at and above.
-/
namespace Depsis.Foundation

open List

variable {Node Value : Type*} {up : Node → Node → Prop} {held : Node → Option Value}

/-- `value` is held by the nearest node at or above that holds any. -/
inductive Inherits (up : Node → Node → Prop) (held : Node → Option Value) : Node → Value → Prop
  | own {node : Node} {value : Value} (here : held node = some value) : Inherits up held node value
  | inherited {node parent : Node} {value : Value} (bare : held node = none) (above : up node parent)
    (rest : Inherits up held parent value) : Inherits up held node value

inductive Path (up : Node → Node → Prop) : List Node → Prop
  | top {node : Node} (root : ∀ parent, ¬up node parent) : Path up [node]
  | step {node parent : Node} {rest : List Node} (above : up node parent) (path : Path up (parent::rest)) :
    Path up (node::parent::rest)

def Forest (up : Node → Node → Prop) : Prop := ∀ node first second, up node first → up node second → first = second

namespace Path

variable {node : Node}

theorem unique (forest : Forest up) {first second : List Node} (left : Path up (node::first))
    (right : Path up (node::second)) : first = second := by
  induction first generalizing node second with
  | nil =>
    cases left with
    | top root =>
      cases right with
      | top => rfl
      | step above => exact absurd above (root _)
  | cons parent rest ih =>
    cases left with
    | step above path =>
      cases right with
      | top root => exact absurd above (root _)
      | step upper again =>
        cases forest _ _ _ above upper
        rw [ih path again]

theorem from_member {nodes : List Node} (path : Path up nodes) (member : node ∈ nodes) :
    ∃ front back, nodes = front ++ node::back ∧ Path up (node::back) := by
  induction path with
  | top root =>
    cases mem_singleton.mp member
    exact ⟨[],[],rfl,.top root⟩
  | @step first parent rest above path ih =>
    rcases mem_cons.mp member with rfl | later
    · exact ⟨[],parent::rest,rfl,.step above path⟩
    · obtain ⟨front,back,split,further⟩ := ih later
      exact ⟨first::front,back,by rw [split]; rfl,further⟩

theorem nodup (forest : Forest up) {nodes : List Node} (path : Path up nodes) : nodes.Nodup := by
  induction path with
  | top => exact nodup_singleton _
  | @step node parent rest above path ih =>
    refine nodup_cons.mpr ⟨fun again => ?_,ih⟩
    obtain ⟨front,back,split,further⟩ := path.from_member again
    have same := unique forest further (.step above path)
    have length := congrArg List.length (same ▸ split)
    simp only [length_append,length_cons] at length
    omega

theorem mem_iff (forest : Forest up) {upper : Node} {rest : List Node} (path : Path up (node::rest)) :
    upper ∈ node::rest ↔ Relation.ReflTransGen up node upper := by
  generalize same : node::rest = nodes at path
  induction path generalizing node rest with
  | top root =>
    cases same
    rw [mem_singleton]
    refine ⟨fun same => same ▸ .refl,fun climbs => ?_⟩
    rcases Relation.ReflTransGen.cases_head climbs with same | ⟨parent,above,_⟩
    · exact same.symm
    · exact absurd above (root parent)
  | step above path ih =>
    cases same
    rw [mem_cons,ih rfl]
    constructor
    · rintro (rfl | climbs)
      · exact .refl
      · exact .head above climbs
    · intro climbs
      rcases Relation.ReflTransGen.cases_head climbs with same | ⟨other,upper,further⟩
      · exact .inl same.symm
      · exact .inr (forest _ _ _ upper above ▸ further)

end Path

namespace Inherits

theorem unique (forest : Forest up) {first second : Value} (left : Inherits up held node first)
    (right : Inherits up held node second) : first = second := by
  induction left with
  | own here =>
    cases right with
    | own again => exact Option.some.inj (here.symm.trans again)
    | inherited bare => rw [bare] at here; cases here
  | inherited bare above _ ih =>
    cases right with
    | own here => rw [bare] at here; cases here
    | inherited _ upper rest => exact ih (forest _ _ _ upper above ▸ rest)

theorem findSome?_iff (forest : Forest up) {rest : List Node} {value : Value}
    (path : Path up (node::rest)) :
    (node::rest).findSome? held = some value ↔ Inherits up held node value := by
  generalize same : node::rest = nodes at path
  induction path generalizing node rest with
  | @top node root =>
    cases same
    simp only [findSome?_cons,findSome?_nil]
    constructor
    · intro found
      split at found
      next here => exact .own (here.trans found)
      next => cases found
    · intro inherits
      cases inherits with
      | own here => simp [here]
      | inherited _ above => exact absurd above (root _)
  | @step node parent rest above path ih =>
    cases same
    rw [findSome?_cons]
    constructor
    · intro found
      split at found
      next here => exact .own (here.trans found)
      next bare => exact .inherited bare above ((ih rfl).mp found)
    · intro inherits
      cases inherits with
      | own here => simp [here]
      | inherited bare upper rest =>
        rw [bare]
        exact (ih rfl).mpr (forest _ _ _ upper above ▸ rest)

theorem congr {other : Node → Option Value} {value : Value}
    (same : ∀ upper, Relation.ReflTransGen up node upper → held upper = other upper)
    (inherits : Inherits up held node value) : Inherits up other node value := by
  induction inherits with
  | own here => exact .own ((same _ .refl).symm.trans here)
  | inherited bare above _ ih =>
    exact .inherited ((same _ .refl).symm.trans bare) above (ih (fun upper climbs => same upper (.head above climbs)))

theorem thin {other : Node → Option Value} {value : Value}
    (fewer : ∀ upper, held upper = none → other upper = none)
    (kept : ∀ upper, held upper = some value → other upper = some value)
    (inherits : Inherits up held node value) : Inherits up other node value := by
  induction inherits with
  | own here => exact .own (kept _ here)
  | inherited bare above _ ih => exact .inherited (fewer _ bare) above (ih kept)

theorem exists_of_thin {other : Node → Option Value} {value : Value}
    (fewer : ∀ upper, held upper = none → other upper = none) (inherits : Inherits up other node value) :
    ∃ nearest, Inherits up held node nearest := by
  induction inherits with
  | @own node _ here =>
    cases own : held node with
    | none => rw [fewer node own] at here; cases here
    | some nearest => exact ⟨nearest,.own own⟩
  | @inherited node _ _ _ above _ ih =>
    cases own : held node with
    | none =>
      obtain ⟨nearest,rest⟩ := ih
      exact ⟨nearest,.inherited own above rest⟩
    | some nearest => exact ⟨nearest,.own own⟩

end Inherits

end Depsis.Foundation

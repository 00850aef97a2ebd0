import Mathlib.Data.List.Basic

/-! Runs of a partial step function, and the rule that turns a step lemma into a
run lemma. A label whose step answers `none` is not enabled and ends the run.
-/
namespace Depsis.Foundation

variable {α : Type*} {guard : Prop} [Decidable guard] {value : α} {some' : Option α}

theorem of_unless (taken : (if guard then none else some') = some value) : ¬guard ∧ some' = some value :=
  Option.ite_none_left_eq_some.mp taken

theorem of_when (taken : (if guard then some' else none) = some value) : guard ∧ some' = some value :=
  Option.ite_none_right_eq_some.mp taken

end Depsis.Foundation

namespace Depsis.Foundation.Machine

variable {State Label : Type*} (step : State → Label → Option State)

def run : State → List Label → Option State
  | state,[] => some state
  | state,label::rest => (step state label).bind (fun next => run next rest)

/-- Every step the run takes meets `admits` in the state it starts from. -/
def Meets (admits : State → Label → Prop) : State → List Label → Prop
  | _,[] => True
  | state,label::rest => admits state label ∧
      match step state label with
      | none => True
      | some next => Meets admits next rest

instance decidableMeets (admits : State → Label → Prop) [∀ state label, Decidable (admits state label)] :
    (state : State) → (labels : List Label) → Decidable (Meets step admits state labels)
  | _,[] => inferInstanceAs (Decidable True)
  | state,label::rest =>
    match taken : step state label with
    | none => decidable_of_iff (admits state label) (by simp [Meets,taken])
    | some next =>
      have := decidableMeets admits next rest
      decidable_of_iff (admits state label ∧ Meets step admits next rest) (by simp [Meets,taken])

@[simp] theorem run_nil (state : State) : run step state [] = some state := rfl

@[simp] theorem run_cons (state : State) (label : Label) (rest : List Label) :
    run step state (label::rest) = (step state label).bind (fun next => run step next rest) := rfl

theorem run_cons_some {state final : State} {label : Label} {rest : List Label}
    (ran : run step state (label::rest) = some final) :
    ∃ next, step state label = some next ∧ run step next rest = some final := by
  simpa [Option.bind_eq_some_iff] using ran

theorem run_append (state : State) (first second : List Label) :
    run step state (first++second) = (run step state first).bind (fun next => run step next second) := by
  induction first generalizing state with
  | nil => rfl
  | cons label rest ih =>
    cases taken : step state label with
    | none => simp [taken]
    | some next => simp [taken,ih]

theorem run_append_some {state middle final : State} {first second : List Label}
    (before : run step state first = some middle) (after : run step middle second = some final) :
    run step state (first++second) = some final := by
  rw [run_append,before,Option.bind_some,after]

theorem meets_cons_some {admits : State → Label → Prop} {state next : State} {label : Label}
    {rest : List Label} (met : Meets step admits state (label::rest))
    (taken : step state label = some next) :
    admits state label ∧ Meets step admits next rest := by
  simpa [Meets,taken] using met

theorem meets_append {admits : State → Label → Prop} {state middle : State}
    {first second : List Label} (met : Meets step admits state (first++second))
    (ran : run step state first = some middle) :
    Meets step admits state first ∧ Meets step admits middle second := by
  induction first generalizing state with
  | nil =>
    cases Option.some.inj ran
    exact ⟨trivial,met⟩
  | cons label rest ih =>
    obtain ⟨next,taken,tail⟩ := run_cons_some step ran
    obtain ⟨here,later⟩ := meets_cons_some step met taken
    obtain ⟨prefixMet,suffixMet⟩ := ih later tail
    exact ⟨by simpa [Meets,taken] using ⟨here,prefixMet⟩,suffixMet⟩

theorem meets_append_of {admits : State → Label → Prop} {state middle : State} {first second : List Label}
    (before : Meets step admits state first) (ran : run step state first = some middle)
    (after : Meets step admits middle second) : Meets step admits state (first++second) := by
  induction first generalizing state with
  | nil =>
    cases Option.some.inj ran
    exact after
  | cons label rest ih =>
    obtain ⟨next,taken,tail⟩ := run_cons_some step ran
    obtain ⟨here,later⟩ := meets_cons_some step before taken
    refine ⟨here,?_⟩
    rw [taken]
    exact ih later tail

theorem meets_of_mem {admits : State → Label → Prop} {labels : List Label}
    (each : ∀ state, ∀ label ∈ labels, admits state label) (state : State) : Meets step admits state labels := by
  induction labels generalizing state with
  | nil => trivial
  | cons label rest ih =>
    refine ⟨each state label List.mem_cons_self,?_⟩
    cases step state label with
    | none => trivial
    | some next => exact ih (fun other later member => each other later (List.mem_cons_of_mem _ member)) next

theorem meets_imp {weaker stronger : State → Label → Prop}
    (imp : ∀ state label, stronger state label → weaker state label)
    {state : State} {labels : List Label} (met : Meets step stronger state labels) :
    Meets step weaker state labels := by
  induction labels generalizing state with
  | nil => trivial
  | cons label rest ih =>
    refine ⟨imp _ _ met.1,?_⟩
    cases taken : step state label with
    | none => trivial
    | some next => exact ih (meets_cons_some step met taken).2

theorem meets_and {first second : State → Label → Prop} {state : State} {labels : List Label}
    (left : Meets step first state labels) (right : Meets step second state labels) :
    Meets step (fun state label => first state label ∧ second state label) state labels := by
  induction labels generalizing state with
  | nil => trivial
  | cons label rest ih =>
    refine ⟨⟨left.1,right.1⟩,?_⟩
    cases taken : step state label with
    | none => trivial
    | some next => exact ih (meets_cons_some step left taken).2 (meets_cons_some step right taken).2

theorem run_invariant {admits : State → Label → Prop} {invariant : State → Prop}
    (kept : ∀ state label next, invariant state → admits state label →
      step state label = some next → invariant next)
    {state final : State} {labels : List Label} (holds : invariant state)
    (met : Meets step admits state labels) (ran : run step state labels = some final) :
    invariant final := by
  induction labels generalizing state with
  | nil => exact Option.some.inj ran ▸ holds
  | cons label rest ih =>
    obtain ⟨next,taken,tail⟩ := run_cons_some step ran
    obtain ⟨admitted,met⟩ := meets_cons_some step met taken
    exact ih (kept state label next holds admitted taken) met tail

theorem meets_always (state : State) (labels : List Label) :
    Meets step (fun _ _ => True) state labels := by
  induction labels generalizing state with
  | nil => trivial
  | cons label rest ih =>
    refine ⟨trivial,?_⟩
    cases step state label with
    | none => trivial
    | some next => exact ih next

theorem run_invariant_always {invariant : State → Prop}
    (kept : ∀ state label next, invariant state → step state label = some next → invariant next)
    {state final : State} {labels : List Label} (holds : invariant state)
    (ran : run step state labels = some final) : invariant final :=
  run_invariant step (fun state label next held _ => kept state label next held) holds
    (meets_always step state labels) ran

def trace {Event : Type*} (observe : State → Label → List Event) : State → List Label → List Event
  | _,[] => []
  | state,label::rest =>
    match step state label with
    | none => []
    | some next => observe state label ++ trace observe next rest

theorem run_trace_invariant {Event : Type*} {observe : State → Label → List Event}
    (invariant : List Event → State → Prop)
    (kept : ∀ past state label next, invariant past state → step state label = some next →
      invariant (past++observe state label) next)
    {past : List Event} {state final : State} {labels : List Label} (holds : invariant past state)
    (ran : run step state labels = some final) :
    invariant (past++trace step observe state labels) final := by
  induction labels generalizing past state with
  | nil =>
    cases Option.some.inj ran
    simpa [trace] using holds
  | cons label rest ih =>
    obtain ⟨next,taken,tail⟩ := run_cons_some step ran
    have later := ih (kept past state label next holds taken) tail
    simpa [trace,taken,List.append_assoc] using later

end Depsis.Foundation.Machine

import Mathlib.Logic.Basic

/-! Computations on a store whose single operations may each fail: what an operation that
fails leaves behind is drawn from a list the computation does not see.
-/
namespace Depsis.Foundation.Faults

variable {δ ε ζ σ α β : Type}

structure World (δ σ : Type) where
  store : σ
  fates : List (Option δ)

abbrev Attempt (δ σ ε α : Type) := ExceptT ε (StateM (World δ σ)) α

def operation (work : σ → Except ε (α × σ)) (spoil : δ → σ → ε × σ) : Attempt δ σ ε α := fun world =>
  match world.fates with
  | some damage::rest => (.error (spoil damage world.store).1,⟨(spoil damage world.store).2,rest⟩)
  | fates =>
    match work world.store with
    | .ok (answer,store) => (.ok answer,⟨store,fates.tail⟩)
    | .error e => (.error e,⟨world.store,fates.tail⟩)

def fromExcept (answer : Except ε α) : Attempt δ σ ε α := fun world => (answer,world)

def observe (question : σ → Except ε α) : Attempt δ σ ε α := fun world => (question world.store,world)

def orElse (first : Attempt δ σ ε α) (recover : ε → Attempt δ σ ζ α) : Attempt δ σ ζ α := fun world =>
  match first world with
  | (.ok answer,after) => (.ok answer,after)
  | (.error e,after) => recover e after

def named (words : ε → ζ) (first : Attempt δ σ ε α) : Attempt δ σ ζ α :=
  orElse first (fun e => fromExcept (.error (words e)))

def caught (first : Attempt δ σ ε α) : Attempt δ σ ζ (Except ε α) := fun world =>
  (.ok (first world).1,(first world).2)

variable {after world : World δ σ} {first : Attempt δ σ ε α} {held : σ → Prop} {next : α → Attempt δ σ ε β}

theorem operation_cases {work : σ → Except ε (α × σ)} {spoil : δ → σ → ε × σ}
    {answer : Except ε α} (run : operation work spoil world = (answer,after)) :
    (∃ value, answer = .ok value ∧ work world.store = .ok (value,after.store)) ∨
      (∃ e, answer = .error e ∧ work world.store = .error e ∧ after.store = world.store) ∨
        ∃ damage, answer = .error (spoil damage world.store).1 ∧ after.store = (spoil damage world.store).2 := by
  unfold operation at run
  split at run
  next damage rest _ =>
    cases run
    exact .inr (.inr ⟨damage,rfl,rfl⟩)
  next =>
    split at run
    next value store worked =>
      cases run
      exact .inl ⟨value,rfl,worked⟩
    next e refused =>
      cases run
      exact .inr (.inl ⟨e,rfl,refused,rfl⟩)

theorem bind_run (first : Attempt δ σ ε α) (next : α → Attempt δ σ ε β) (world : World δ σ) :
    (first >>= next) world = match first world with
      | (.ok value,middle) => next value middle
      | (.error e,middle) => (.error e,middle) := by
  change (match first world with | (found,middle) => ExceptT.bindCont next found middle) = _
  rcases first world with ⟨found,middle⟩
  cases found <;> rfl

theorem bind_cases
    {answer : Except ε β} (run : (first >>= next) world = (answer,after)) :
    (∃ e, answer = .error e ∧ first world = (.error e,after)) ∨
      ∃ value middle, first world = (.ok value,middle) ∧ next value middle = (answer,after) := by
  rw [bind_run] at run
  split at run
  next value middle ran => exact .inr ⟨value,middle,ran,run⟩
  next e middle ran =>
    cases run
    exact .inl ⟨e,rfl,ran⟩

theorem pure_run {value : α} {answer : Except ε α}
    (run : (pure value : Attempt δ σ ε α) world = (answer,after)) : answer = .ok value ∧ after = world := by
  cases run
  exact ⟨rfl,rfl⟩

theorem fromExcept_run {found answer : Except ε α}
    (run : (fromExcept found : Attempt δ σ ε α) world = (answer,after)) : answer = found ∧ after = world := by
  cases run
  exact ⟨rfl,rfl⟩

theorem observe_run {question : σ → Except ε α} {answer : Except ε α}
    (run : (observe question : Attempt δ σ ε α) world = (answer,after)) : answer = question world.store ∧ after = world := by
  cases run
  exact ⟨rfl,rfl⟩

theorem orElse_cases {recover : ε → Attempt δ σ ζ α}
    {answer : Except ζ α} (run : orElse first recover world = (answer,after)) :
    (∃ value, answer = .ok value ∧ first world = (.ok value,after)) ∨
      ∃ e middle, first world = (.error e,middle) ∧ recover e middle = (answer,after) := by
  unfold orElse at run
  split at run
  next value _ ran =>
    cases run
    exact .inl ⟨value,rfl,ran⟩
  next e middle ran => exact .inr ⟨e,middle,ran,run⟩

theorem named_cases {words : ε → ζ} {answer : Except ζ α}
    (run : named words first world = (answer,after)) :
    (∃ value, answer = .ok value ∧ first world = (.ok value,after)) ∨
      ∃ e, answer = .error (words e) ∧ first world = (.error e,after) := by
  rcases orElse_cases run with whole | ⟨e,middle,ran,rest⟩
  · exact .inl whole
  · obtain ⟨rfl,rfl⟩ := fromExcept_run rest
    exact .inr ⟨e,rfl,ran⟩

theorem caught_run {answer : Except ζ (Except ε α)}
    (run : caught first world = (answer,after)) : ∃ found, answer = .ok found ∧ first world = (found,after) := by
  cases run
  exact ⟨_,rfl,rfl⟩

theorem bind_ok {value : β}
    (run : (first >>= next) world = (.ok value,after)) :
    ∃ found middle, first world = (.ok found,middle) ∧ next found middle = (.ok value,after) := by
  rcases bind_cases run with ⟨_,wrong,_⟩ | whole
  · cases wrong
  · exact whole

theorem operation_ok {work : σ → Except ε (α × σ)} {spoil : δ → σ → ε × σ} {value : α}
    (run : operation work spoil world = (.ok value,after)) : work world.store = .ok (value,after.store) := by
  rcases operation_cases run with ⟨_,same,worked⟩ | ⟨_,wrong,_⟩ | ⟨_,wrong,_⟩
  · cases same
    exact worked
  · cases wrong
  · cases wrong

def Keeps (held : σ → Prop) (attempt : Attempt δ σ ε α) : Prop :=
  ∀ world answer after, attempt world = (answer,after) → held world.store → held after.store

theorem Keeps.bind (here : Keeps held first)
    (later : ∀ value, Keeps held (next value)) : Keeps held (first >>= next) := by
  intro world answer after run holds
  rcases bind_cases run with ⟨e,_,ran⟩ | ⟨value,middle,ran,rest⟩
  · exact here world _ after ran holds
  · exact later value middle answer after rest (here world _ middle ran holds)

theorem Keeps.pure (value : α) : Keeps held (pure value : Attempt δ σ ε α) := by
  intro world answer after run holds
  rw [(pure_run run).2]
  exact holds

theorem Keeps.fromExcept (found : Except ε α) : Keeps held (fromExcept found : Attempt δ σ ε α) := by
  intro world answer after run holds
  rw [(fromExcept_run run).2]
  exact holds

theorem Keeps.observe (question : σ → Except ε α) :
    Keeps held (observe question : Attempt δ σ ε α) := by
  intro world answer after run holds
  rw [(observe_run run).2]
  exact holds

theorem Keeps.named {words : ε → ζ} (here : Keeps held first) :
    Keeps held (named words first) := by
  intro world answer after run holds
  rcases named_cases run with ⟨_,_,ran⟩ | ⟨_,_,ran⟩
  all_goals exact here world _ after ran holds

theorem Keeps.caught (here : Keeps held first) :
    Keeps held (caught first : Attempt δ σ ζ (Except ε α)) := by
  intro world answer after run holds
  obtain ⟨found,_,ran⟩ := caught_run run
  exact here world found after ran holds

theorem Keeps.operation {work : σ → Except ε (α × σ)} {spoil : δ → σ → ε × σ}
    (done : ∀ store value later, held store → work store = .ok (value,later) → held later)
    (spoiled : ∀ store damage, held store → held (spoil damage store).2) :
    Keeps held (operation work spoil) := by
  intro world answer after run holds
  rcases operation_cases run with ⟨value,_,worked⟩ | ⟨_,_,_,same⟩ | ⟨damage,_,left⟩
  · exact done _ value _ holds worked
  · rw [same]
    exact holds
  · rw [left]
    exact spoiled _ damage holds

/-- Whatever a computation fails with is `allowed`. -/
def Raises (allowed : ε → Prop) (attempt : Attempt δ σ ε α) : Prop :=
  ∀ world e after, attempt world = (.error e,after) → allowed e

theorem Raises.bind {allowed : ε → Prop}
    (here : Raises allowed first) (later : ∀ value, Raises allowed (next value)) : Raises allowed (first >>= next) := by
  intro world e after run
  rcases bind_cases run with ⟨_,same,ran⟩ | ⟨value,middle,_,rest⟩
  · cases same
    exact here world _ after ran
  · exact later value middle e after rest

theorem Raises.pure {allowed : ε → Prop} (value : α) : Raises allowed (pure value : Attempt δ σ ε α) := by
  intro world e after run
  cases (pure_run run).1

theorem Raises.named {allowed : ζ → Prop} {words : ε → ζ} (spoken : ∀ e, allowed (words e)) :
    Raises allowed (named words first) := by
  intro world e after run
  rcases named_cases run with ⟨_,wrong,_⟩ | ⟨failed,same,_⟩
  · cases wrong
  · cases same
    exact spoken failed

theorem Raises.observe {allowed : ε → Prop} {question : σ → Except ε α}
    (spoken : ∀ store e, question store = .error e → allowed e) :
    Raises allowed (observe question : Attempt δ σ ε α) := by
  intro world e after run
  exact spoken world.store e (observe_run run).1.symm

end Depsis.Foundation.Faults

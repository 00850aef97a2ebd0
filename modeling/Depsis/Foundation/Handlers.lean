import Mathlib.Logic.Basic

/-! Computations on a store that end with an answer or a failure, calls whose fate is
given, and triples that say what holds of the store whichever way a computation ends.
-/
namespace Depsis.Foundation.Handlers

variable {σ ε ζ α β : Type}

abbrev Handler (σ ε α : Type) := ExceptT ε (StateM σ) α

/-- What becomes of a call: it goes through, it fails before it does anything, or it does
its work and the answer is lost. A crash of the caller is a lost answer too.
-/
inductive Fate where
  | done | undone | unheard
deriving DecidableEq

def call (fate : Fate) (lost : ε) (work : σ → Except ε (α × σ)) : Handler σ ε α := fun store =>
  match fate with
  | .undone => (.error lost,store)
  | .done =>
    match work store with
    | .ok (value,after) => (.ok value,after)
    | .error e => (.error e,store)
  | .unheard =>
    match work store with
    | .ok (_,after) => (.error lost,after)
    | .error _ => (.error lost,store)

def ask (question : σ → Except ε α) : Handler σ ε α := fun store => (question store,store)

def raise (e : ε) : Handler σ ε α := fun store => (.error e,store)

def attempted (first : Handler σ ε α) : Handler σ ζ (Except ε α) := fun store => (.ok (first store).1,(first store).2)

def Ends (answers : α → σ → Prop) (fails : ε → σ → Prop) : Except ε α × σ → Prop
  | (.ok value,after) => answers value after
  | (.error e,after) => fails e after

/-- From a store that meets `before`, a computation that answers ends in `answers`, and one
that fails in `fails`.
-/
def Triple (before : σ → Prop) (first : Handler σ ε α) (answers : α → σ → Prop) (fails : ε → σ → Prop) : Prop :=
  ∀ store, before store → Ends answers fails (first store)

theorem bind_run (first : Handler σ ε α) (next : α → Handler σ ε β) (store : σ) :
    (first >>= next) store = match first store with
      | (.ok value,middle) => next value middle
      | (.error e,middle) => (.error e,middle) := by
  change (match first store with | (found,middle) => ExceptT.bindCont next found middle) = _
  rcases first store with ⟨found,middle⟩
  cases found <;> rfl

theorem pure_run (value : α) (store : σ) : (pure value : Handler σ ε α) store = (.ok value,store) := rfl

theorem call_total {fate : Fate} {lost : ε} {work : σ → Except ε (α × σ)} {value : α} {store after : σ}
    (works : work store = .ok (value,after)) :
    (call fate lost work store = (.ok value,after) ∧ fate = .done) ∨ call fate lost work store = (.error lost,store) ∨
      call fate lost work store = (.error lost,after) := by
  unfold call
  cases fate with
  | done => exact .inl ⟨by simp only [works],rfl⟩
  | undone => exact .inr (.inl rfl)
  | unheard => exact .inr (.inr (by simp only [works]))

namespace Triple

variable {before : σ → Prop} {first : Handler σ ε α} {answers : α → σ → Prop} {fails : ε → σ → Prop}

theorem each (here : ∀ store, before store → Triple (· = store) first answers fails) : Triple before first answers fails :=
  fun store holds => here store holds store rfl

theorem bind {next : α → Handler σ ε β} (middle : α → σ → Prop) {answers : β → σ → Prop}
    (here : Triple before first middle fails) (later : ∀ value, Triple (middle value) (next value) answers fails) :
    Triple before (first >>= next) answers fails := by
  intro store holds
  have ran := here store holds
  rw [bind_run]
  generalize first store = result at ran ⊢
  obtain ⟨found,after⟩ := result
  cases found with
  | ok value => exact later value after ran
  | error e => exact ran

theorem pure (value : α) (holds : ∀ store, before store → answers value store) :
    Triple before (Pure.pure value : Handler σ ε α) answers fails := holds

theorem raise (e : ε) (holds : ∀ store, before store → fails e store) :
    Triple before (Handlers.raise e : Handler σ ε α) answers fails := holds

theorem conseq {stronger : σ → Prop} {weaker : α → σ → Prop} {looser : ε → σ → Prop}
    (here : Triple before first answers fails) (start : ∀ store, stronger store → before store)
    (done : ∀ value store, answers value store → weaker value store) (failed : ∀ e store, fails e store → looser e store) :
    Triple stronger first weaker looser := by
  intro store holds
  have ran := here store (start store holds)
  generalize first store = result at ran ⊢
  obtain ⟨found,after⟩ := result
  cases found with
  | ok value => exact done value after ran
  | error e => exact failed e after ran

theorem ask {question : σ → Except ε α} (answered : ∀ store value, before store → question store = .ok value → answers value store)
    (failed : ∀ store e, before store → question store = .error e → fails e store) :
    Triple before (Handlers.ask question) answers fails := by
  intro store holds
  unfold Handlers.ask
  cases told : question store with
  | ok value => exact answered store value holds told
  | error e => exact failed store e holds told

theorem call {fate : Fate} {lost : ε} {work : σ → Except ε (α × σ)}
    (done : ∀ store value after, before store → fate = .done → work store = .ok (value,after) → answers value after)
    (undone : ∀ store, before store → fate = .undone → fails lost store)
    (unheard : ∀ store value after, before store → fate = .unheard → work store = .ok (value,after) → fails lost after)
    (refused : ∀ store e, before store → work store = .error e → fails e store ∧ fails lost store) :
    Triple before (Handlers.call fate lost work) answers fails := by
  intro store holds
  unfold Handlers.call
  cases fate with
  | undone => exact undone store holds rfl
  | done =>
    cases worked : work store with
    | ok pair => exact done store pair.1 pair.2 holds rfl worked
    | error e => exact (refused store e holds worked).1
  | unheard =>
    cases worked : work store with
    | ok pair => exact unheard store pair.1 pair.2 holds rfl worked
    | error e => exact (refused store e holds worked).2

theorem attempted {outcome : Except ε α → σ → Prop} {never : ζ → σ → Prop}
    (here : Triple before first (fun value => outcome (.ok value)) (fun e => outcome (.error e))) :
    Triple before (Handlers.attempted first) outcome never := by
  intro store holds
  have ran := here store holds
  unfold Handlers.attempted
  generalize first store = result at ran ⊢
  obtain ⟨found,after⟩ := result
  cases found <;> exact ran

theorem after {held : σ → Prop} (here : Triple before first (fun _ => held) (fun _ => held)) {store : σ} (holds : before store) :
    held (first store).2 := by
  have ran := here store holds
  generalize first store = result at ran ⊢
  obtain ⟨found,after⟩ := result
  cases found <;> exact ran

end Triple

end Depsis.Foundation.Handlers

import Depsis.Foundation.Faults

/-! Work made of stages that each do nothing when they find their effect in place: a run
that stopped anywhere is finished by running everything again.
-/
namespace Depsis.Foundation.Resume

open Faults List

variable {δ ε σ α β : Type}

abbrev Stage (σ : Type) := σ → Option σ

def advance : List (Stage σ) → σ → σ × Bool
  | [],store => (store,true)
  | stage::rest,store =>
    match stage store with
    | some later => advance rest later
    | none => (store,false)

def Reached (stages : List (Stage σ)) (start store : σ) : Prop :=
  ∃ done rest, stages = done++rest ∧ advance done start = (store,true)

structure Lasting (stages : List (Stage σ)) : Prop where
  settles : ∀ stage ∈ stages, ∀ store later, stage store = some later → stage later = some later
  stays : ∀ stage ∈ stages, ∀ other ∈ stages, ∀ store later, stage store = some store → other store = some later →
    stage later = some later

theorem advance_append (first second : List (Stage σ)) (store : σ) : advance (first++second) store =
    if (advance first store).2 then advance second (advance first store).1 else advance first store := by
  induction first generalizing store with
  | nil => rfl
  | cons stage rest ih =>
    rw [cons_append,advance,advance]
    cases stage store with
    | none => rfl
    | some later => exact ih later

variable {stages : List (Stage σ)} {start store : σ}

theorem advance_settled (settled : ∀ stage ∈ stages, stage store = some store) :
    advance stages store = (store,true) := by
  induction stages with
  | nil => rfl
  | cons stage rest ih =>
    rw [advance,settled stage mem_cons_self]
    exact ih (fun other member => settled other (mem_cons_of_mem _ member))

theorem Reached.refl (stages : List (Stage σ)) (store : σ) : Reached stages store store := ⟨[],stages,rfl,rfl⟩

theorem Reached.more {first : List (Stage σ)} (second : List (Stage σ)) (here : Reached first start store) :
    Reached (first++second) start store := by
  obtain ⟨done,rest,rfl,ran⟩ := here
  exact ⟨done,rest++second,append_assoc _ _ _,ran⟩

theorem Reached.after {first second : List (Stage σ)} {middle : σ} (through : advance first start = (middle,true))
    (there : Reached second middle store) : Reached (first++second) start store := by
  obtain ⟨done,rest,rfl,ran⟩ := there
  refine ⟨first++done,rest,(append_assoc _ _ _).symm,?_⟩
  rw [advance_append,through]
  exact ran

theorem Reached.whole (through : advance stages start = (store,true)) :
    Reached stages start store := ⟨stages,[],(append_nil _).symm,through⟩

theorem Reached.single_iff {stage : Stage σ} :
    Reached [stage] start store ↔ store = start ∨ stage start = some store := by
  refine ⟨fun ⟨done,rest,split,ran⟩ => ?_,fun either => ?_⟩
  · cases done with
    | nil =>
      cases ran
      exact .inl rfl
    | cons first done =>
      obtain ⟨rfl,ended⟩ := List.cons.inj split
      obtain ⟨rfl,rfl⟩ := append_eq_nil_iff.mp ended.symm
      rw [advance] at ran
      split at ran <;> cases ran
      next later through => exact .inr through
  · rcases either with rfl | through
    · exact Reached.refl _ _
    · refine Reached.whole ?_
      rw [advance,through]
      rfl

theorem Reached.invariant {held : σ → Prop} (reached : Reached stages start store)
    (kept : ∀ stage ∈ stages, ∀ before later, held before → stage before = some later → held later) (holds : held start) :
    held store := by
  obtain ⟨done,rest,rfl,ran⟩ := reached
  replace kept : ∀ stage ∈ done, ∀ before later, held before → stage before = some later → held later :=
    fun stage member => kept stage (mem_append_left _ member)
  induction done generalizing start with
  | nil =>
    cases ran
    exact holds
  | cons stage done ih =>
    rw [advance] at ran
    split at ran
    next later through =>
      exact ih (kept stage mem_cons_self start later holds through) ran
        (fun other member => kept other (mem_cons_of_mem _ member))
    next => cases ran

theorem settled_after {done : List (Stage σ)} (lasting : Lasting stages)
    (among : ∀ stage ∈ done, stage ∈ stages) (ran : advance done start = (store,true)) :
    ∀ stage ∈ done, stage store = some store := by
  suffices kept : ∀ settled : List (Stage σ), (∀ stage ∈ settled, stage ∈ stages ∧ stage start = some start) →
      ∀ stage ∈ settled++done, stage store = some store from
    fun stage member => kept [] nofun stage member
  induction done generalizing start with
  | nil =>
    intro settled before stage member
    cases ran
    rw [append_nil] at member
    exact (before stage member).2
  | cons first done ih =>
    intro settled before stage member
    rw [advance] at ran
    split at ran
    next later through =>
      have known := among first mem_cons_self
      refine ih (fun other later => among other (mem_cons_of_mem _ later)) ran (settled++[first]) ?_ stage ?_
      · intro other listed
        rcases mem_append.mp listed with old | new
        · exact ⟨(before other old).1,lasting.stays other (before other old).1 first known start later (before other old).2 through⟩
        · cases mem_singleton.mp new
          exact ⟨known,lasting.settles first known start later through⟩
      · rwa [append_assoc,singleton_append]
    next => cases ran

theorem resume (lasting : Lasting stages)
    (reached : Reached stages start store) : advance stages store = advance stages start := by
  obtain ⟨done,rest,rfl,ran⟩ := reached
  have settled := settled_after lasting (fun stage member => mem_append_left rest member) ran
  rw [advance_append,advance_settled settled,advance_append,ran]

theorem Lasting.of_effects {ι : Type} {items : List ι} {stage : ι → Stage σ} {effect : ι → σ → Prop}
    (reaches : ∀ item ∈ items, ∀ store later, stage item store = some later → effect item later)
    (idle : ∀ item ∈ items, ∀ store, effect item store → stage item store = some store)
    (kept : ∀ item ∈ items, ∀ other ∈ items, ∀ store later, effect item store → stage other store = some later →
      effect item later) : Lasting (items.map stage) where
  settles one listed store later through := by
    obtain ⟨item,member,rfl⟩ := mem_map.mp listed
    exact idle item member later (reaches item member store later through)
  stays one listed two among store later settled through := by
    obtain ⟨item,member,rfl⟩ := mem_map.mp listed
    obtain ⟨other,inside,rfl⟩ := mem_map.mp among
    exact idle item member later (kept item member other inside store later (reaches item member store store settled) through)

structure Performs (attempt : Attempt δ σ ε α) (stages : List (Stage σ)) : Prop where
  reached : ∀ world answer after, attempt world = (answer,after) → Reached stages world.store after.store
  through : ∀ world value after, attempt world = (.ok value,after) → advance stages world.store = (after.store,true)
  unspoiled : ∀ store, ((attempt ⟨store,[]⟩).2,(attempt ⟨store,[]⟩).1.isOk) =
    ((⟨(advance stages store).1,[]⟩ : World δ σ),(advance stages store).2)

theorem Performs.pure (value : α) : Performs (pure value : Attempt δ σ ε α) ([] : List (Stage σ)) where
  reached world answer after run := by
    rw [(pure_run run).2]
    exact Reached.refl _ _
  through world value after run := by
    rw [(pure_run run).2]
    rfl
  unspoiled store := rfl

theorem Performs.bind {first : Attempt δ σ ε α} {next : α → Attempt δ σ ε β} {before later : List (Stage σ)}
    (here : Performs first before) (there : ∀ value, Performs (next value) later) :
    Performs (first >>= next) (before++later) where
  reached world answer after run := by
    rcases bind_cases run with ⟨_,_,ran⟩ | ⟨value,middle,ran,rest⟩
    · exact (here.reached world _ after ran).more later
    · exact ((there value).reached middle answer after rest).after (here.through world value middle ran)
  through world value after run := by
    obtain ⟨found,middle,ran,rest⟩ := bind_ok run
    rw [advance_append,here.through world found middle ran]
    exact (there found).through middle value after rest
  unspoiled store := by
    have front := here.unspoiled store
    rw [advance_append,bind_run]
    generalize first ⟨store,[]⟩ = outcome at front ⊢
    obtain ⟨answer,middle⟩ := outcome
    obtain ⟨same,flag⟩ := Prod.mk.inj front
    cases answer with
    | error e =>
      change false = _ at flag
      rw [← flag,if_neg Bool.false_ne_true]
      exact Prod.ext same flag
    | ok value =>
      change middle = _ at same
      change true = _ at flag
      rw [← flag,if_pos rfl]
      change ((next value middle).2,(next value middle).1.isOk) = _
      rw [same]
      exact (there value).unspoiled _

theorem Performs.answers {first : Attempt δ σ ε α} (here : Performs first stages) (form : α → β) :
    Performs (first >>= fun value => (Pure.pure (form value) : Attempt δ σ ε β)) stages := by
  have whole := here.bind (fun value => Performs.pure (form value))
  rwa [append_nil] at whole

theorem Performs.observe {question : σ → Except ε α} {stage : Stage σ}
    (decides : ∀ store, stage store = (question store).toOption.map (fun _ => store)) :
    Performs (Faults.observe question : Attempt δ σ ε α) [stage] where
  reached world answer after run := by
    rw [(observe_run run).2]
    exact Reached.refl _ _
  through world value after run := by
    obtain ⟨answered,same⟩ := observe_run run
    rw [same,advance,decides,← answered]
    rfl
  unspoiled store := by
    rw [advance,decides]
    change ((⟨store,[]⟩ : World δ σ),(question store).isOk) = _
    cases question store <;> rfl

theorem Performs.idle (value : α) : Performs (Pure.pure value : Attempt δ σ ε α) [(some : Stage σ)] where
  reached world answer after run := by
    rw [(pure_run run).2]
    exact Reached.refl _ _
  through world value after run := by
    rw [(pure_run run).2]
    rfl
  unspoiled store := rfl

theorem Performs.operation {work : σ → Except ε (α × σ)} {spoil : δ → σ → ε × σ} {stage : Stage σ}
    (works : ∀ store, stage store = (work store).toOption.map Prod.snd)
    (spoils : ∀ damage store, (spoil damage store).2 = store ∨ stage store = some (spoil damage store).2) :
    Performs (operation work spoil) [stage] where
  reached world answer after run := by
    rw [Reached.single_iff]
    rcases operation_cases run with ⟨value,_,worked⟩ | ⟨_,_,_,same⟩ | ⟨damage,_,left⟩
    · rw [works,worked]
      exact .inr rfl
    · exact .inl same
    · rw [left]
      exact spoils damage world.store
  through world value after run := by
    rw [advance,works,operation_ok run]
    rfl
  unspoiled store := by
    rw [advance,works]
    unfold Faults.operation
    cases work store with
    | error e => rfl
    | ok pair => rfl

theorem Performs.named {ζ : Type} {words : ε → ζ} {first : Attempt δ σ ε α}
    (here : Performs first stages) : Performs (named words first) stages where
  reached world answer after run := by
    rcases named_cases run with ⟨_,_,ran⟩ | ⟨_,_,ran⟩
    all_goals exact here.reached world _ after ran
  through world value after run := by
    rcases named_cases run with ⟨_,same,ran⟩ | ⟨_,wrong,_⟩
    · cases same
      exact here.through world value after ran
    · cases wrong
  unspoiled store := by
    rw [← here.unspoiled store]
    unfold Faults.named orElse
    generalize first ⟨store,[]⟩ = outcome
    obtain ⟨answer,after⟩ := outcome
    cases answer <;> rfl

theorem Performs.choose {question : σ → Bool} {yes no : Attempt δ σ ε α} {first second : Stage σ}
    (here : Performs yes [first]) (there : Performs no [second]) :
    Performs (Faults.observe (fun store => .ok (question store)) >>= fun answer => if answer then yes else no)
      [fun store => if question store then first store else second store] := by
  have shape : ∀ (world : World δ σ), (Faults.observe (fun store => .ok (question store)) >>= fun answer =>
      if answer then yes else no : Attempt δ σ ε α) world = if question world.store then yes world else no world := by
    intro world
    rw [bind_run]
    change (if question world.store then yes else no : Attempt δ σ ε α) world = _
    split <;> rfl
  have stages : ∀ store, advance [fun store => if question store then first store else second store] store =
      if question store then advance [first] store else advance [second] store := by
    intro store
    rw [advance]
    cases question store <;> rfl
  refine ⟨fun world answer after run => ?_,fun world value after run => ?_,fun store => ?_⟩
  · rw [shape] at run
    rw [Reached.single_iff]
    split at run
    next chosen => exact (Reached.single_iff.mp (here.reached world answer after run)).imp_right ((if_pos chosen).trans ·)
    next chosen => exact (Reached.single_iff.mp (there.reached world answer after run)).imp_right ((if_neg chosen).trans ·)
  · rw [shape] at run
    rw [stages]
    split at run
    next chosen => exact (if_pos chosen).trans (here.through world value after run)
    next chosen => exact (if_neg chosen).trans (there.through world value after run)
  · rw [shape,stages]
    cases question store
    · exact there.unspoiled store
    · exact here.unspoiled store

end Depsis.Foundation.Resume

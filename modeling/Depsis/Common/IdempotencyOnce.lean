import Depsis.Common.Idempotency

/-! Which runs of the handlers a key allows, and what it is answered with. Every row in progress has a request under
way that put it in, and every run that is neither failed nor past the retention still has the row it began with; from
these follow that one handler runs for a key, and that `in progress` ends with the write that is still to come.
-/
namespace Depsis.Common

open Depsis.Foundation List AList Option

variable {Value : Type} {hashing : Hashing Value} {state next final : State Value}
variable {ticket began : Nat} {call later : Call Value} {request : Request Value} {scope : Scope} {row : Row Value}
variable {raw : Option String} {gone : List Scope} {stored : Stored Value}

def Apart (hashing : Hashing Value) (threw : List Nat) (earlier later : Run Value) : Prop :=
  earlier.request.scope hashing = later.request.scope hashing → later.started ≤ earlier.createdAt + window →
    earlier.ticket ∈ threw

/-- What a key promises: one handler within the retention unless the earlier one failed; from storage only the answer of
a handler run of the same request; and with no handler running, `in progress` only until a write still to come. -/
structure Once [DecidableEq Value] (hashing : Hashing Value) (state : State Value) : Prop where
  single : state.runs.Pairwise (Apart hashing state.threw)
  replayed : ∀ replay ∈ state.replays, ∃ run ∈ state.runs, run.request = replay.1 ∧
    ∃ response, (run.ticket,response) ∈ state.returned ∧ response.recorded = replay.2
  waited : ∀ request : Request Value,
    (∀ ticket call, state.calls.lookup ticket = some call → call.request.scope hashing = request.scope hashing → call.running = false) →
      state.claim hashing request = .inFlight →
        ∃ ticket next, step hashing state (.written ticket) = some next ∧ next.claim hashing request ≠ .inFlight

structure Kept (hashing : Hashing Value) (state : State Value) : Prop where
  issued : ∀ ticket call, state.calls.lookup ticket = some call → state.asked[ticket]? = some call.request
  filed : ∀ scope row, state.rows.lookup scope = some row →
    ∃ request, state.asked[row.holder]? = some request ∧ request.scope hashing = scope ∧
      row.fingerprint = request.fingerprint hashing
  alike : ∀ first ∈ state.asked, ∀ second ∈ state.asked, first.scope hashing = second.scope hashing →
    first.fingerprint hashing = second.fingerprint hashing → first = second
  asked : ∀ run ∈ state.runs, run.request ∈ state.asked
  begun : ∀ ticket call, state.calls.lookup ticket = some call → call.holding = true →
    ∃ run ∈ state.runs, run.ticket = ticket ∧ run.request = call.request
  thrown : ∀ ticket call, state.calls.lookup ticket = some call → call.stage = .releasing → ticket ∈ state.threw
  answering : ∀ ticket call stored, state.calls.lookup ticket = some call → call.stage = .completing stored →
    ∃ response, (ticket,response) ∈ state.returned ∧ response.recorded = stored
  underway : ∀ scope row, state.rows.lookup scope = some row → row.answer = none →
    ∃ call, state.calls.lookup row.holder = some call ∧ call.holding = true ∧ call.request.scope hashing = scope
  answered : ∀ scope row stored, state.rows.lookup scope = some row → row.answer = some stored →
    ∃ run ∈ state.runs, run.request.scope hashing = scope ∧ run.request.fingerprint hashing = row.fingerprint ∧
      ∃ response, (run.ticket,response) ∈ state.returned ∧ response.recorded = stored
  blocked : ∀ run ∈ state.runs, run.ticket ∈ state.threw ∨ run.createdAt + window < state.now ∨
    ∃ row, state.rows.lookup (run.request.scope hashing) = some row ∧ row.holder = run.ticket ∧ row.createdAt = run.createdAt
  apart : state.runs.Pairwise (Apart hashing state.threw)
  replayed : ∀ replay ∈ state.replays, ∃ run ∈ state.runs, run.request = replay.1 ∧
    ∃ response, (run.ticket,response) ∈ state.returned ∧ response.recorded = replay.2

section

variable (kept : Kept hashing state)
include kept

theorem Kept.continues (found : state.calls.lookup ticket = some call)
    (same : later.request = call.request) (holds : later.holding = call.holding)
    (thrown : later.stage = .releasing → ticket ∈ state.threw)
    (answering : ∀ stored, later.stage = .completing stored →
      ∃ response, (ticket,response) ∈ state.returned ∧ response.recorded = stored) :
    Kept hashing (state.continues ticket later) := by
  have cases' : ∀ {other there}, (state.calls.insert ticket later).lookup other = some there →
      other = ticket ∧ there = later ∨ state.calls.lookup other = some there := by
    intro other there stored
    exact (lookup_insert_cases stored).imp_right And.right
  refine ⟨fun other there stored => ?_,kept.filed,kept.alike,kept.asked,fun other there stored held => ?_,
    fun other there stored stage => ?_,fun other there answer stored stage => ?_,fun scope row stored empty => ?_,
    kept.answered,kept.blocked,kept.apart,kept.replayed⟩
  · rcases cases' stored with ⟨rfl,rfl⟩ | old
    · rw [same]
      exact kept.issued _ _ found
    · exact kept.issued _ _ old
  · rcases cases' stored with ⟨rfl,rfl⟩ | old
    · rw [same]
      exact kept.begun _ _ found (holds ▸ held)
    · exact kept.begun _ _ old held
  · rcases cases' stored with ⟨rfl,rfl⟩ | old
    · exact thrown stage
    · exact kept.thrown _ _ old stage
  · rcases cases' stored with ⟨rfl,rfl⟩ | old
    · exact answering _ stage
    · exact kept.answering _ _ _ old stage
  · obtain ⟨holder,there,held,here⟩ := kept.underway scope row stored empty
    by_cases mine : row.holder = ticket
    · rw [mine,found] at there
      cases there
      refine ⟨later,?_,holds.trans held,same ▸ here⟩
      exact mine ▸ lookup_insert _
    · exact ⟨holder,(lookup_insert_ne mine).trans there,held,here⟩

theorem Kept.ends (found : state.calls.lookup ticket = some call)
    (free : call.holding = true → ∀ row, state.rows.lookup (call.request.scope hashing) = some row → row.answer = none →
      row.holder ≠ ticket) : Kept hashing (state.ends ticket) := by
  have old : ∀ {other there}, (state.calls.erase ticket).lookup other = some there → state.calls.lookup other = some there := by
    intro other there stored
    obtain ⟨-,stored⟩ := lookup_erase_some stored
    exact stored
  refine ⟨fun other there stored => kept.issued other there (old stored),kept.filed,kept.alike,kept.asked,
    fun other there stored => kept.begun other there (old stored),fun other there stored => kept.thrown other there (old stored),
    fun other there answer stored => kept.answering other there answer (old stored),fun scope row stored empty => ?_,
    kept.answered,kept.blocked,kept.apart,kept.replayed⟩
  obtain ⟨holder,there,held,here⟩ := kept.underway scope row stored empty
  by_cases mine : row.holder = ticket
  · rw [mine,found] at there
    cases there
    exact absurd mine (free held row (here ▸ stored) empty)
  · exact ⟨holder,(lookup_erase_ne mine).trans there,held,here⟩

theorem Kept.waits (found : state.calls.lookup ticket = some call)
    (same : later.request = call.request) (free : call.holding = false) (still : later.holding = false) :
    Kept hashing (state.continues ticket later) := by
  apply kept.continues found same (still.trans free.symm)
  · intro stage
    simp [Call.holding,stage] at still
  · intro stored stage
    simp [Call.holding,stage] at still

theorem Kept.quits (found : state.calls.lookup ticket = some call)
    (free : call.holding = false) : Kept hashing (state.ends ticket) := by
  apply kept.ends found
  intro held
  cases free.symm.trans held

theorem Kept.arrives (twin : ∀ other ∈ state.asked, other.scope hashing = request.scope hashing →
    other.fingerprint hashing = request.fingerprint hashing → other = request) : Kept hashing (state.arrive request) := by
  have before : ∀ other there, state.calls.lookup other = some there → other ≠ state.asked.length := by
    intro other there stored same
    have listed := kept.issued other there stored
    rw [same,getElem?_eq_none (Nat.le_refl _)] at listed
    cases listed
  have still : ∀ {index : Nat} {other : Request Value}, state.asked[index]? = some other →
      (state.asked ++ [request])[index]? = some other := by
    intro index other listed
    rw [List.getElem?_append_left (List.getElem?_eq_some_iff.mp listed).1]
    exact listed
  have cases' : ∀ {other there}, (state.arrive request).calls.lookup other = some there →
      other = state.asked.length ∧ there.request = request ∧ there.holding = false ∨ state.calls.lookup other = some there := by
    intro other there stored
    have stored := (lookup_insert_eq _ _ _ _).symm.trans stored
    split at stored
    next here =>
      refine .inl ⟨here,?_⟩
      cases stored
      refine ⟨rfl,?_⟩
      by_cases due : state.sweepDue request.organization = true
      all_goals simp [Call.holding,due]
    next => exact .inr stored
  refine ⟨fun other there stored => ?_,fun scope row stored => ?_,fun first listed second also scopes prints => ?_,
    fun run listed => mem_append_left _ (kept.asked run listed),fun other there stored held => ?_,
    fun other there stored stage => ?_,fun other there answer stored stage => ?_,fun scope row stored empty => ?_,
    kept.answered,kept.blocked,kept.apart,kept.replayed⟩
  · rcases cases' stored with ⟨rfl,same,-⟩ | old
    · rw [same]
      exact getElem?_concat_length
    · exact still (kept.issued _ _ old)
  · obtain ⟨other,listed,facts⟩ := kept.filed scope row stored
    exact ⟨other,still listed,facts⟩
  · rcases mem_append.mp listed with old | new
    · rcases mem_append.mp also with old' | new'
      · exact kept.alike first old second old' scopes prints
      · obtain rfl := mem_singleton.mp new'
        exact twin first old scopes prints
    · obtain rfl := mem_singleton.mp new
      rcases mem_append.mp also with old' | new'
      · exact (twin second old' scopes.symm prints.symm).symm
      · exact (mem_singleton.mp new').symm
  · rcases cases' stored with ⟨-,-,free⟩ | old
    · cases free.symm.trans held
    · exact kept.begun _ _ old held
  · rcases cases' stored with ⟨-,-,free⟩ | old
    · simp [Call.holding,stage] at free
    · exact kept.thrown _ _ old stage
  · rcases cases' stored with ⟨-,-,free⟩ | old
    · simp [Call.holding,stage] at free
    · exact kept.answering _ _ _ old stage
  · obtain ⟨holder,there,held,here⟩ := kept.underway scope row stored empty
    exact ⟨holder,(lookup_insert_ne (before _ _ there)).trans there,held,here⟩

theorem Kept.sweeps
    (old : ∀ scope ∈ gone, ∀ row, state.rows.lookup scope = some row → row.createdAt + window < state.now) :
    Kept hashing (state.sweep gone) := by
  have there : ∀ {scope row}, (state.sweep gone).rows.lookup scope = some row → state.rows.lookup scope = some row := by
    intro scope row stored
    have stored := (lookup_retain _ _ _).symm.trans stored
    exact (filter_eq_some_iff.mp stored).1
  refine ⟨kept.issued,fun scope row stored => kept.filed scope row (there stored),kept.alike,kept.asked,kept.begun,kept.thrown,
    kept.answering,fun scope row stored => kept.underway scope row (there stored),
    fun scope row answer stored => kept.answered scope row answer (there stored),fun run listed => ?_,kept.apart,kept.replayed⟩
  rcases kept.blocked run listed with failed | expired | ⟨row,stored,mine,since⟩
  · exact .inl failed
  · exact .inr (.inl expired)
  · by_cases taken : run.request.scope hashing ∈ gone
    · have past := old _ taken row stored
      rw [since] at past
      exact .inr (.inl past)
    · refine .inr (.inr ⟨row,?_,mine,since⟩)
      change (state.rows.retain _).lookup _ = some row
      rw [lookup_retain,stored,filter_some,if_pos (by simpa using taken)]

theorem Kept.claims (found : state.calls.lookup ticket = some call)
    (free : call.holding = false) (absent : state.rows.lookup (call.request.scope hashing) = none) :
    Kept hashing (((state.putIn hashing ticket began call.request).starts ticket began call.request).continues ticket
      (call.moved .running)) := by
  have rows' : ∀ {scope row}, (state.rows.insert (call.request.scope hashing)
      ⟨call.request.fingerprint hashing,none,began,ticket⟩).lookup scope = some row →
        scope = call.request.scope hashing ∧ row = ⟨call.request.fingerprint hashing,none,began,ticket⟩ ∨
          state.rows.lookup scope = some row := by
    intro scope row stored
    exact (lookup_insert_cases stored).imp_right And.right
  have calls' : ∀ {other there}, (state.calls.insert ticket (call.moved .running)).lookup other = some there →
      other = ticket ∧ there = call.moved .running ∨ state.calls.lookup other = some there := by
    intro other there stored
    exact (lookup_insert_cases stored).imp_right And.right
  have mine := kept.issued ticket call found
  refine ⟨fun other there stored => ?_,fun scope row stored => ?_,kept.alike,fun run listed => ?_,fun other there stored held => ?_,
    fun other there stored stage => ?_,fun other there answer stored stage => ?_,fun scope row stored empty => ?_,
    fun scope row answer stored full => ?_,fun run listed => ?_,?_,fun replay listed => ?_⟩
  · rcases calls' stored with ⟨rfl,rfl⟩ | old
    · exact mine
    · exact kept.issued _ _ old
  · rcases rows' stored with ⟨rfl,rfl⟩ | old
    · exact ⟨call.request,mine,rfl,rfl⟩
    · exact kept.filed _ _ old
  · rcases mem_append.mp listed with old | new
    · exact kept.asked run old
    · obtain rfl := mem_singleton.mp new
      exact mem_of_getElem? mine
  · rcases calls' stored with ⟨rfl,rfl⟩ | old
    · exact ⟨_,mem_append_right _ mem_cons_self,rfl,rfl⟩
    · obtain ⟨run,listed,facts⟩ := kept.begun _ _ old held
      exact ⟨run,mem_append_left _ listed,facts⟩
  · rcases calls' stored with ⟨rfl,rfl⟩ | old
    · cases stage
    · exact kept.thrown _ _ old stage
  · rcases calls' stored with ⟨rfl,rfl⟩ | old
    · cases stage
    · exact kept.answering _ _ _ old stage
  · rcases rows' stored with ⟨rfl,rfl⟩ | old
    · exact ⟨call.moved .running,lookup_insert _,rfl,rfl⟩
    · obtain ⟨holder,there,held,here⟩ := kept.underway scope row old empty
      refine ⟨holder,(lookup_insert_ne fun same => ?_).trans there,held,here⟩
      rw [same,found] at there
      cases there
      cases free.symm.trans held
  · rcases rows' stored with ⟨rfl,rfl⟩ | old
    · cases full
    · obtain ⟨run,listed,facts⟩ := kept.answered scope row answer old full
      exact ⟨run,mem_append_left _ listed,facts⟩
  · rcases mem_append.mp listed with old | new
    · rcases kept.blocked run old with failed | expired | ⟨row,stored,facts⟩
      · exact .inl failed
      · exact .inr (.inl expired)
      · refine .inr (.inr ⟨row,(lookup_insert_ne fun same => ?_).trans stored,facts⟩)
        cases absent.symm.trans (same ▸ stored)
    · obtain rfl := mem_singleton.mp new
      exact .inr (.inr ⟨_,lookup_insert _,rfl,rfl⟩)
  · refine pairwise_append.mpr ⟨kept.apart,pairwise_singleton _ _,fun earlier listed later new => ?_⟩
    obtain rfl := mem_singleton.mp new
    intro scopes soon
    rcases kept.blocked earlier listed with failed | expired | ⟨row,stored,-⟩
    · exact failed
    · exact absurd soon (Nat.not_le.mpr expired)
    · have scopes : earlier.request.scope hashing = call.request.scope hashing := scopes
      rw [scopes] at stored
      cases absent.symm.trans stored
  · obtain ⟨run,old,facts⟩ := kept.replayed replay listed
    exact ⟨run,mem_append_left _ old,facts⟩

theorem Kept.completes (found : state.calls.lookup ticket = some call)
    (stage : call.stage = .completing stored)
    (own : ∀ row, state.rows.lookup (call.request.scope hashing) = some row → row.holder = ticket) :
    Kept hashing (state.complete (call.request.scope hashing) stored) := by
  unfold State.complete
  split
  next => exact kept
  next row there =>
    have holder : row.holder = ticket := own row there
    have rows' : ∀ {scope other}, (state.rows.insert (call.request.scope hashing)
        { row with answer := some stored }).lookup scope = some other →
          scope = call.request.scope hashing ∧ other = { row with answer := some stored } ∨ state.rows.lookup scope = some other := by
      intro scope other stored
      exact (lookup_insert_cases stored).imp_right And.right
    have filed := kept.filed _ row there
    have mine := kept.issued ticket call found
    obtain ⟨run,listed,began,same⟩ := kept.begun ticket call found (by simp [Call.holding,stage])
    obtain ⟨response,returned,recorded⟩ := kept.answering ticket call _ found stage
    refine ⟨kept.issued,fun scope other found => ?_,kept.alike,kept.asked,kept.begun,kept.thrown,kept.answering,
      fun scope other found empty => ?_,fun scope other answer found full => ?_,fun other listed => ?_,kept.apart,kept.replayed⟩
    · rcases rows' found with ⟨rfl,rfl⟩ | old
      · exact filed
      · exact kept.filed _ _ old
    · rcases rows' found with ⟨rfl,rfl⟩ | old
      · cases empty
      · exact kept.underway _ _ old empty
    · rcases rows' found with ⟨rfl,rfl⟩ | old
      · cases full
        obtain ⟨asker,asked,-,print⟩ := filed
        rw [holder,mine] at asked
        cases asked
        refine ⟨run,listed,by rw [same],?_,response,?_,recorded⟩
        · rw [same]
          exact print.symm
        · rw [began]
          exact returned
      · exact kept.answered _ _ _ old full
    · rcases kept.blocked other listed with failed | expired | ⟨before,stood,own,since⟩
      · exact .inl failed
      · exact .inr (.inl expired)
      · by_cases here : other.request.scope hashing = call.request.scope hashing
        · rw [here] at stood
          obtain rfl := Option.some.inj (there.symm.trans stood)
          refine .inr (.inr ⟨{ row with answer := some stored },?_,own,since⟩)
          rw [here]
          exact lookup_insert _
        · exact .inr (.inr ⟨before,(lookup_insert_ne here).trans stood,own,since⟩)

theorem Kept.releases (found : state.calls.lookup ticket = some call) (stage : call.stage = .releasing)
    (own : ∀ row, state.rows.lookup (call.request.scope hashing) = some row → row.holder = ticket) :
    Kept hashing (state.release (call.request.scope hashing)) := by
  unfold State.release
  split
  next => exact kept
  next row there =>
    split
    next =>
      have old : ∀ {scope other}, (state.rows.erase (call.request.scope hashing)).lookup scope = some other →
          state.rows.lookup scope = some other := by
        intro scope other stored
        obtain ⟨-,stored⟩ := lookup_erase_some stored
        exact stored
      refine ⟨kept.issued,fun scope other stored => kept.filed scope other (old stored),kept.alike,kept.asked,kept.begun,
        kept.thrown,kept.answering,fun scope other stored => kept.underway scope other (old stored),
        fun scope other answer stored => kept.answered scope other answer (old stored),fun run listed => ?_,kept.apart,kept.replayed⟩
      rcases kept.blocked run listed with failed | expired | ⟨other,stored,mine,since⟩
      · exact .inl failed
      · exact .inr (.inl expired)
      · by_cases here : run.request.scope hashing = call.request.scope hashing
        · rw [here] at stored
          rw [own other stored] at mine
          exact .inl (mine ▸ kept.thrown ticket call found stage)
        · exact .inr (.inr ⟨other,(lookup_erase_ne here).trans stored,mine,since⟩)
    next => exact kept

theorem Kept.ticks {time : Nat} (later : state.now ≤ time) : Kept hashing { state with now := time } := by
  refine ⟨kept.issued,kept.filed,kept.alike,kept.asked,kept.begun,kept.thrown,kept.answering,kept.underway,kept.answered,
    fun run listed => ?_,kept.apart,kept.replayed⟩
  exact (kept.blocked run listed).imp id (Or.imp (fun past => Nat.lt_of_lt_of_le past later) id)

theorem Kept.replays (found : state.calls.lookup ticket = some call)
    (there : state.rows.lookup (call.request.scope hashing) = some row) (print : row.fingerprint = call.request.fingerprint hashing)
    (full : row.answer = some stored) :
    Kept hashing { state with replays := state.replays ++ [(call.request,stored)] } := by
  refine ⟨kept.issued,kept.filed,kept.alike,kept.asked,kept.begun,kept.thrown,kept.answering,kept.underway,kept.answered,
    kept.blocked,kept.apart,fun replay listed => ?_⟩
  rcases mem_append.mp listed with old | new
  · exact kept.replayed replay old
  · obtain rfl := mem_singleton.mp new
    obtain ⟨run,ran,scopes,prints,answer⟩ := kept.answered _ row stored there full
    refine ⟨run,ran,?_,answer⟩
    exact kept.alike _ (kept.asked run ran) _ (mem_of_getElem? (kept.issued ticket call found)) scopes (prints.trans print)

theorem Kept.returns {response : Response Value} (ticket : Nat) :
    Kept hashing { state with returned := state.returned ++ [(ticket,response)] } := by
  have more : ∀ {other : Nat} {answer : Stored Value},
      (∃ response, (other,response) ∈ state.returned ∧ response.recorded = answer) →
        ∃ found, (other,found) ∈ state.returned ++ [(ticket,response)] ∧ found.recorded = answer := by
    rintro other answer ⟨found,listed,same⟩
    exact ⟨found,mem_append_left _ listed,same⟩
  refine ⟨kept.issued,kept.filed,kept.alike,kept.asked,kept.begun,kept.thrown,
    fun other call answer stored stage => more (kept.answering other call answer stored stage),kept.underway,
    fun scope row answer stored full => ?_,kept.blocked,kept.apart,fun replay listed => ?_⟩
  · obtain ⟨run,listed,scopes,prints,answered⟩ := kept.answered scope row answer stored full
    exact ⟨run,listed,scopes,prints,more answered⟩
  · obtain ⟨run,ran,same,answered⟩ := kept.replayed replay listed
    exact ⟨run,ran,same,more answered⟩

theorem Kept.throws (ticket : Nat) : Kept hashing { state with threw := state.threw ++ [ticket] } := by
  refine ⟨kept.issued,kept.filed,kept.alike,kept.asked,kept.begun,
    fun other call stored stage => mem_append_left _ (kept.thrown other call stored stage),kept.answering,kept.underway,
    kept.answered,fun run listed => (kept.blocked run listed).imp (mem_append_left _) id,?_,kept.replayed⟩
  exact kept.apart.imp fun within scopes soon => mem_append_left _ (within scopes soon)

theorem Kept.crashes (settled : ∀ scope row, state.rows.lookup scope = some row → row.answer.isSome = true) :
    Kept hashing { state with calls := ∅, sweptAt := ∅ } := by
  refine ⟨nofun,kept.filed,kept.alike,kept.asked,nofun,
    nofun,nofun,fun scope row stored empty => ?_,kept.answered,
    kept.blocked,kept.apart,kept.replayed⟩
  have full := settled scope row stored
  rw [empty] at full
  cases full

end

theorem kept_first (hashing : Hashing Value) : Kept hashing (State.first Value) :=
  ⟨nofun,nofun,nofun,
    nofun,nofun,nofun,
    nofun,nofun,nofun,
    nofun,List.Pairwise.nil,nofun⟩

theorem sweepable_old {organization : String} (sweepable : state.sweepable organization began gone = true)
    (listed : scope ∈ gone) (stored : state.rows.lookup scope = some row) : row.createdAt + window < began := by
  simp only [State.sweepable,Bool.and_eq_true] at sweepable
  have inside := contains_iff_mem.mp (all_eq_true.mp sweepable.1.1.1 scope listed)
  obtain ⟨⟨other,found⟩,kept,rfl⟩ := mem_map.mp inside
  obtain ⟨there,past⟩ := mem_filter.mp kept
  obtain rfl := Option.some.inj ((mem_rows.mp there).symm.trans stored)
  exact (of_decide_eq_true past).2

variable [DecidableEq Value] {event : Event Value}

section

variable (kept : Kept hashing state)
include kept

theorem Kept.written (found : state.calls.lookup ticket = some call)
    (own : ∀ row, state.rows.lookup (call.request.scope hashing) = some row → row.holder = ticket)
    (taken : step hashing state (.written ticket) = some next) : Kept hashing next := by
  simp only [step,found,bind_some] at taken
  split at taken
  next stored stage =>
    cases taken
    have filled := kept.completes found stage own
    have same : (state.complete (call.request.scope hashing) stored).calls = state.calls := by
      unfold State.complete
      split <;> rfl
    apply filled.ends (same ▸ found)
    intro _ row there empty
    unfold State.complete at there
    split at there
    next absent => cases absent.symm.trans there
    next =>
      obtain rfl := Option.some.inj ((lookup_insert _).symm.trans there)
      cases empty
  next stage =>
    cases taken
    have given := kept.releases found stage own
    have same : (state.release (call.request.scope hashing)).calls = state.calls := by
      unfold State.release
      split
      next => rfl
      next => split <;> rfl
    apply given.ends (same ▸ found)
    intro _ row there empty
    unfold State.release at there
    split at there
    next absent => cases absent.symm.trans there
    next first before =>
      split at there
      next => cases (lookup_erase _ _).symm.trans there
      next full =>
        obtain rfl := Option.some.inj (before.symm.trans there)
        exact absurd empty full
  next => cases taken

theorem Kept.unwritten (found : state.calls.lookup ticket = some call)
    (other : ∀ row, state.rows.lookup (call.request.scope hashing) = some row → row.holder ≠ ticket)
    (taken : step hashing state (.unwritten ticket) = some next) : Kept hashing next := by
  have ended : Kept hashing (state.ends ticket) := kept.ends found (fun _ row there _ => other row there)
  simp only [step,found,bind_some] at taken
  split at taken
  next =>
    cases taken
    exact ended
  next =>
    cases taken
    exact ended
  next => cases taken

theorem step_kept (spared : event.spares hashing state = true)
    (taken : step hashing state event = some next) : Kept hashing next := by
  cases event with
  | tick later =>
    simp only [step] at taken
    split at taken <;> cases taken
    exact kept.ticks ‹_›
  | arrives raw request =>
    simp only [step] at taken
    obtain ⟨-,taken⟩ := of_when taken
    cases taken
    apply kept.arrives
    intro other listed scopes prints
    have either := all_eq_true.mp spared other listed
    simpa [scopes,prints] using either
  | sweeps ticket began gone =>
    obtain ⟨call,found,taken⟩ := bind_eq_some_iff.mp taken
    obtain ⟨met,taken⟩ := of_when taken
    obtain ⟨stage,timely,sweepable⟩ := met
    cases taken
    have past : began ≤ state.now := of_decide_eq_true (Bool.and_eq_true_iff.mp timely).2
    have swept : Kept hashing (state.sweep gone) :=
      kept.sweeps fun scope listed row stored => Nat.lt_of_lt_of_le (sweepable_old sweepable listed stored) past
    exact swept.waits found rfl (by simp [Call.holding,stage]) rfl
  | sweepFails ticket =>
    obtain ⟨call,found,taken⟩ := bind_eq_some_iff.mp taken
    obtain ⟨stage,taken⟩ := of_when taken
    cases taken
    exact kept.waits found rfl (by simp [Call.holding,stage]) rfl
  | inserts ticket began =>
    obtain ⟨call,found,taken⟩ := bind_eq_some_iff.mp taken
    obtain ⟨met,taken⟩ := of_when taken
    have free : call.holding = false := by simp [Call.holding,met.1]
    split at taken
    next =>
      cases taken
      exact kept.waits found rfl free rfl
    next absent =>
      cases taken
      exact kept.claims found free absent
  | insertLost ticket began => cases spared
  | reads ticket =>
    obtain ⟨call,found,taken⟩ := bind_eq_some_iff.mp taken
    obtain ⟨stage,taken⟩ := of_when taken
    have free : call.holding = false := by simp [Call.holding,stage]
    split at taken
    next stored outcome =>
      cases taken
      cases there : state.rows.lookup (call.request.scope hashing) with
      | none => simp [there,judge] at outcome
      | some row =>
        simp only [there,judge] at outcome
        split at outcome
        next => cases outcome
        next print =>
          split at outcome <;> cases outcome
          next full => exact (kept.replays found there (Classical.not_not.mp print) full).quits found free
    next =>
      cases taken
      exact kept.quits found free
  | claimFails ticket =>
    obtain ⟨call,found,taken⟩ := bind_eq_some_iff.mp taken
    obtain ⟨met,taken⟩ := of_when taken
    cases taken
    apply kept.quits found
    rcases met with stage | stage
    all_goals simp [Call.holding,stage]
  | returns ticket response =>
    obtain ⟨call,found,taken⟩ := bind_eq_some_iff.mp taken
    obtain ⟨stage,taken⟩ := of_when taken
    cases taken
    refine @Kept.continues _ _ _ ticket call (call.moved _) (kept.returns ticket) found rfl ?_ ?_ ?_
    · simp [Call.holding,Call.moved,stage]
    · exact nofun
    · intro stored completing
      cases completing
      exact ⟨response,mem_append_right _ mem_cons_self,rfl⟩
  | throws ticket =>
    obtain ⟨call,found,taken⟩ := bind_eq_some_iff.mp taken
    obtain ⟨stage,taken⟩ := of_when taken
    cases taken
    refine @Kept.continues _ _ _ ticket call (call.moved _) (kept.throws ticket) found rfl ?_ ?_ ?_
    · simp [Call.holding,Call.moved,stage]
    · exact fun _ => mem_append_right _ mem_cons_self
    · exact nofun
  | written ticket =>
    obtain ⟨call,found,-⟩ := bind_eq_some_iff.mp taken
    apply kept.written found (fun row there => ?_) taken
    simpa [Event.spares,found,there] using spared
  | unwritten ticket =>
    obtain ⟨call,found,-⟩ := bind_eq_some_iff.mp taken
    apply kept.unwritten found (fun row there => ?_) taken
    simpa [Event.spares,found,there] using spared
  | crash =>
    cases taken
    exact kept.crashes (all_iff.mp spared)

theorem Kept.waited (idle : ∀ ticket call, state.calls.lookup ticket = some call →
      call.request.scope hashing = request.scope hashing → call.running = false) (waits : state.claim hashing request = .inFlight) :
    ∃ ticket next, step hashing state (.written ticket) = some next ∧ next.claim hashing request ≠ .inFlight := by
  unfold State.claim at waits
  cases there : state.rows.lookup (request.scope hashing) with
  | none => simp [there] at waits
  | some row =>
    have empty : row.answer = none := by
      simp only [there,judge] at waits
      split at waits
      next => cases waits
      next =>
        split at waits
        next empty => exact empty
        next => cases waits
    obtain ⟨call,found,held,here⟩ := kept.underway _ row there empty
    have still := idle _ call found here
    unfold Call.holding at held
    split at held
    next stage => simp [Call.running,stage] at still
    next stored stage =>
      refine ⟨row.holder,(state.complete (call.request.scope hashing) stored).ends row.holder,?_,?_⟩
      · simp [step,found,stage]
      · have full : ((state.complete (call.request.scope hashing) stored).ends row.holder).rows.lookup (request.scope hashing) =
            some { row with answer := some stored } := by
          rw [here]
          simp [State.complete,there,State.ends]
        simp only [State.claim,full,judge]
        split
        all_goals next => exact nofun
    next stage =>
      refine ⟨row.holder,(state.release (call.request.scope hashing)).ends row.holder,?_,?_⟩
      · simp [step,found,stage]
      · have gone : ((state.release (call.request.scope hashing)).ends row.holder).rows.lookup (request.scope hashing) = none := by
          rw [here]
          simp [State.release,there,State.ends,empty]
        simp only [State.claim,gone]
        exact nofun
    next => cases held

end

/-- Every reached state keeps what a key promises, as long as each completion and each release takes effect on its own
row, the process stops while nothing is in progress, and the requests at a key that look the same are the same. -/
theorem runs_once {events : List (Event Value)}
    (met : Machine.Meets (step hashing) (fun state event => event.spares hashing state = true) (State.first Value) events)
    (ran : Machine.run (step hashing) (State.first Value) events = some final) : Once hashing final := by
  have kept : Kept hashing final :=
    Machine.run_invariant (step hashing) (fun _ _ _ kept spared taken => step_kept kept spared taken) (kept_first hashing) met ran
  exact ⟨kept.apart,kept.replayed,fun _ idle waits => kept.waited idle waits⟩

def plain : Hashing String := ⟨fun text => text,fun text => text,fun text => text⟩

def folder : Request String := ⟨"org","ayşe","k-1","POST","/files/folders","","\x7b\"name\":\"a\"\x7d"⟩

def created : Response String := ⟨201,some "\x7b\"id\":7\x7d",[("etag",.text "v1"),("set-cookie",.text "s")]⟩

def retried : List (Event String) := [.arrives (some " k-1 ") folder,.sweeps 0 0 [],.inserts 0 0,.returns 0 created,.written 0,
  .arrives (some "k-1") folder,.inserts 1 0,.reads 1]

theorem runs_once_retried : ∃ final, Machine.run (step plain) (State.first String) retried = some final ∧
    final.replays = [(folder,⟨201,some "\x7b\"id\":7\x7d",[("etag","v1")]⟩)] ∧ Once plain final := by
  have runs : (Machine.run (step plain) (State.first String) retried).any (fun final =>
      final.replays = [(folder,⟨201,some "\x7b\"id\":7\x7d",[("etag","v1")]⟩)]) = true := by decide +kernel
  have met : Machine.Meets (step plain) (fun state event => event.spares plain state = true) (State.first String) retried := by
    decide +kernel
  obtain ⟨final,ran,replayed⟩ := (any_eq_true _ _).mp runs
  exact ⟨final,ran,of_decide_eq_true replayed,runs_once met ran⟩

/-- The completion fails after the folder is made, and nothing under way ends the row's progress. -/
theorem runs_stuck : ¬∀ events final, Machine.run (step plain) (State.first String) events = some final → Once plain final := by
  intro claimed
  have runs : (Machine.run (step plain) (State.first String)
      [.arrives (some "k-1") folder,.sweeps 0 0 [],.inserts 0 0,.returns 0 created,.unwritten 0]).any (fun final =>
        final.calls.rows = [] ∧ final.claim plain folder = .inFlight) = true := by decide +kernel
  obtain ⟨final,ran,stuck⟩ := (any_eq_true _ _).mp runs
  obtain ⟨empty,waits⟩ := of_decide_eq_true stuck
  have quiet : ∀ ticket, final.calls.lookup ticket = none := by
    intro ticket
    cases found : final.calls.lookup ticket with
    | none => rfl
    | some call =>
      have listed := mem_rows.mpr found
      rw [empty] at listed
      cases listed
  obtain ⟨ticket,next,taken,-⟩ := (claimed _ final ran).waited folder
    (fun ticket call found => by cases (quiet ticket).symm.trans found) waits
  simp [step,quiet] at taken

end Depsis.Common

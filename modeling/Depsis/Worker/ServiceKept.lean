import Depsis.Worker.Service

/-! What the loop keeps, whatever fails. A lease that is gone at one time stays gone until this worker claims again, and
it claims nothing while an execution is under way; so nothing is finished after a heartbeat has reported the loss, and
the failure reported after a success was already recorded finds no lease.
-/
namespace Depsis.Worker

open Depsis.Foundation AList Option
open Depsis.Jobs (Queue JobId Instant Outcome Raised Row Job claimJob finishJob heartbeatJob cancelJob enqueue archive reap committed
  update_ok insert_ok archive_ok claim_ok)

variable {uuidv7 : Nat → JobId} {worker : Service} {state next final : State} {queue after : Queue} {job id : JobId}
variable {workerId other : String} {now : Instant}

theorem heldAt_later {later : Instant} (gone : heldAt queue job workerId now = false) (time : now ≤ later) :
    heldAt queue job workerId later = false := by
  unfold heldAt at gone ⊢
  cases found : queue.queue.lookup job with
  | none => rfl
  | some row =>
    simp only [found,any_some,Job.heldBy,Bool.and_eq_false_iff] at gone ⊢
    rcases gone with either | lease
    · exact .inl either
    · refine .inr ?_
      cases limit : row.val.leaseUntil with
      | none => rfl
      | some until' =>
        simp only [limit,any_some,decide_eq_false_iff_not] at lease ⊢
        exact fun still => lease (Int.le_trans time still)

theorem heldAt_insert {row : Row} {drawn : Nat} (gone : heldAt queue job workerId now = false)
    (free : row.val.heldBy workerId now = false) :
    heldAt { queue with queue := queue.queue.insert id row, drawn := drawn } job workerId now = false := by
  simp only [heldAt,lookup_insert_eq]
  split
  next => exact free
  next => exact gone

variable {answer : Option Outcome} {error : Option String} {time : Instant}

section

variable (gone : heldAt queue job workerId now = false)
include gone

theorem heldAt_archive {settle : Job → Job}
    (archived : archive queue time settle id = .ok after) : heldAt after job workerId now = false := by
  cases found : queue.queue.lookup id with
  | none =>
    simp only [archive,found] at archived
    cases archived
    exact gone
  | some row =>
    obtain ⟨past,-,-,rfl⟩ := archive_ok found archived
    simp only [heldAt,lookup_erase_eq]
    split
    next => rfl
    next => exact gone

theorem heldAt_reap {kinds : List String} {skipped : List JobId}
    (reaped : reap queue time kinds skipped = .ok after) : heldAt after job workerId now = false := by
  unfold reap at reaped
  generalize Jobs.exhausted queue time kinds skipped = ids at reaped
  induction ids generalizing queue with
  | nil => cases reaped; exact gone
  | cons id rest ih =>
    rw [List.foldlM_cons] at reaped
    cases archived : archive queue time (Job.reaped time) id with
    | error raised => rw [archived] at reaped; cases reaped
    | ok middle =>
      rw [archived] at reaped
      exact ih (heldAt_archive gone archived) reaped

theorem heldAt_claim {kinds : List String} {leaseSecs : Option Int} {first second : List JobId} {answer : Option JobId} (apart : other ≠ workerId)
    (claimed : claimJob queue now other kinds leaseSecs first second = .ok (answer,after)) :
    heldAt after job workerId now = false := by
  obtain ⟨middle,reaped,⟨-,rfl⟩ | ⟨id,row,-,-,-,updated⟩⟩ := claim_ok claimed
  · exact heldAt_reap gone reaped
  · obtain ⟨stored,taken,rfl⟩ := update_ok updated
    apply heldAt_insert (heldAt_reap gone reaped)
    simp [taken,Job.claimed,Job.heldBy,apart]

theorem heldAt_heartbeat {leaseSecs : Option Int} {progress : Option Rat} {answer : Bool}
    (beaten : heartbeatJob queue now id other leaseSecs progress = .ok (answer,after)) :
    heldAt after job workerId now = false := by
  unfold heartbeatJob at beaten
  split at beaten
  next => cases beaten; exact gone
  next row found =>
    split at beaten
    next held =>
      cases updated : queue.update id (row.val.extended now leaseSecs progress) with
      | error raised => rw [updated] at beaten; cases beaten
      | ok final =>
        rw [updated] at beaten
        cases beaten
        obtain ⟨stored,taken,rfl⟩ := update_ok updated
        by_cases same : job = id
        · subst same
          simp only [heldAt,lookup_insert,any_some]
          have apart : row.val.workerId ≠ some workerId := by
            intro mine
            have holds : row.val.heldBy workerId now = true := by
              simp only [Job.heldBy,Bool.and_eq_true,decide_eq_true_eq] at held ⊢
              exact ⟨⟨mine,held.1.2⟩,held.2⟩
            simp only [heldAt,found,any_some] at gone
            cases gone.symm.trans holds
          simp [taken,Job.extended,Job.heldBy,apart]
        · simp only [heldAt,lookup_insert_ne same]
          exact gone
    next => cases beaten; exact gone

theorem heldAt_conclude {status : Jobs.Status}
    (concluded : Jobs.conclude queue time id status error = .ok (answer,after)) : heldAt after job workerId now = false := by
  unfold Jobs.conclude at concluded
  cases archived : archive queue time (Job.finished time status error) id with
  | error raised => rw [archived] at concluded; cases concluded
  | ok final =>
    rw [archived] at concluded
    cases concluded
    exact heldAt_archive gone archived

theorem heldAt_finish {outcome : Option String}
    (finished : finishJob queue now id other outcome error = .ok (answer,after)) : heldAt after job workerId now = false := by
  unfold finishJob at finished
  split at finished
  next => cases finished
  split at finished
  next => cases finished; exact gone
  next row found =>
    split at finished
    next => cases finished; exact gone
    split at finished
    next => exact heldAt_conclude gone finished
    split at finished
    next => exact heldAt_conclude gone finished
    split at finished
    next => cases finished
    next delay _ =>
      split at finished
      next updated =>
        cases finished
        obtain ⟨stored,taken,rfl⟩ := update_ok updated
        apply heldAt_insert gone
        simp [taken,Job.retried,Job.heldBy]
      next => exact heldAt_conclude gone finished
      next => cases finished

theorem heldAt_cancel {organization : String} {answer : Bool}
    (cancelled : cancelJob queue time organization id = .ok (answer,after)) : heldAt after job workerId now = false := by
  unfold cancelJob at cancelled
  split at cancelled
  next => cases cancelled; exact gone
  next row found =>
    split at cancelled
    next =>
      cases archived : archive queue time (Job.cancelled time) id with
      | error raised => rw [archived] at cancelled; cases cancelled
      | ok final =>
        rw [archived] at cancelled
        cases cancelled
        exact heldAt_archive gone archived
    next => cases cancelled; exact gone

theorem heldAt_enqueue {request : Jobs.Request} {quiet : Bool} :
    heldAt (enqueue uuidv7 queue time request quiet).2 job workerId now = false := by
  unfold enqueue
  simp only []
  split
  next final stored =>
    obtain ⟨row,taken,-,rfl⟩ := insert_ok stored
    apply heldAt_insert gone
    simp [taken,Jobs.Request.job,Job.heldBy]
  next => exact gone
  next => exact gone

theorem heldAt_committed {Answer : Type} {result : Except Raised (Answer × Queue)}
    (kept : ∀ answer after, result = .ok (answer,after) → heldAt after job workerId now = false) :
    heldAt (committed queue result) job workerId now = false := by
  cases result with
  | error raised => exact gone
  | ok pair => exact kept pair.1 pair.2 rfl

theorem heldAt_step {call : Jobs.Call} (time : callTime call = now)
    (apart : caller call ≠ some workerId) (taken : Jobs.step uuidv7 queue call = some after) :
    heldAt after job workerId now = false := by
  cases call with
  | enqueue _ request quiet =>
    cases taken
    exact heldAt_enqueue gone
  | claim _ taker kinds leaseSecs first second =>
    cases taken
    cases time
    exact heldAt_committed gone fun _ _ claimed => heldAt_claim gone (fun same => apart (congrArg some same)) claimed
  | heartbeat _ _ _ leaseSecs progress =>
    cases taken
    cases time
    exact heldAt_committed gone fun _ _ beaten => heldAt_heartbeat gone beaten
  | finish _ _ _ outcome error =>
    cases taken
    cases time
    exact heldAt_committed gone fun _ _ finished => heldAt_finish gone finished
  | cancel _ organization _ =>
    cases taken
    exact heldAt_committed gone fun _ _ cancelled => heldAt_cancel gone cancelled

end

theorem finish_held {outcome : Option String}
    (finished : finishJob queue now job workerId outcome error = .ok (answer,after)) (said : answer ≠ none) :
    heldAt queue job workerId now = true := by
  unfold finishJob at finished
  split at finished
  next => cases finished
  split at finished
  next => cases finished; exact absurd rfl said
  next row found =>
    split at finished
    next => cases finished; exact absurd rfl said
    next held =>
      simp only [heldAt,found,any_some]
      simpa using held

theorem unheld_archive {settle : Job → Job} (archived : archive queue time settle job = .ok after) :
    heldAt after job workerId now = false := by
  cases found : queue.queue.lookup job with
  | none =>
    simp only [archive,found] at archived
    cases archived
    simp [heldAt,found]
  | some row =>
    obtain ⟨past,-,-,rfl⟩ := archive_ok found archived
    simp [heldAt]

theorem unheld_conclude {status : Jobs.Status}
    (concluded : Jobs.conclude queue time job status error = .ok (answer,after)) : heldAt after job workerId now = false := by
  unfold Jobs.conclude at concluded
  cases archived : archive queue time (Job.finished time status error) job with
  | error raised => rw [archived] at concluded; cases concluded
  | ok final =>
    rw [archived] at concluded
    cases concluded
    exact unheld_archive archived

theorem unheld_finish {outcome : Option String}
    (finished : finishJob queue now job workerId outcome error = .ok (answer,after)) :
    heldAt after job workerId now = false := by
  unfold finishJob at finished
  split at finished
  next => cases finished
  split at finished
  next missing =>
    cases finished
    simp [heldAt,missing]
  next row found =>
    split at finished
    next free =>
      cases finished
      simp only [heldAt,found,any_some]
      simpa using free
    split at finished
    next => exact unheld_conclude finished
    split at finished
    next => exact unheld_conclude finished
    split at finished
    next => cases finished
    next delay _ =>
      split at finished
      next updated =>
        cases finished
        obtain ⟨stored,taken,rfl⟩ := update_ok updated
        simp [heldAt,taken,Job.retried,Job.heldBy]
      next => exact unheld_conclude finished
      next => cases finished

structure Kept (worker : Service) (state : State) : Prop where
  alone : ∀ number execution, state.executions.lookup number = some execution → execution.handler = .running →
    state.loop = .running number
  numbered : ∀ number execution, state.executions.lookup number = some execution → number < state.begun
  sent : ∀ beat there, state.beats.lookup beat = some there → there.execution < state.begun
  quiet : state.running = false → state.loop = .idle ∨ state.loop = .ended
  ended : state.loop = .ended → state.stopRequested = true
  current : ∀ number, state.loop.execution = some number → ∃ execution, state.executions.lookup number = some execution
  gone : ∀ number execution, state.loop.execution = some number → state.executions.lookup number = some execution →
    execution.held = false → heldAt state.queue execution.job worker.workerId state.now = false
  heard : ∀ beat there execution, state.beats.lookup beat = some there → there.answer = some false →
    state.loop.execution = some there.execution → state.executions.lookup there.execution = some execution →
      heldAt state.queue execution.job worker.workerId state.now = false
  told : ∀ number failure execution, state.loop = .reporting number failure →
    state.executions.lookup number = some execution → failure.isSome = true → execution.handler = .settled .returned →
      heldAt state.queue execution.job worker.workerId state.now = false
  asked : ∀ call ∈ state.asked, call.2 = true
  records : ∀ record ∈ state.records, record.answer ≠ none →
    record.lost = false ∧ (record.outcome = "failed" → record.returned = false)

section

variable (kept : Kept worker state)
include kept

theorem Kept.requeues
    (gone : ∀ job, heldAt state.queue job worker.workerId state.now = false → heldAt after job worker.workerId time = false) :
    Kept worker { state with now := time, queue := after } :=
  ⟨kept.alone,kept.numbered,kept.sent,kept.quiet,kept.ended,kept.current,
    fun number execution here found lost => gone _ (kept.gone number execution here found lost),
    fun beat there execution found answer here also => gone _ (kept.heard beat there execution found answer here also),
    fun number failure execution here found failed returned => gone _ (kept.told number failure execution here found failed returned),
    kept.asked,kept.records⟩

theorem Kept.running (some' : state.loop ≠ .idle) (going : state.loop ≠ .ended) :
    state.running = true := by
  cases running : state.running with
  | true => rfl
  | false =>
    rcases kept.quiet running with idle | ended
    · exact absurd idle some'
    · exact absurd ended going

theorem Kept.moves {loop : Loop}
    (free : ∀ number execution, state.executions.lookup number = some execution → execution.handler ≠ .running)
    (none' : loop.execution = none) (ended : loop = .ended → state.stopRequested = true) (running : state.running = true) :
    Kept worker { state with loop := loop } := by
  refine ⟨fun number execution found busy => absurd busy (free number execution found),kept.numbered,kept.sent,
    (fun stopped => by cases running.symm.trans stopped),ended,(fun _ here => by cases none'.symm.trans here),
    (fun _ _ here => by cases none'.symm.trans here),(fun _ _ _ _ _ here => by cases none'.symm.trans here),
    fun number failure execution here => ?_,kept.asked,kept.records⟩
  have here : loop = .reporting number failure := here
  rw [here] at none'
  cases none'

theorem Kept.free (apart : ∀ number, state.loop ≠ .running number) :
    ∀ number execution, state.executions.lookup number = some execution → execution.handler ≠ .running :=
  fun number execution found busy => apart number (kept.alone number execution found busy)

end

variable {number : Nat} {execution : Execution} {failure : Option String} {ending : Ending}

section

variable (here : state.loop.execution = some number)
include here

theorem Kept.settled (kept : Kept worker state)
    (found : state.executions.lookup number = some execution) (settled : execution.handler = .settled ending) :
    ∀ other there, state.executions.lookup other = some there → there.handler ≠ .running := by
  intro other there listed busy
  rw [kept.alone other there listed busy] at here
  cases here
  rw [found] at listed
  cases listed
  cases settled.symm.trans busy

theorem Kept.going (kept : Kept worker state) : state.running = true := by
  apply kept.running
  · intro idle
    rw [idle] at here
    cases here
  · intro ended
    rw [ended] at here
    cases here

theorem Kept.report (kept : Kept worker state)
    (found : state.executions.lookup number = some execution) (settled : execution.handler = .settled ending)
    (told : failure.isSome = true → execution.handler = .settled .returned →
      heldAt state.queue execution.job worker.workerId state.now = false) :
    Kept worker (state.report number execution.held failure) := by
  have free := kept.settled here found settled
  unfold State.report
  split
  next held =>
    have same : ∀ {other}, (Loop.reporting number failure).execution = some other → state.loop.execution = some other :=
      fun same => here.trans same
    refine ⟨fun other there listed busy => absurd busy (free other there listed),kept.numbered,kept.sent,
      (fun stopped => by cases (kept.going here).symm.trans stopped),nofun,
      fun other here => kept.current other (same here),fun other there here => kept.gone other there (same here),
      fun beat there later found answer here => kept.heard beat there later found answer (same here),
      fun other text there here listed => ?_,fun call listed => ?_,kept.records⟩
    · cases here
      rw [found] at listed
      cases listed
      exact told
    · rcases List.mem_append.mp listed with old | new
      · exact kept.asked call old
      · exact List.mem_singleton.mp new ▸ held
  next => exact kept.moves free rfl nofun (kept.going here)

end

theorem Kept.finish {outcome : String} {returned lost : Bool} (kept : Kept worker state)
    (took : state.finish worker job outcome error returned lost = some next)
    (fits : heldAt state.queue job worker.workerId state.now = true → lost = false ∧ (outcome = "failed" → returned = false)) :
    Kept worker next ∧ next.loop = state.loop ∧ next.executions = state.executions ∧ next.now = state.now ∧
      heldAt next.queue job worker.workerId next.now = false := by
  unfold State.finish at took
  split at took <;> cases took
  next answer after finished =>
    have moved : Kept worker { state with queue := after } :=
      @Kept.requeues _ state after state.now kept (fun _ gone => heldAt_finish gone finished)
    refine ⟨⟨moved.alone,moved.numbered,moved.sent,moved.quiet,moved.ended,moved.current,moved.gone,moved.heard,moved.told,
      moved.asked,fun record listed said => ?_⟩,rfl,rfl,rfl,unheld_finish finished⟩
    rcases List.mem_append.mp listed with old | new
    · exact kept.records record old said
    · obtain rfl := List.mem_singleton.mp new
      exact fits (finish_held finished said)

theorem meets_cases {took : Option State} (fate : Fate) : took = some (fate.meets state took).1 ∨
    (fate.meets state took).1 = state ∧ (fate.meets state took).2 = false ∧ (fate = .fails ∨ took = none) := by
  cases took with
  | none => cases fate <;> exact .inr ⟨rfl,rfl,.inr rfl⟩
  | some next =>
    cases fate with
    | answered => exact .inl rfl
    | lost => exact .inl rfl
    | fails => exact .inr ⟨rfl,rfl,.inl rfl⟩

section

variable (kept : Kept worker state)
include kept

theorem Kept.reported {fate : Fate} {message : String} (here : state.loop = .reporting number failure)
    (found : state.executions.lookup number = some execution) (settled : execution.handler = .settled ending)
    (spared : failure = none → heldAt state.queue execution.job worker.workerId state.now = true →
      fate ≠ .fails ∧ (state.finishOf worker execution none).isSome = true) :
    Kept worker ((fate.meets state (state.finishOf worker execution failure)).1.reported number execution failure
      (fate.meets state (state.finishOf worker execution failure)).2 message) := by
  have at' : state.loop.execution = some number := by rw [here]; rfl
  have fits : heldAt state.queue execution.job worker.workerId state.now = true →
      (!execution.held) = false ∧ (outcomeOf failure = "failed" → decide (execution.handler = .settled .returned) = false) := by
    intro held
    constructor
    · cases still : execution.held with
      | true => rfl
      | false => cases held.symm.trans (kept.gone number execution at' found still)
    · intro failed
      apply decide_eq_false
      intro returned
      cases failure with
      | none => simp [outcomeOf] at failed
      | some text => cases held.symm.trans (kept.told number _ execution here found rfl returned)
  have facts : Kept worker (fate.meets state (state.finishOf worker execution failure)).1 ∧
      (fate.meets state (state.finishOf worker execution failure)).1.loop = state.loop ∧
      (fate.meets state (state.finishOf worker execution failure)).1.executions = state.executions ∧
      (failure = none → heldAt (fate.meets state (state.finishOf worker execution failure)).1.queue execution.job worker.workerId
        (fate.meets state (state.finishOf worker execution failure)).1.now = false ∨
          (fate.meets state (state.finishOf worker execution failure)).2 = true) := by
    rcases @meets_cases state (state.finishOf worker execution failure) fate with took | ⟨same,-,none'⟩
    · obtain ⟨after,loops,executions,-,free⟩ := kept.finish took fits
      exact ⟨after,loops,executions,fun _ => .inl free⟩
    · rw [same]
      refine ⟨kept,rfl,rfl,fun success => .inl ?_⟩
      subst success
      cases held : heldAt state.queue execution.job worker.workerId state.now with
      | false => rfl
      | true =>
        obtain ⟨lives,takes⟩ := spared rfl held
        rcases none' with fails | nothing
        · exact absurd fails lives
        · rw [nothing] at takes
          cases takes
  generalize fate.meets state (state.finishOf worker execution failure) = met at facts ⊢
  obtain ⟨after,loops,executions,gone⟩ := facts
  have here' : met.1.loop.execution = some number := loops ▸ at'
  have found' : met.1.executions.lookup number = some execution := executions ▸ found
  unfold State.reported
  split
  next => exact after.moves (after.settled here' found' settled) rfl nofun (after.going here')
  next unheard =>
    split
    next success =>
      apply after.report here' found' settled
      intro _ _
      exact (gone (isNone_iff_eq_none.mp success)).resolve_right unheard
    next => exact after.moves (after.settled here' found' settled) rfl nofun (after.going here')

theorem Kept.between (none' : state.loop.execution = none) (after : Queue) :
    Kept worker { state with queue := after } := by
  refine ⟨kept.alone,kept.numbered,kept.sent,kept.quiet,kept.ended,kept.current,(fun _ _ here => by cases none'.symm.trans here),
    (fun _ _ _ _ _ here => by cases none'.symm.trans here),fun number failure execution here => ?_,kept.asked,kept.records⟩
  have here : state.loop = .reporting number failure := here
  rw [here] at none'
  cases none'

theorem Kept.execute (claiming : state.loop = .claiming) (job : JobId) : Kept worker (state.execute job) := by
  have free : ∀ number execution, state.executions.lookup number = some execution → execution.handler ≠ .running :=
    kept.free (by simp [claiming])
  have running : state.running = true := kept.running (by simp [claiming]) (by simp [claiming])
  unfold State.execute
  simp only []
  split
  next =>
    have cases' : ∀ {number execution}, (state.executions.insert state.begun ⟨job,true,.running⟩).lookup number = some execution →
        number = state.begun ∧ execution = ⟨job,true,.running⟩ ∨ state.executions.lookup number = some execution := by
      intro number execution stored
      exact (lookup_insert_cases stored).imp_right And.right
    have fresh : ∀ {there}, (state.executions.insert state.begun ⟨job,true,.running⟩).lookup state.begun = some there →
        there = ⟨job,true,.running⟩ := fun stored => (Option.some.inj ((lookup_insert _).symm.trans stored)).symm
    refine ⟨fun number execution stored busy => ?_,fun number execution stored => ?_,
      fun beat there stored => Nat.lt_succ_of_lt (kept.sent beat there stored),(fun stopped => by cases running.symm.trans stopped),
      nofun,fun number here => ?_,fun number execution here stored lost => ?_,
      fun beat there execution stored _ here => ?_,nofun,kept.asked,kept.records⟩
    · rcases cases' stored with ⟨rfl,-⟩ | old
      · rfl
      · exact absurd busy (free number execution old)
    · rcases cases' stored with ⟨rfl,-⟩ | old
      · exact Nat.lt_succ_self _
      · exact Nat.lt_succ_of_lt (kept.numbered number execution old)
    · cases here
      exact ⟨_,lookup_insert _⟩
    · cases here
      rw [fresh stored] at lost
      cases lost
    · have known := kept.sent beat there stored
      have here : state.begun = there.execution := Option.some.inj here
      omega
  next => exact kept.moves free rfl nofun running

theorem Kept.settles (found : state.executions.lookup number = some execution)
    (busy : execution.handler = .running) (ending : Ending) :
    Kept worker { state with executions := state.executions.insert number { execution with handler := .settled ending } } := by
  have loop := kept.alone number execution found busy
  have cases' : ∀ {other there}, (state.executions.insert number { execution with handler := .settled ending }).lookup other = some there →
      other = number ∧ there = { execution with handler := .settled ending } ∨ state.executions.lookup other = some there := by
    intro other there stored
    exact (lookup_insert_cases stored).imp_right And.right
  refine ⟨fun other there stored running => ?_,fun other there stored => ?_,kept.sent,kept.quiet,kept.ended,fun other here => ?_,
    fun other there here stored lost => ?_,fun beat sent there listed answer here stored => ?_,fun other text there here => ?_,
    kept.asked,kept.records⟩
  · rcases cases' stored with ⟨rfl,rfl⟩ | old
    · cases running
    · exact kept.alone other there old running
  · rcases cases' stored with ⟨rfl,-⟩ | old
    · exact kept.numbered _ _ found
    · exact kept.numbered other there old
  · obtain rfl : other = number := by simpa [loop,Loop.execution] using here.symm
    exact ⟨_,lookup_insert _⟩
  · rcases cases' stored with ⟨rfl,rfl⟩ | old
    · exact kept.gone _ execution here found lost
    · exact kept.gone other there here old lost
  · rcases cases' stored with ⟨same,rfl⟩ | old
    · exact kept.heard beat sent execution listed answer here (same ▸ found)
    · exact kept.heard beat sent there listed answer here old
  · have here : state.loop = .reporting other text := here
    cases loop.symm.trans here

end

variable {beat : Nat} {sent : Beat}

theorem Kept.answers (kept : Kept worker state) (number' : sent.execution < state.begun)
    (true' : sent.answer = some false → ∀ execution, state.loop.execution = some sent.execution →
      state.executions.lookup sent.execution = some execution → heldAt state.queue execution.job worker.workerId state.now = false) :
    Kept worker { state with beats := state.beats.insert beat sent } := by
  have cases' : ∀ {other there}, (state.beats.insert beat sent).lookup other = some there →
      there = sent ∨ state.beats.lookup other = some there := by
    intro other there stored
    rcases lookup_insert_cases stored with ⟨-,is⟩ | ⟨-,stored⟩
    · exact .inl is
    · exact .inr stored
  refine ⟨kept.alone,kept.numbered,fun other there stored => ?_,kept.quiet,kept.ended,kept.current,kept.gone,
    fun other there execution stored answer here found => ?_,kept.told,kept.asked,kept.records⟩
  · rcases cases' stored with rfl | old
    · exact number'
    · exact kept.sent other there old
  · rcases cases' stored with rfl | old
    · exact true' answer execution here found
    · exact kept.heard other there execution old answer here found

theorem Kept.drops (kept : Kept worker state) (beat : Nat) : Kept worker { state with beats := state.beats.erase beat } := by
  have old : ∀ {other there}, (state.beats.erase beat).lookup other = some there → state.beats.lookup other = some there := by
    intro other there stored
    obtain ⟨-,stored⟩ := lookup_erase_some stored
    exact stored
  exact ⟨kept.alone,kept.numbered,fun other there stored => kept.sent other there (old stored),kept.quiet,kept.ended,kept.current,
    kept.gone,fun other there execution stored => kept.heard other there execution (old stored),kept.told,kept.asked,kept.records⟩

theorem Kept.loses (kept : Kept worker state) (found : state.executions.lookup number = some execution)
    (gone : state.loop.execution = some number → heldAt state.queue execution.job worker.workerId state.now = false) :
    Kept worker { state with executions := state.executions.insert number { execution with held := false } } := by
  have cases' : ∀ {other there}, (state.executions.insert number { execution with held := false }).lookup other = some there →
      other = number ∧ there = { execution with held := false } ∨ state.executions.lookup other = some there := by
    intro other there stored
    exact (lookup_insert_cases stored).imp_right And.right
  refine ⟨fun other there stored running => ?_,fun other there stored => ?_,kept.sent,kept.quiet,kept.ended,fun other here => ?_,
    fun other there here stored lost => ?_,fun beat sent there listed answer here stored => ?_,
    fun other text there here stored failed returned => ?_,kept.asked,kept.records⟩
  · rcases cases' stored with ⟨rfl,rfl⟩ | old
    · exact kept.alone _ execution found running
    · exact kept.alone other there old running
  · rcases cases' stored with ⟨rfl,-⟩ | old
    · exact kept.numbered _ _ found
    · exact kept.numbered other there old
  · obtain ⟨there,old⟩ := kept.current other here
    by_cases same : other = number
    · subst same
      exact ⟨_,lookup_insert _⟩
    · exact ⟨there,(lookup_insert_ne same).trans old⟩
  · rcases cases' stored with ⟨rfl,rfl⟩ | old
    · exact gone here
    · exact kept.gone other there here old lost
  · rcases cases' stored with ⟨same,rfl⟩ | old
    · exact kept.heard beat sent execution listed answer here (same ▸ found)
    · exact kept.heard beat sent there listed answer here old
  · rcases cases' stored with ⟨rfl,rfl⟩ | old
    · exact kept.told _ text execution here found failed returned
    · exact kept.told other text there here old failed returned

variable {event : Event}

theorem refused_unheld {leaseSecs : Option Int} {progress : Option Rat}
    (beaten : heartbeatJob queue now job workerId leaseSecs progress = .ok (false,after)) :
    heldAt queue job workerId now = false ∧ after = queue := by
  unfold heartbeatJob at beaten
  split at beaten
  next missing =>
    cases beaten
    exact ⟨by simp [heldAt,missing],rfl⟩
  next row found =>
    split at beaten
    next =>
      cases updated : queue.update job (row.val.extended now leaseSecs progress) with
      | error raised | ok final => rw [updated] at beaten; cases beaten
    next free =>
      cases beaten
      refine ⟨?_,rfl⟩
      simp only [heldAt,found,any_some]
      simpa using free

section

variable (kept : Kept worker state)
include kept

theorem Kept.beaten {fate : Fate} (taken : step uuidv7 worker state (.beaten beat fate) = some next) :
    Kept worker next := by
  obtain ⟨sent,listed,rest⟩ := bind_eq_some_iff.mp taken
  obtain ⟨execution,found,ran⟩ := bind_eq_some_iff.mp rest
  clear taken rest
  have number' := kept.sent beat sent listed
  split at ran
  next =>
    split at ran
    next ok after beaten =>
      cases ran
      have moved : Kept worker { state with queue := after } :=
        @Kept.requeues _ state after state.now kept (fun _ gone => heldAt_heartbeat gone beaten)
      apply @Kept.answers worker _ beat { sent with answer := some ok } moved number'
      intro refused other _ also
      obtain rfl : ok = false := Option.some.inj refused
      obtain rfl := Option.some.inj (found.symm.trans also)
      obtain ⟨gone,rfl⟩ := refused_unheld beaten
      exact gone
    next ok after beaten =>
      cases ran
      have moved : Kept worker { state with queue := after } :=
        @Kept.requeues _ state after state.now kept (fun _ gone => heldAt_heartbeat gone beaten)
      exact moved.drops beat
    next =>
      cases ran
      exact kept.drops beat
  next => cases ran

theorem Kept.claims {first second : List JobId} {fate : Fate}
    (taken : step uuidv7 worker state (.claims first second fate) = some next) : Kept worker next := by
  simp only [step] at taken
  split at taken
  next claiming =>
    have none' : state.loop.execution = none := by rw [claiming]; rfl
    have running : state.running = true := kept.running (by simp [claiming]) (by simp [claiming])
    have sleeps : ∀ after, Kept worker { state with queue := after, loop := .sleeping } := by
      intro after
      have moved := kept.between none' after
      exact moved.moves (kept.free (by simp [claiming])) rfl nofun running
    split at taken
    next job after _ =>
      cases taken
      exact (kept.between none' after).execute claiming job
    next after _ =>
      cases taken
      exact sleeps after
    next after _ =>
      cases taken
      exact sleeps after
    next =>
      cases taken
      exact sleeps state.queue
  next => cases taken

theorem Kept.awakes (taken : step uuidv7 worker state .awakes = some next) : Kept worker next := by
  simp only [step] at taken
  split at taken
  next number here =>
    have at' : state.loop.execution = some number := by rw [here]; rfl
    obtain ⟨execution,found,taken⟩ := bind_eq_some_iff.mp taken
    split at taken
    next => cases taken
    next settled =>
      cases taken
      exact kept.report at' found settled nofun
    next message settled =>
      cases taken
      apply kept.report at' found settled
      intro _ returned
      cases settled.symm.trans returned
  next => cases taken

theorem Kept.reports {fate : Fate} {message : String}
    (spared : (Event.reports fate message).spares worker state = true)
    (taken : step uuidv7 worker state (.reports fate message) = some next) : Kept worker next := by
  simp only [step] at taken
  split at taken
  next job kind here =>
    cases taken
    have running : state.running = true := kept.running (by simp [here]) (by simp [here])
    have free := kept.free (by simp [here])
    rcases @meets_cases state
      (state.finish worker job "failed" (some ("no handler for '" ++ kind ++ "'")) false false) fate with took | ⟨same,heard,-⟩
    · obtain ⟨after,loops,executions,-,-⟩ := kept.finish took (fun _ => ⟨rfl,fun _ => rfl⟩)
      apply after.moves
      · rw [executions]
        exact free
      · split <;> rfl
      · split
        all_goals next => exact nofun
      · apply after.running
        all_goals
          rw [loops,here]
          exact nofun
    · rw [same,heard]
      exact kept.moves free rfl nofun running
  next number failure here =>
    obtain ⟨execution,found,rfl⟩ := map_eq_some_iff.mp taken
    cases handler : execution.handler with
    | running => cases (kept.alone number execution found handler).symm.trans here
    | settled ending =>
      apply kept.reported here found handler
      intro success held
      subst success
      have either : (!heldAt state.queue execution.job worker.workerId state.now ||
          (decide (fate ≠ .fails) && (state.finishOf worker execution none).isSome)) = true := by
        simpa only [Event.spares,here,found,all_some] using spared
      rw [held,Bool.not_true,Bool.false_or] at either
      obtain ⟨lives,takes⟩ := Bool.and_eq_true_iff.mp either
      exact ⟨of_decide_eq_true lives,takes⟩
  next => cases taken

theorem step_kept (spared : event.spares worker state = true)
    (taken : step uuidv7 worker state event = some next) : Kept worker next := by
  cases event with
  | tick later =>
    simp only [step] at taken
    obtain ⟨time,taken⟩ := of_when taken
    cases taken
    exact @Kept.requeues _ state state.queue later kept (fun _ gone => heldAt_later gone time)
  | registers kind =>
    simp only [step] at taken
    obtain ⟨-,taken⟩ := of_unless taken
    cases taken
    exact ⟨kept.alone,kept.numbered,kept.sent,kept.quiet,kept.ended,kept.current,kept.gone,kept.heard,kept.told,kept.asked,kept.records⟩
  | starts =>
    simp only [step] at taken
    obtain ⟨stopped,taken⟩ := of_unless taken
    cases taken
    have free : ∀ number execution, state.executions.lookup number = some execution → execution.handler ≠ .running := by
      apply kept.free
      intro number here
      rcases kept.quiet (by simpa using stopped) with idle | ended
      · cases here.symm.trans idle
      · cases here.symm.trans ended
    exact ⟨fun number execution found busy => absurd busy (free number execution found),kept.numbered,kept.sent,
      nofun,nofun,nofun,nofun,
      nofun,nofun,kept.asked,kept.records⟩
  | stops =>
    simp only [step] at taken
    obtain ⟨-,taken⟩ := of_when taken
    cases taken
    exact ⟨kept.alone,kept.numbered,kept.sent,kept.quiet,fun _ => rfl,kept.current,kept.gone,kept.heard,kept.told,kept.asked,kept.records⟩
  | stopped =>
    simp only [step] at taken
    obtain ⟨met,taken⟩ := of_when taken
    cases taken
    exact ⟨kept.alone,kept.numbered,kept.sent,fun _ => .inr met.2.2,kept.ended,kept.current,kept.gone,kept.heard,kept.told,kept.asked,
      kept.records⟩
  | goes =>
    simp only [step] at taken
    obtain ⟨head,taken⟩ := of_when taken
    cases taken
    apply kept.moves (kept.free (by simp [head]))
    · split <;> rfl
    · split
      next stop => exact fun _ => stop
      next => exact nofun
    · exact kept.running (by simp [head]) (by simp [head])
  | claims first second fate => exact kept.claims taken
  | wakes =>
    simp only [step] at taken
    obtain ⟨asleep,taken⟩ := of_when taken
    cases taken
    exact kept.moves (kept.free (by simp [asleep])) rfl nofun (kept.running (by simp [asleep]) (by simp [asleep]))
  | settles number ending =>
    obtain ⟨execution,found,taken⟩ := bind_eq_some_iff.mp taken
    obtain ⟨busy,taken⟩ := of_when taken
    cases taken
    exact kept.settles found busy ending
  | awakes => exact kept.awakes taken
  | reports fate message => exact kept.reports spared taken
  | beats beat number progress =>
    simp only [step] at taken
    obtain ⟨fresh,taken⟩ := of_unless taken
    cases taken
    cases found : state.executions.lookup number with
    | none => simp [found] at fresh
    | some execution =>
      apply @Kept.answers worker state beat ⟨number,progress,none⟩ kept (kept.numbered number execution found)
      exact nofun
  | beaten beat fate => exact kept.beaten taken
  | hears beat =>
    obtain ⟨sent,listed,taken⟩ := bind_eq_some_iff.mp taken
    obtain ⟨execution,found,taken⟩ := bind_eq_some_iff.mp taken
    split at taken
    next => cases taken
    next =>
      cases taken
      exact kept.drops beat
    next refused =>
      cases taken
      have lost := kept.loses found (fun here => kept.heard beat sent execution listed refused here found)
      exact lost.drops beat
  | others call =>
    simp only [step] at taken
    obtain ⟨met,taken⟩ := of_unless taken
    obtain ⟨apart,time⟩ := not_or.mp met
    obtain ⟨after,called,rfl⟩ := map_eq_some_iff.mp taken
    exact @Kept.requeues _ state after state.now kept
      (fun _ gone => heldAt_step gone (Classical.not_not.mp time) apart called)

end

theorem kept_first (worker : Service) (queue : Queue) : Kept worker (State.first queue) :=
  ⟨nofun,nofun,nofun,fun _ => .inl rfl,
    nofun,nofun,nofun,nofun,
    nofun,nofun,nofun⟩

theorem Kept.goesOn (kept : Kept worker state) (some' : state.loop ≠ .idle) (going : state.loop ≠ .ended) :
    (∃ number execution, state.loop = .running number ∧ state.executions.lookup number = some execution ∧
        execution.handler = .running) ∨
      ∃ event ∈ [Event.goes,.claims [] [] .fails,.wakes,.awakes,.reports .fails ""], (step uuidv7 worker state event).isSome = true := by
  cases here : state.loop with
  | idle => exact absurd here some'
  | ended => exact absurd here going
  | head => exact .inr ⟨.goes,by simp,by simp [step,here]⟩
  | claiming => exact .inr ⟨.claims [] [] .fails,by simp,by simp [step,here]⟩
  | sleeping => exact .inr ⟨.wakes,by simp,by simp [step,here]⟩
  | unhandled job kind => exact .inr ⟨.reports .fails "",by simp,by simp [step,here]⟩
  | running number =>
    obtain ⟨execution,found⟩ := kept.current number (by rw [here]; rfl)
    cases handler : execution.handler with
    | running => exact .inl ⟨number,execution,rfl,found,handler⟩
    | settled ending => exact .inr ⟨.awakes,by simp,by cases ending <;> simp [step,here,found,handler]⟩
  | reporting number failure =>
    obtain ⟨execution,found⟩ := kept.current number (by rw [here]; rfl)
    exact .inr ⟨.reports .fails "",by simp,by simp [step,here,found]⟩

/-- What the loop promises: it ends only after `stop` and is never stuck, one handler runs at a time, nothing is finished
after a heartbeat has reported the lease lost, and no failure is recorded of a job whose handler returned. -/
structure Truthful (uuidv7 : Nat → JobId) (worker : Service) (state : State) : Prop where
  ends : state.loop = .ended → state.stopRequested = true
  goesOn : state.loop ≠ .idle → state.loop ≠ .ended →
    (∃ number execution, state.loop = .running number ∧ state.executions.lookup number = some execution ∧
        execution.handler = .running) ∨
      ∃ event ∈ [Event.goes,.claims [] [] .fails,.wakes,.awakes,.reports .fails ""], (step uuidv7 worker state event).isSome = true
  alone : ∀ first second there here, state.executions.lookup first = some there → there.handler = .running →
    state.executions.lookup second = some here → here.handler = .running → first = second
  asked : ∀ call ∈ state.asked, call.2 = true
  kept : ∀ record ∈ state.records, record.answer ≠ none → record.lost = false
  returned : ∀ record ∈ state.records, record.answer ≠ none → record.outcome = "failed" → record.returned = false

/-- Every reached state keeps the promise, as long as each report of a success takes effect while the lease lasts. -/
theorem reports_truly {events : List Event}
    (met : Machine.Meets (step uuidv7 worker) (fun state event => event.spares worker state = true) (State.first queue) events)
    (ran : Machine.run (step uuidv7 worker) (State.first queue) events = some final) : Truthful uuidv7 worker final := by
  have kept : Kept worker final :=
    Machine.run_invariant (step uuidv7 worker) (fun _ _ _ kept spared taken => step_kept kept spared taken)
      (kept_first worker queue) met ran
  refine ⟨kept.ended,kept.goesOn,fun first second there here found busy also running => ?_,kept.asked,
    fun record listed said => (kept.records record listed said).1,fun record listed said => (kept.records record listed said).2⟩
  have same := (kept.alone first there found busy).symm.trans (kept.alone second here also running)
  cases same
  rfl

def uuids (draw : Nat) : JobId := draw

def process : Service := ⟨"1-a",60⟩

def worked : List Event := [.others (.enqueue 0 ⟨some "org","files.index",none,0,5,none⟩ false),.registers "files.index",.starts,.goes,
  .claims [] [] .answered,.tick 20000000,.beats 0 0 none,.beaten 0 .answered,.hears 0,.settles 0 .returned,.awakes]

theorem reports_truly_worked : ∃ final, Machine.run (step uuids process) (State.first .empty) (worked ++ [.reports .answered ""]) = some final ∧
    final.records = [⟨0,"succeeded",some (.finished .succeeded),true,false⟩] ∧ Truthful uuids process final := by
  have runs : (Machine.run (step uuids process) (State.first .empty) (worked ++ [.reports .answered ""])).any (fun final =>
      final.records = [⟨0,"succeeded",some (.finished .succeeded),true,false⟩]) = true := by decide +kernel
  have met : Machine.Meets (step uuids process) (fun state event => event.spares process state = true) (State.first .empty)
      (worked ++ [.reports .answered ""]) := by decide +kernel
  obtain ⟨final,ran,recorded⟩ := (any_eq_true _ _).mp runs
  exact ⟨final,ran,of_decide_eq_true recorded,reports_truly met ran⟩

/-- The report of the success fails without an effect, and the failure reported in its place queues the job again. -/
theorem reports_falsely : ¬∀ events final, Machine.run (step uuids process) (State.first .empty) events = some final →
    Truthful uuids process final := by
  intro claimed
  have runs : (Machine.run (step uuids process) (State.first .empty)
      (worked ++ [.reports .fails "connection terminated",.reports .answered ""])).any (fun final =>
        final.records = [⟨0,"failed",some .requeued,true,false⟩]) = true := by decide +kernel
  obtain ⟨final,ran,recorded⟩ := (any_eq_true _ _).mp runs
  have recorded := of_decide_eq_true recorded
  have never := (claimed _ final ran).returned _ (recorded ▸ List.mem_cons_self) (fun none' => by cases none') rfl
  cases never

end Depsis.Worker

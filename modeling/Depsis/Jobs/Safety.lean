import Depsis.Foundation.Machine
import Depsis.Jobs.Lifecycle
import Depsis.Jobs.Queue

/-! The tables follow the job's life: every call moves every job along `Lives`,
and what holds of each life then holds of each run of the queue.
-/
namespace Depsis.Jobs

open Depsis.Foundation List AList

def Job.life (job : Job) : Life :=
  if job.status = .running then
    match job.workerId with
    | some workerId => .held workerId job.attempt job.maxAttempts
    | none => .waiting job.attempt job.maxAttempts
  else .waiting job.attempt job.maxAttempts

namespace Queue

def life (queue : Queue) (id : JobId) : Life :=
  match queue.queue.lookup id,queue.history.lookup id with
  | some row,_ => row.val.life
  | none,some past => .settled past.row.val.attempt past.row.val.maxAttempts
  | none,none => .absent

def Known (queue : Queue) (id : JobId) : Prop :=
  (queue.queue.lookup id).isSome = true ∨ (queue.history.lookup id).isSome = true

end Queue

variable (uuidv7 : Nat → JobId)

structure Sound (queue : Queue) : Prop where
  apart : ∀ id, (queue.queue.lookup id).isSome = true → queue.history.lookup id = none
  issued : ∀ id, queue.Known id → ∃ draw < queue.drawn, uuidv7 draw = id

def about (id : JobId) (events : List (JobId × Event)) : List Event :=
  events.filterMap (fun event => if event.1 = id then some event.2 else none)

@[simp] theorem about_nil (id : JobId) : about id [] = [] := rfl

@[simp] theorem about_append (id : JobId) (first second : List (JobId × Event)) :
    about id (first++second) = about id first ++ about id second :=
  filterMap_append

@[simp] theorem mem_about {id : JobId} {events : List (JobId × Event)} {event : Event} :
    event ∈ about id events ↔ (id,event) ∈ events := by
  simp only [about,mem_filterMap,Option.ite_none_right_eq_some,Option.some.injEq]
  constructor
  · rintro ⟨⟨other,happened⟩,member,rfl,rfl⟩
    exact member
  · exact fun member => ⟨(id,event),member,rfl,rfl⟩

structure Advances (before : Queue) (events : List (JobId × Event)) (after : Queue) : Prop where
  sound : Sound uuidv7 after
  lives : ∀ id, Lives (before.life id) (about id events) (after.life id)

variable {uuidv7} {before middle after queue next : Queue} {id : JobId} {now : Instant}
variable {first second events : List (JobId × Event)}

namespace Advances

theorem rest (sound : Sound uuidv7 queue) : Advances uuidv7 queue [] queue :=
  ⟨sound,fun id => .rest (queue.life id)⟩

theorem trans (left : Advances uuidv7 before first middle) (right : Advances uuidv7 middle second after) :
    Advances uuidv7 before (first++second) after :=
  ⟨right.sound,fun id => by simpa using (left.lives id).follow (right.lives id)⟩

end Advances

theorem checked_ok {job : Job} {row : Row} (passed : checked job = .ok row) : row.val = job := by
  unfold checked at passed
  split at passed <;> cases passed
  next sane => rfl

theorem update_ok {job : Job} (updated : queue.update id job = .ok next) :
    ∃ row : Row, row.val = job ∧ next = {queue with queue := queue.queue.insert id row} := by
  unfold Queue.update at updated
  split at updated
  next => cases updated
  next row passed =>
    split at updated <;> cases updated
    exact ⟨row,checked_ok passed,rfl⟩

theorem insert_ok {job : Job} (inserted : queue.insert id job = .ok next) :
    ∃ row : Row, row.val = job ∧ 0 < job.maxAttempts ∧
      next = {queue with queue := queue.queue.insert id row} := by
  unfold Queue.insert at inserted
  split at inserted
  next => cases inserted
  next row passed =>
    have stored := checked_ok passed
    have positive := stored ▸ row.property.attemptsSane.2
    split at inserted
    next => cases inserted
    next =>
      split at inserted <;> cases inserted
      exact ⟨row,stored,positive,rfl⟩

theorem archive_ok {settle : Job → Job} {row : Row} (found : queue.queue.lookup id = some row)
    (archived : archive queue now settle id = .ok next) :
    ∃ past : Row, past.val = settle row.val ∧ queue.history.lookup id = none ∧
      next = {queue with queue := queue.queue.erase id, history := queue.history.insert id ⟨past,now⟩} := by
  simp only [archive,found] at archived
  split at archived
  next => cases archived
  next absent =>
    split at archived <;> cases archived
    next past passed => exact ⟨past,checked_ok passed,by simpa using absent,rfl⟩

theorem store_advances (told : List Event) (sound : Sound uuidv7 queue) {row : Row} {drawn : Nat}
    (absent : queue.history.lookup id = none) (more : queue.drawn ≤ drawn)
    (given : ∃ draw < drawn, uuidv7 draw = id) (lives : Lives (queue.life id) told row.val.life) :
    Advances uuidv7 queue (told.map (id,·))
      {queue with queue := queue.queue.insert id row, drawn := drawn} where
  sound := by
    constructor
    · intro other stored
      by_cases same : other = id
      · exact same ▸ absent
      · rw [lookup_insert_eq,if_neg same] at stored
        exact sound.apart other stored
    · intro other known
      by_cases same : other = id
      · exact same ▸ given
      · obtain ⟨draw,bound,drew⟩ := sound.issued other (by
          simpa [Queue.Known,lookup_insert_eq,same] using known)
        exact ⟨draw,bound.trans_le more,drew⟩
  lives := by
    intro other
    by_cases same : other = id
    · subst same
      have told : about other (told.map (other,·)) = told := by
        simp [about,filterMap_map]
      simpa only [told,Queue.life,lookup_insert] using lives
    · have quiet : about other (told.map (id,·)) = [] := by
        simp [about,filterMap_map,Ne.symm same]
      simp only [quiet,Queue.life,lookup_insert_eq,if_neg same]
      exact .rest _

theorem update_advances (told : List Event) (sound : Sound uuidv7 queue) {row : Row} {job : Job}
    (found : queue.queue.lookup id = some row) (updated : queue.update id job = .ok next)
    (lives : Lives row.val.life told job.life) :
    Advances uuidv7 queue (told.map (id,·)) next := by
  obtain ⟨stored,rfl,rfl⟩ := update_ok updated
  have present : (queue.queue.lookup id).isSome = true := by simp [found]
  have current : queue.life id = row.val.life := by simp [Queue.life,found]
  exact store_advances told sound (sound.apart id present) le_rfl (sound.issued id (.inl present))
    (current ▸ lives)

theorem life_pending (job : Job) : job.life.Pending job.attempt job.maxAttempts := by
  unfold Job.life
  split
  · split
    next workerId named => exact .inr ⟨workerId,rfl⟩
    next => exact .inl rfl
  · exact .inl rfl

theorem archive_advances (sound : Sound uuidv7 queue) {settle : Job → Job} {row : Row}
    (found : queue.queue.lookup id = some row) (archived : archive queue now settle id = .ok next)
    (keeps : ∀ job, (settle job).attempt = job.attempt ∧ (settle job).maxAttempts = job.maxAttempts) :
    Advances uuidv7 queue [] next := by
  obtain ⟨past,settled,absent,rfl⟩ := archive_ok found archived
  constructor
  · constructor
    · intro other stored
      by_cases same : other = id
      · rw [same,lookup_erase] at stored
        cases stored
      · simp only [lookup_erase_eq,lookup_insert_eq,if_neg same] at stored ⊢
        exact sound.apart other stored
    · intro other known
      by_cases same : other = id
      · exact same ▸ sound.issued id (.inl (by simp [found]))
      · exact sound.issued other (by
          simpa [Queue.Known,lookup_erase_eq,lookup_insert_eq,same] using known)
  · intro other
    by_cases same : other = id
    · subst same
      have settled := settled ▸ keeps row.val
      simp only [Queue.life,found,lookup_erase,lookup_insert,settled,about_nil]
      exact .settle (life_pending row.val)
    · simp only [Queue.life,lookup_erase_eq,lookup_insert_eq,if_neg same,about_nil]
      exact .rest _

theorem reap_advances (sound : Sound uuidv7 queue) {kinds : List String} {skipped : List JobId}
    (reaped : reap queue now kinds skipped = .ok next) : Advances uuidv7 queue [] next := by
  unfold reap at reaped
  generalize exhausted queue now kinds skipped = ids at reaped
  induction ids generalizing queue with
  | nil => cases reaped; exact .rest sound
  | cons id rest ih =>
    rw [foldlM_cons] at reaped
    cases archived : archive queue now (Job.reaped now) id with
    | error raised => rw [archived] at reaped; cases reaped
    | ok middle =>
      rw [archived] at reaped
      have here : Advances uuidv7 queue [] middle := by
        cases found : queue.queue.lookup id with
        | none =>
          simp only [archive,found] at archived
          cases archived
          exact .rest sound
        | some row => exact archive_advances sound found archived (fun job => ⟨rfl,rfl⟩)
      exact here.trans (ih here.sound reaped)

theorem claimed_life (job : Job) (workerId : String) (leaseSecs : Option Int) :
    (job.claimed now workerId leaseSecs).life = .held workerId (job.attempt + 1) job.maxAttempts := rfl

theorem firstClaimed_mem {entries : List (JobId × Row)} {entry : JobId × Row}
    (picked : firstClaimed entries = some entry) : entry ∈ entries := by
  induction entries generalizing entry with
  | nil => cases picked
  | cons head rest ih =>
    unfold firstClaimed at picked
    split at picked
    next => cases picked; exact mem_cons_self
    next best found =>
      cases picked
      split
      · exact mem_cons_self
      · exact mem_cons_of_mem _ (ih found)

variable {workerId : String} {skippedReaping skippedPicking : List JobId} {leaseSecs : Option Int}

theorem claim_ok {kinds : List String}
    {answer : Option JobId}
    (claimed : claimJob queue now workerId kinds leaseSecs skippedReaping skippedPicking =
      .ok (answer,next)) :
    ∃ middle, reap queue now kinds skippedReaping = .ok middle ∧
      (answer = none ∧ next = middle ∨
        ∃ id row, answer = some id ∧ middle.queue.lookup id = some row ∧
          row.val.attempt < row.val.maxAttempts ∧
          middle.update id (row.val.claimed now workerId leaseSecs) = .ok next) := by
  unfold claimJob at claimed
  split at claimed
  next => cases claimed
  next middle reaped =>
    refine ⟨middle,reaped,?_⟩
    split at claimed
    next => cases claimed; exact .inl ⟨rfl,rfl⟩
    next id row picked =>
      obtain ⟨member,allowed⟩ := mem_filter.mp (firstClaimed_mem picked)
      simp only [Bool.and_eq_true,decide_eq_true_eq] at allowed
      cases updated : middle.update id (row.val.claimed now workerId leaseSecs) with
      | error raised => rw [updated] at claimed; cases claimed
      | ok final =>
        rw [updated] at claimed
        cases claimed
        exact .inr ⟨id,row,rfl,mem_rows.mp member,allowed.1.1.2,updated⟩

def claimEvents (workerId : String) (answer : Option JobId) : List (JobId × Event) :=
  match answer with
  | none => []
  | some id => [(id,.claimed workerId)]

theorem claim_advances (sound : Sound uuidv7 queue) {kinds : List String}
    {answer : Option JobId}
    (claimed : claimJob queue now workerId kinds leaseSecs skippedReaping skippedPicking =
      .ok (answer,next)) : Advances uuidv7 queue (claimEvents workerId answer) next := by
  obtain ⟨middle,reaped,⟨rfl,rfl⟩ | ⟨id,row,rfl,found,allowed,updated⟩⟩ := claim_ok claimed
  · exact reap_advances sound reaped
  · have dead := reap_advances sound reaped
    exact dead.trans (update_advances [.claimed workerId] dead.sound found updated
      (.claim workerId (life_pending row.val) allowed))

theorem claim_holder {kinds : List String}
   
    (claimed : claimJob queue now workerId kinds leaseSecs skippedReaping skippedPicking =
      .ok (some id,next)) : (next.life id).holder = some workerId := by
  obtain ⟨middle,-,⟨absurd,-⟩ | ⟨other,row,same,-,-,updated⟩⟩ := claim_ok claimed
  · cases absurd
  · cases same
    obtain ⟨stored,taken,rfl⟩ := update_ok updated
    simp [Queue.life,taken,claimed_life,Life.holder]

theorem heldBy_life {job : Job} (held : job.heldBy workerId now = true) :
    job.life = .held workerId job.attempt job.maxAttempts := by
  simp only [Job.heldBy,Bool.and_eq_true,decide_eq_true_eq] at held
  simp [Job.life,held]

section

variable (sound : Sound uuidv7 queue)
include sound

theorem heartbeat_advances
    {progress : Option Rat} {answer : Bool}
    (extended : heartbeatJob queue now id workerId leaseSecs progress = .ok (answer,next)) :
    Advances uuidv7 queue [] next := by
  unfold heartbeatJob at extended
  split at extended
  next => cases extended; exact .rest sound
  next row found =>
    split at extended
    next held =>
      cases updated : queue.update id (row.val.extended now leaseSecs progress) with
      | error raised => rw [updated] at extended; cases extended
      | ok final =>
        rw [updated] at extended
        cases extended
        exact update_advances [] sound found updated (.rest _)
    next => cases extended; exact .rest sound

theorem conclude_advances {status : Status} {error : Option String}
    {row : Row} {answer : Option Outcome} (found : queue.queue.lookup id = some row)
    (concluded : conclude queue now id status error = .ok (answer,next)) :
    Advances uuidv7 queue [] next := by
  unfold conclude at concluded
  cases archived : archive queue now (Job.finished now status error) id with
  | error raised => rw [archived] at concluded; cases concluded
  | ok final =>
    rw [archived] at concluded
    cases concluded
    exact archive_advances sound found archived (fun job => ⟨rfl,rfl⟩)

theorem finish_advances
    {outcome error : Option String} {answer : Option Outcome}
    (finished : finishJob queue now id workerId outcome error = .ok (answer,next)) :
    Advances uuidv7 queue [] next := by
  unfold finishJob at finished
  split at finished
  next => cases finished
  split at finished
  next => cases finished; exact .rest sound
  next row found =>
    split at finished
    next => cases finished; exact .rest sound
    next held =>
      replace held : row.val.heldBy workerId now = true := by simpa using held
      split at finished
      next => exact conclude_advances sound found finished
      next =>
        split at finished
        next => exact conclude_advances sound found finished
        next =>
          split at finished
          next => cases finished
          next delay power =>
            split at finished
            next final updated =>
              cases finished
              refine update_advances [] sound found updated ?_
              rw [heldBy_life held]
              exact .retry workerId row.val.attempt row.val.maxAttempts
            next => exact conclude_advances sound found finished
            next => cases finished

theorem cancel_advances {organization : String} {answer : Bool}
    (cancelled : cancelJob queue now organization id = .ok (answer,next)) :
    Advances uuidv7 queue [] next := by
  unfold cancelJob at cancelled
  split at cancelled
  next => cases cancelled; exact .rest sound
  next row found =>
    split at cancelled
    next =>
      cases archived : archive queue now (Job.cancelled now) id with
      | error raised => rw [archived] at cancelled; cases cancelled
      | ok final =>
        rw [archived] at cancelled
        cases cancelled
        exact archive_advances sound found archived (fun job => ⟨rfl,rfl⟩)
    next => cases cancelled; exact .rest sound

theorem draw_advances :
    Advances uuidv7 queue [] {queue with drawn := queue.drawn + 1} := by
  refine ⟨⟨sound.apart,fun id known => ?_⟩,fun id => .rest _⟩
  obtain ⟨draw,bound,drew⟩ := sound.issued id known
  exact ⟨draw,Nat.lt_succ_of_lt bound,drew⟩

end

def enqueueEvents (request : Request) (answer : Except Raised (Option JobId)) : List (JobId × Event) :=
  match answer with
  | .ok (some id) => [(id,.enqueued request.maxAttempts)]
  | _ => []

theorem enqueue_advances (unique : Function.Injective uuidv7) (sound : Sound uuidv7 queue)
    (now : Instant) (request : Request) (onConflictDoNothing : Bool) :
    Advances uuidv7 queue (enqueueEvents request (enqueue uuidv7 queue now request onConflictDoNothing).1)
      (enqueue uuidv7 queue now request onConflictDoNothing).2 := by
  unfold enqueue
  dsimp only
  split
  next next inserted =>
    obtain ⟨row,stored,positive,rfl⟩ := insert_ok inserted
    have fresh : ¬ queue.Known (uuidv7 queue.drawn) := by
      intro known
      obtain ⟨draw,bound,drew⟩ := sound.issued _ known
      exact absurd (unique drew) (by omega)
    obtain ⟨unqueued,unsettled⟩ := not_or.mp fresh
    have absent : queue.life (uuidv7 queue.drawn) = .absent := by
      simp_all [Queue.life]
    refine store_advances [.enqueued request.maxAttempts] sound (by simpa using unsettled)
      (Nat.le_succ _) ⟨queue.drawn,Nat.lt_succ_self _,rfl⟩ ?_
    rw [absent,stored]
    exact .enqueue positive
  next => cases onConflictDoNothing <;> exact draw_advances sound
  next => exact draw_advances sound

variable (uuidv7) in
def observe (queue : Queue) : Call → List (JobId × Event)
  | .enqueue now request onConflictDoNothing =>
    enqueueEvents request (enqueue uuidv7 queue now request onConflictDoNothing).1
  | .claim now workerId kinds leaseSecs skippedReaping skippedPicking =>
    match claimJob queue now workerId kinds leaseSecs skippedReaping skippedPicking with
    | .ok (answer,_) => claimEvents workerId answer
    | .error _ => []
  | _ => []

theorem committed_advances {Answer : Type} (sound : Sound uuidv7 queue)
    {result : Except Raised (Answer × Queue)}
    (each : ∀ answer next, result = .ok (answer,next) → Advances uuidv7 queue [] next) :
    Advances uuidv7 queue [] (committed queue result) := by
  cases result with
  | error raised => exact .rest sound
  | ok pair => exact each pair.1 pair.2 rfl

theorem step_advances (unique : Function.Injective uuidv7) (sound : Sound uuidv7 queue) {call : Call}
    (taken : step uuidv7 queue call = some next) :
    Advances uuidv7 queue (observe uuidv7 queue call) next := by
  cases call with
  | enqueue now request onConflictDoNothing =>
    cases taken
    exact enqueue_advances unique sound now request onConflictDoNothing
  | claim now workerId kinds leaseSecs skippedReaping skippedPicking =>
    cases taken
    simp only [observe]
    cases claimed : claimJob queue now workerId kinds leaseSecs skippedReaping skippedPicking with
    | error raised => exact .rest sound
    | ok pair => exact claim_advances sound claimed
  | heartbeat now id workerId leaseSecs progress =>
    cases taken
    exact committed_advances sound (fun _ _ => heartbeat_advances sound)
  | finish now id workerId outcome error =>
    cases taken
    exact committed_advances sound (fun _ _ => finish_advances sound)
  | cancel now organization id =>
    cases taken
    exact committed_advances sound (fun _ _ => cancel_advances sound)

theorem run_advances (unique : Function.Injective uuidv7) (sound : Sound uuidv7 queue)
    {calls : List Call} (ran : Machine.run (step uuidv7) queue calls = some after) :
    Advances uuidv7 queue (Machine.trace (step uuidv7) (observe uuidv7) queue calls) after :=
  Machine.run_trace_invariant (step uuidv7) (Advances uuidv7 queue)
    (fun _ _ _ _ held taken => held.trans (step_advances unique held.sound taken)) (.rest sound) ran

theorem empty_sound : Sound uuidv7 .empty := by
  constructor
  · exact fun _ _ => rfl
  · intro id known
    simp [Queue.Known,Queue.empty] at known

theorem queued_unsettled (sound : Sound uuidv7 queue) {past : Past}
    (settled : queue.history.lookup id = some past) : queue.queue.lookup id = none := by
  cases queued : queue.queue.lookup id with
  | none => rfl
  | some row => simp [sound.apart id (by simp [queued])] at settled

theorem settled_kept {events : List (JobId × Event)} (moved : Advances uuidv7 queue events after)
    (sound : Sound uuidv7 queue) (settled : id ∈ queue.history) :
    id ∈ after.history ∧ id ∉ after.queue := by
  obtain ⟨past,found⟩ := Option.isSome_iff_exists.mp (lookup_isSome.mpr settled)
  have unqueued := queued_unsettled sound found
  have here : queue.life id = .settled past.row.val.attempt past.row.val.maxAttempts := by
    simp [Queue.life,unqueued,found]
  have same := ((moved.lives id).settled_final here).1.trans here
  have absent : after.queue.lookup id = none := by
    cases queued : after.queue.lookup id with
    | none => rfl
    | some row =>
      obtain waiting | ⟨holder,held⟩ := life_pending row.val
      · simp [Queue.life,queued,waiting] at same
      · simp [Queue.life,queued,held] at same
  refine ⟨lookup_isSome.mp ?_,lookup_eq_none.mp absent⟩
  cases gone : after.history.lookup id with
  | none => simp [Queue.life,absent,gone] at same
  | some past => rfl

def Accepts (queue : Queue) (id : JobId) (workerId : String) : Prop :=
  (∃ now leaseSecs progress next,
    heartbeatJob queue now id workerId leaseSecs progress = .ok (true,next)) ∨
  ∃ now outcome error answer next,
    finishJob queue now id workerId outcome error = .ok (some answer,next)

def Refuses (queue : Queue) (id : JobId) (workerId : String) : Prop :=
  (∀ now leaseSecs progress, heartbeatJob queue now id workerId leaseSecs progress = .ok (false,queue)) ∧
  ∀ now outcome error, outcomeKnown outcome = true →
    finishJob queue now id workerId outcome error = .ok (none,queue)

theorem accepts_holder (accepted : Accepts queue id workerId) :
    (queue.life id).holder = some workerId := by
  have held : ∃ row : Row, ∃ now : Instant, queue.queue.lookup id = some row ∧
      row.val.heldBy workerId now = true := by
    rcases accepted with ⟨now,leaseSecs,progress,next,extended⟩ | ⟨now,outcome,error,answer,next,finished⟩
    · unfold heartbeatJob at extended
      split at extended
      next => cases extended
      next row found =>
        split at extended
        next held => exact ⟨row,now,found,held⟩
        next => cases extended
    · unfold finishJob at finished
      split at finished
      next => cases finished
      split at finished
      next => cases finished
      next row found =>
        split at finished
        next => cases finished
        next held => exact ⟨row,now,found,by simpa using held⟩
  obtain ⟨row,now,found,held⟩ := held
  simp [Queue.life,found,heldBy_life held,Life.holder]

theorem refuses_of_holder (other : (queue.life id).holder ≠ some workerId) :
    Refuses queue id workerId := by
  have free : ∀ row : Row, queue.queue.lookup id = some row → ∀ now,
      row.val.heldBy workerId now = false := by
    intro row found now
    cases held : row.val.heldBy workerId now with
    | false => rfl
    | true => simp [Queue.life,found,heldBy_life held,Life.holder] at other
  constructor
  · intro now leaseSecs progress
    cases found : queue.queue.lookup id with
    | none => simp [heartbeatJob,found]
    | some row => simp [heartbeatJob,found,free row found now]
  · intro now outcome error known
    cases found : queue.queue.lookup id with
    | none => simp [finishJob,found,known]
    | some row => simp [finishJob,found,known,free row found now]

def claims (id : JobId) (events : List (JobId × Event)) : Nat :=
  (about id events).countP Event.isClaim

variable (uuidv7) in
structure Safe (told : List (JobId × Event)) (queue : Queue) : Prop where
  oneTable : ∀ id maxAttempts, (id,.enqueued maxAttempts) ∈ told →
    Xor (id ∈ queue.queue) (id ∈ queue.history)
  neverReturns : ∀ id ∈ queue.history, ∀ later final,
    Machine.run (step uuidv7) queue later = some final → id ∈ final.history ∧ id ∉ final.queue
  claimsBounded : ∀ id maxAttempts, (id,.enqueued maxAttempts) ∈ told → (claims id told : Int) ≤ maxAttempts
  queueBounded : ∀ id row, queue.queue.lookup id = some row → row.val.attempt ≤ row.val.maxAttempts
  historyBounded : ∀ id past, queue.history.lookup id = some past →
    past.row.val.attempt ≤ past.row.val.maxAttempts
  oneHolder : ∀ id first second, Accepts queue id first → Accepts queue id second → first = second
  replacedRefused : ∀ id now taker kinds leaseSecs skippedReaping skippedPicking next previous,
    claimJob queue now taker kinds leaseSecs skippedReaping skippedPicking = .ok (some id,next) →
    previous ≠ taker → ∀ later final, Machine.run (step uuidv7) next later = some final →
      (id,.claimed previous) ∉ Machine.trace (step uuidv7) (observe uuidv7) next later →
      Refuses final id previous
  runningLeased : ∀ id row, queue.queue.lookup id = some row → row.val.status = .running →
    row.val.leaseUntil.isSome = true

/-- The queue is safe over every run of its five functions: an enqueued job is in
one table and never leaves the history, it is claimed no more often than it may be
attempted, one worker at most can report on it, a worker that was replaced is
refused until it claims the job again, and a running row has a lease. -/
theorem queue_safe (unique : Function.Injective uuidv7) {calls : List Call}
    (ran : Machine.run (step uuidv7) .empty calls = some queue) :
    Safe uuidv7 (Machine.trace (step uuidv7) (observe uuidv7) .empty calls) queue := by
  have moved := run_advances unique empty_sound ran
  generalize Machine.trace (step uuidv7) (observe uuidv7) .empty calls = told at moved ⊢
  have balanced : ∀ id, (queue.life id).Balanced (about id told) := by
    intro id
    have empty : (Queue.empty.life id).Balanced [] := rfl
    simpa using (moved.lives id).balanced empty
  constructor
  case oneTable =>
    intro id maxAttempts enqueued
    have present := (balanced id).present_iff.mp ⟨maxAttempts,mem_about.mpr enqueued⟩
    simp only [Xor,← lookup_isSome]
    cases queued : queue.queue.lookup id with
    | some row => simp [moved.sound.apart id (by simp [queued])]
    | none =>
      cases settled : queue.history.lookup id with
      | some past => simp
      | none => simp [Queue.life,queued,settled] at present
  case neverReturns =>
    intro id settled later final ran
    exact settled_kept (run_advances unique moved.sound ran) moved.sound settled
  case claimsBounded =>
    intro id maxAttempts enqueued
    exact (balanced id).claims_le (mem_about.mpr enqueued)
  case queueBounded =>
    intro id row found
    have held : row.val.life.Balanced (about id told) := by simpa [Queue.life,found] using balanced id
    obtain ⟨_,_,_,_,bound⟩ := Lives.pending_balanced (life_pending row.val) held
    exact bound
  case historyBounded =>
    intro id past found
    have settled := balanced id
    simp only [Queue.life,queued_unsettled moved.sound found,found] at settled
    obtain ⟨_,_,_,_,bound⟩ := settled
    exact bound
  case oneHolder =>
    intro id first second left right
    exact Option.some.inj ((accepts_holder left).symm.trans (accepts_holder right))
  case replacedRefused =>
    intro id now taker kinds leaseSecs skippedReaping skippedPicking next previous claimed different
      later final ran unclaimed
    have reached := (claim_advances moved.sound claimed).sound
    refine refuses_of_holder (fun held => ?_)
    rcases ((run_advances unique reached ran).lives id).holder_claimed held with before | again
    · rw [claim_holder claimed] at before
      exact different (Option.some.inj before).symm
    · exact unclaimed (mem_about.mp again)
  case runningLeased =>
    intro id row found running
    exact row.property.runningHasLease.resolve_left (fun idle => idle running)

theorem queue_safe_replaced : ∃ held taken,
    Machine.run (step (fun draw => draw)) .empty
      [.enqueue 0 ⟨none,"storage.scrub",none,0,2,none⟩ false,
       .claim 0 "first" ["storage.scrub"] (some 60) [] []] = some held ∧
    claimJob held 90000000 "second" ["storage.scrub"] (some 60) [] [] = .ok (some 0,taken) ∧
    Refuses taken 0 "first" := by
  have safe := @queue_safe (fun draw => draw) _ Function.injective_id
    [.enqueue 0 ⟨none,"storage.scrub",none,0,2,none⟩ false,
     .claim 0 "first" ["storage.scrub"] (some 60) [] []] rfl
  exact ⟨_,_,rfl,rfl,safe.replacedRefused 0 90000000 "second" ["storage.scrub"] (some 60) [] [] _ "first"
    rfl (by decide) [] _ rfl (by simp [Machine.trace])⟩

end Depsis.Jobs

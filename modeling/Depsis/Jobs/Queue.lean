import Depsis.Foundation.Table
import Mathlib.Data.Rat.Defs

/-! The job queue: `job_queue`, `job_history` and the five ways in which a row
of them changes. Each function is one transaction; what it raises undoes it. A
clock reading and the rows `SKIP LOCKED` passes over are arguments of the call.
-/
namespace Depsis.Jobs

open Depsis.Foundation

/-- A `uuid`, as the number PostgreSQL orders it by. -/
abbrev JobId := Nat

abbrev Instant := Int

def makeInterval (secs : Int) : Int := secs * 1000000

inductive Status where
  | queued | running | succeeded | failed | dead | cancelled
deriving DecidableEq

/-- The columns of `job_queue` that a function reads or writes. The payload is
opaque but for `payload ->> 'shareId'`, which a unique index reads. -/
structure Job where
  organizationId : Option String
  kind : String
  shareId : Option String
  status : Status
  priority : Int
  runAfter : Instant
  attempt : Int
  maxAttempts : Int
  leaseUntil : Option Instant
  workerId : Option String
  progress : Rat
  lastError : Option String
  updatedAt : Instant

structure Job.Sane (job : Job) : Prop where
  attemptsSane : 0 ≤ job.attempt ∧ 0 < job.maxAttempts
  progressRange : 0 ≤ job.progress ∧ job.progress ≤ 1
  kindNotBlank : job.kind.toList.any (· ≠ ' ') = true
  runningHasLease : job.status ≠ .running ∨ job.leaseUntil.isSome = true

instance (job : Job) : Decidable job.Sane :=
  decidable_of_iff
    ((0 ≤ job.attempt ∧ 0 < job.maxAttempts) ∧ (0 ≤ job.progress ∧ job.progress ≤ 1) ∧
      job.kind.toList.any (· ≠ ' ') = true ∧ (job.status ≠ .running ∨ job.leaseUntil.isSome = true))
    ⟨fun ⟨attempts,progress,kind,lease⟩ => ⟨attempts,progress,kind,lease⟩,
      fun ⟨attempts,progress,kind,lease⟩ => ⟨attempts,progress,kind,lease⟩⟩

abbrev Row := {job : Job // job.Sane}

structure Past where
  row : Row
  finishedAt : Instant

structure Queue where
  queue : Table JobId Row
  history : Table JobId Past
  drawn : Nat

def Queue.empty : Queue := ⟨∅,∅,0⟩

inductive Raised where
  | checkViolation
  | uniqueViolation (constraint : String)
  | numericValueOutOfRange
  | exception (message : String)

def checked (job : Job) : Except Raised Row :=
  if sane : job.Sane then .ok ⟨job,sane⟩ else .error .checkViolation

/-- The kinds of which an organization has at most one queued row, each with its
partial unique index. -/
def scheduledOnce : List (String × String) :=
  [("files.trash.purge","job_queue_one_scheduled_purge"),
   ("files.index-drain","job_queue_one_scheduled_drain"),
   ("tasks.overdue-sweep","job_queue_one_scheduled_overdue_sweep"),
   ("storage.backup-tick","job_queue_one_scheduled_backup_tick"),
   ("storage.backup.run","job_queue_one_scheduled_backup_run"),
   ("storage.backup.purge","job_queue_one_scheduled_backup_purge"),
   ("storage.backup.verify","job_queue_one_scheduled_backup_verify"),
   ("jobs.prune","job_queue_one_scheduled_jobs_prune"),
   ("remote.authorize","job_queue_one_scheduled_remote_authorize"),
   ("auth.retention","job_queue_one_scheduled_auth_retention")]

/-- The entry a row makes in the unique indexes on queued rows. A NULL column
equals nothing, so a row that has one conflicts with none. -/
def Job.indexEntry (job : Job) : Option (String × String × Option String) :=
  if job.status ≠ .queued then none else
    match job.organizationId with
    | none => none
    | some organization =>
      if job.kind = "files.reconcile" then
        job.shareId.map (fun share => ("job_queue_one_scheduled_reconcile",organization,some share))
      else (scheduledOnce.lookup job.kind).map (fun index => (index,organization,none))

def Queue.conflict (queue : Queue) (id : JobId) (job : Job) : Option String :=
  match job.indexEntry with
  | none => none
  | some entry =>
    if queue.queue.any (fun other row => other ≠ id && row.val.indexEntry = some entry) then some entry.1
    else none

/-- `UPDATE job_queue SET .. WHERE id = id`: the checks, then the unique indexes. -/
def Queue.update (queue : Queue) (id : JobId) (job : Job) : Except Raised Queue :=
  match checked job with
  | .error raised => .error raised
  | .ok row =>
    match queue.conflict id job with
    | some index => .error (.uniqueViolation index)
    | none => .ok {queue with queue := queue.queue.insert id row}

def Queue.insert (queue : Queue) (id : JobId) (job : Job) : Except Raised Queue :=
  match checked job with
  | .error raised => .error raised
  | .ok row =>
    if (queue.queue.lookup id).isSome then .error (.uniqueViolation "job_queue_pkey")
    else match queue.conflict id job with
    | some index => .error (.uniqueViolation index)
    | none => .ok {queue with queue := queue.queue.insert id row}

structure Request where
  organizationId : Option String
  kind : String
  shareId : Option String
  priority : Int
  maxAttempts : Int
  runAfter : Option Instant

def Request.job (request : Request) (now : Instant) : Job where
  organizationId := request.organizationId
  kind := request.kind
  shareId := request.shareId
  status := .queued
  priority := request.priority
  runAfter := request.runAfter.getD now
  attempt := 0
  maxAttempts := request.maxAttempts
  leaseUntil := none
  workerId := none
  progress := 0
  lastError := none
  updatedAt := now

section

variable (uuidv7 : Nat → JobId)

/-- `JobsService.enqueue`, and with `ON CONFLICT DO NOTHING` the schedulers'
inserts, which answer a unique violation by storing no row. The default of the
key draws an identifier whether or not the row is then stored. -/
def enqueue (queue : Queue) (now : Instant) (request : Request) (onConflictDoNothing : Bool) :
    Except Raised (Option JobId) × Queue :=
  let id := uuidv7 queue.drawn
  let queue := {queue with drawn := queue.drawn + 1}
  match queue.insert id (request.job now) with
  | .ok next => (.ok (some id),next)
  | .error (.uniqueViolation constraint) =>
    (if onConflictDoNothing then .ok none else .error (.uniqueViolation constraint),queue)
  | .error raised => (.error raised,queue)

end

/-- The statement `claim_job`, `finish_job` and `cancel_job` share: the row is
copied to the history, settled there, and deleted from the queue. -/
def archive (queue : Queue) (now : Instant) (settle : Job → Job) (id : JobId) : Except Raised Queue :=
  match queue.queue.lookup id with
  | none => .ok queue
  | some row =>
    if (queue.history.lookup id).isSome then .error (.uniqueViolation "job_history_pkey")
    else match checked (settle row.val) with
    | .error raised => .error raised
    | .ok past => .ok {queue with
        queue := queue.queue.erase id
        history := queue.history.insert id ⟨past,now⟩}

/-- `status = 'queued' OR (status = 'running' AND lease_until < now())`. -/
def Job.ready (job : Job) (now : Instant) : Bool :=
  job.status = .queued || (job.status = .running && job.leaseUntil.any (· < now))

/-- `worker_id = p_worker_id AND status = 'running' AND lease_until >= now()`. -/
def Job.heldBy (job : Job) (workerId : String) (now : Instant) : Bool :=
  job.workerId = some workerId && job.status = .running && job.leaseUntil.any (now ≤ ·)

def exhausted (queue : Queue) (now : Instant) (kinds : List String) (skipped : List JobId) :
    List JobId :=
  (queue.queue.rows.filter (fun (id,row) =>
    kinds.contains row.val.kind && row.val.maxAttempts ≤ row.val.attempt &&
      row.val.ready now && !skipped.contains id)).map Prod.fst

def Job.reaped (now : Instant) (job : Job) : Job :=
  {job with
    status := .dead
    leaseUntil := none
    lastError := some (job.lastError.getD
      ("the worker holding this job stopped without finishing it, and its attempts are " ++
        "exhausted (" ++ toString job.attempt ++ "/" ++ toString job.maxAttempts ++ ")"))
    updatedAt := now}

def reap (queue : Queue) (now : Instant) (kinds : List String) (skipped : List JobId) :
    Except Raised Queue :=
  (exhausted queue now kinds skipped).foldlM (fun queue id => archive queue now (Job.reaped now) id) queue

def claimedBefore (first second : JobId × Row) : Bool :=
  second.2.val.priority < first.2.val.priority ||
    (first.2.val.priority = second.2.val.priority &&
      (first.2.val.runAfter < second.2.val.runAfter ||
        (first.2.val.runAfter = second.2.val.runAfter && first.1 ≤ second.1)))

def firstClaimed : List (JobId × Row) → Option (JobId × Row)
  | [] => none
  | entry::rest =>
    match firstClaimed rest with
    | none => some entry
    | some best => some (if claimedBefore entry best then entry else best)

def claimable (queue : Queue) (now : Instant) (kinds : List String) (skipped : List JobId) :
    List (JobId × Row) :=
  queue.queue.rows.filter (fun (id,row) =>
    kinds.contains row.val.kind && row.val.runAfter ≤ now && row.val.attempt < row.val.maxAttempts &&
      row.val.ready now && !skipped.contains id)

def Job.claimed (now : Instant) (workerId : String) (leaseSecs : Option Int) (job : Job) : Job :=
  {job with
    status := .running
    leaseUntil := leaseSecs.map (fun secs => now + makeInterval secs)
    attempt := job.attempt + 1
    workerId := some workerId
    updatedAt := now}

/-- `claim_job`: the spent rows die, then the first claimable row is taken. -/
def claimJob (queue : Queue) (now : Instant) (workerId : String) (kinds : List String)
    (leaseSecs : Option Int) (skippedReaping skippedPicking : List JobId) :
    Except Raised (Option JobId × Queue) :=
  match reap queue now kinds skippedReaping with
  | .error raised => .error raised
  | .ok queue =>
    match firstClaimed (claimable queue now kinds skippedPicking) with
    | none => .ok (none,queue)
    | some (id,row) =>
      (queue.update id (row.val.claimed now workerId leaseSecs)).map (fun queue => (some id,queue))

def Job.extended (now : Instant) (leaseSecs : Option Int) (progress : Option Rat) (job : Job) : Job :=
  {job with
    leaseUntil := leaseSecs.map (fun secs => now + makeInterval secs)
    progress := progress.getD job.progress
    updatedAt := now}

def heartbeatJob (queue : Queue) (now : Instant) (id : JobId) (workerId : String)
    (leaseSecs : Option Int) (progress : Option Rat) : Except Raised (Bool × Queue) :=
  match queue.queue.lookup id with
  | none => .ok (false,queue)
  | some row =>
    if row.val.heldBy workerId now then
      (queue.update id (row.val.extended now leaseSecs progress)).map (fun queue => (true,queue))
    else .ok (false,queue)

inductive Outcome where
  | requeued
  | finished (status : Status)
deriving DecidableEq

def Job.retried (now : Instant) (error : Option String) (delay : Int) (job : Job) : Job :=
  {job with
    status := .queued
    leaseUntil := none
    workerId := none
    lastError := error
    runAfter := now + makeInterval (min 300 delay)
    updatedAt := now}

def backoff (attempt : Int) : Except Raised Int :=
  if attempt < 31 then .ok (Nat.pow 2 attempt.toNat) else .error .numericValueOutOfRange

def Job.finished (now : Instant) (status : Status) (error : Option String) (job : Job) : Job :=
  {job with
    status := status
    lastError := if status = .failed then
        some (error.getD "the attempt failed" ++
          " — not retried: a successor of this kind is already queued")
      else error
    leaseUntil := none
    updatedAt := now}

def conclude (queue : Queue) (now : Instant) (id : JobId) (status : Status) (error : Option String) :
    Except Raised (Option Outcome × Queue) :=
  (archive queue now (Job.finished now status error) id).map
    (fun queue => (some (.finished status),queue))

/-- `p_outcome NOT IN ('succeeded', 'failed')` refuses; a NULL outcome passes it. -/
def outcomeKnown (outcome : Option String) : Bool :=
  outcome.all (fun given => given = "succeeded" || given = "failed")

/-- `finish_job`. The retry runs under a savepoint: a unique violation undoes it
alone, and the job fails in favour of the successor that is already queued. -/
def finishJob (queue : Queue) (now : Instant) (id : JobId) (workerId : String)
    (outcome : Option String) (error : Option String) : Except Raised (Option Outcome × Queue) :=
  if !outcomeKnown outcome then
    .error (.exception ("finish_job: outcome must be succeeded or failed, got " ++ outcome.getD ""))
  else match queue.queue.lookup id with
  | none => .ok (none,queue)
  | some row =>
    if !row.val.heldBy workerId now then .ok (none,queue)
    else if outcome = some "succeeded" then conclude queue now id .succeeded error
    else if row.val.maxAttempts ≤ row.val.attempt then conclude queue now id .dead error
    else match backoff row.val.attempt with
    | .error raised => .error raised
    | .ok delay =>
      match queue.update id (row.val.retried now error delay) with
      | .ok queue => .ok (some .requeued,queue)
      | .error (.uniqueViolation _) => conclude queue now id .failed error
      | .error raised => .error raised

def Job.cancelled (now : Instant) (job : Job) : Job :=
  {job with status := .cancelled, leaseUntil := none, updatedAt := now}

/-- `cancel_job`, under the row policy of the caller's organization: another
tenant's row is not found, and a row of no organization is nobody's. -/
def cancelJob (queue : Queue) (now : Instant) (organization : String) (id : JobId) :
    Except Raised (Bool × Queue) :=
  match queue.queue.lookup id with
  | none => .ok (false,queue)
  | some row =>
    if row.val.organizationId = some organization then
      (archive queue now (Job.cancelled now) id).map (fun queue => (true,queue))
    else .ok (false,queue)

inductive Call where
  | enqueue (now : Instant) (request : Request) (onConflictDoNothing : Bool)
  | claim (now : Instant) (workerId : String) (kinds : List String) (leaseSecs : Option Int)
      (skippedReaping skippedPicking : List JobId)
  | heartbeat (now : Instant) (id : JobId) (workerId : String) (leaseSecs : Option Int)
      (progress : Option Rat)
  | finish (now : Instant) (id : JobId) (workerId : String) (outcome error : Option String)
  | cancel (now : Instant) (organization : String) (id : JobId)

def committed {Answer : Type} (before : Queue) : Except Raised (Answer × Queue) → Queue
  | .error _ => before
  | .ok (_,after) => after

def step (uuidv7 : Nat → JobId) (queue : Queue) : Call → Option Queue
  | .enqueue now request onConflictDoNothing =>
    some (enqueue uuidv7 queue now request onConflictDoNothing).2
  | .claim now workerId kinds leaseSecs skippedReaping skippedPicking =>
    some (committed queue (claimJob queue now workerId kinds leaseSecs skippedReaping skippedPicking))
  | .heartbeat now id workerId leaseSecs progress =>
    some (committed queue (heartbeatJob queue now id workerId leaseSecs progress))
  | .finish now id workerId outcome error =>
    some (committed queue (finishJob queue now id workerId outcome error))
  | .cancel now organization id => some (committed queue (cancelJob queue now organization id))

end Depsis.Jobs

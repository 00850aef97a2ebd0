import Depsis.Foundation.Machine
import Depsis.Foundation.Retention

/-! Scheduled snapshots of one dataset: a tick takes a snapshot, enqueues its replication with
the base recorded by the last one, and prunes what is more than the schedule keeps. The
replication is a job of its own, which runs later and records the next base.
-/
namespace Depsis.Backup.Schedules

open Depsis.Foundation

inductive Cadence where
  | hourly
  | daily
  | weekly
deriving DecidableEq

def Cadence.text : Cadence → String
  | .hourly => "hourly"
  | .daily => "daily"
  | .weekly => "weekly"

def prefixFor (cadence : Cadence) : String := "depsis-" ++ cadence.text ++ "-"

structure Instant where
  year : Nat
  month : Nat
  day : Nat
  hours : Nat
  minutes : Nat
  seconds : Nat

def padded (width value : Nat) : String :=
  String.ofList (List.replicate (width-(toString value).length) '0') ++ toString value

def snapshotNameFor (cadence : Cadence) (now : Instant) : String :=
  prefixFor cadence ++ (padded 4 now.year ++ padded 2 now.month ++ padded 2 now.day ++ "T" ++
    padded 2 now.hours ++ padded 2 now.minutes ++ padded 2 now.seconds ++ "Z")

structure Snapshot where
  name : String
  createdAt : Int
deriving DecidableEq

def isMine (cadence : Cadence) (name : String) : Bool := (prefixFor cadence).toList.isPrefixOf name.toList

structure Collation where
  le : String → String → Bool
  total : ∀ first second, le first second = true ∨ le second first = true
  trans : ∀ first second third, le first second = true → le second third = true → le first third = true

def Newer (collation : Collation) (first second : Snapshot) : Prop :=
  second.createdAt < first.createdAt ∨ (first.createdAt = second.createdAt ∧ collation.le second.name first.name = true)

instance (collation : Collation) : DecidableRel (Newer collation) :=
  fun first second => inferInstanceAs (Decidable (second.createdAt < first.createdAt ∨ (_ ∧ _)))

def mine (cadence : Cadence) (snapshots : List Snapshot) : List Snapshot :=
  snapshots.filter (fun snapshot => isMine cadence snapshot.name)

def prunable (collation : Collation) (snapshots : List Snapshot) (cadence : Cadence) (keep : Nat) : List String :=
  (Retention.surplus (Newer collation) keep (mine cadence snapshots)).map Snapshot.name

structure Pool where
  rows : List Snapshot
  distinct : (rows.map Snapshot.name).Nodup

def Pool.names (pool : Pool) : List String := pool.rows.map Snapshot.name

private theorem distinct_add (pool : Pool) (snapshot : Snapshot) (fresh : snapshot.name ∉ pool.names) :
    ((pool.rows++[snapshot]).map Snapshot.name).Nodup := by
  rw [List.map_append,List.nodup_append]
  refine ⟨pool.distinct,List.nodup_singleton _,?_⟩
  rintro name member other single rfl
  rw [List.map_singleton,List.mem_singleton] at single
  exact fresh (single ▸ member)

private theorem distinct_remove (pool : Pool) (name : String) :
    ((pool.rows.filter (fun snapshot => snapshot.name ≠ name)).map Snapshot.name).Nodup :=
  pool.distinct.sublist ((List.filter_sublist).map _)

def Pool.add (pool : Pool) (snapshot : Snapshot) (fresh : snapshot.name ∉ pool.names) : Pool :=
  ⟨pool.rows++[snapshot],distinct_add pool snapshot fresh⟩

def Pool.remove (pool : Pool) (name : String) : Pool :=
  ⟨pool.rows.filter (fun snapshot => snapshot.name ≠ name),distinct_remove pool name⟩

structure Schedule where
  dataset : String
  cadence : Cadence

structure Settings where
  keep : Nat
  replicateTarget : Option String
  offsiteHost : Option String
  offsitePort : Option Nat
  offsiteUser : Option String
  checked : 1 ≤ keep ∧ keep ≤ 10000

/-- The row a tick reads, with the outcomes of replications that had been recorded by then, the
last one first. -/
structure Row where
  settings : Settings
  lastReplicatedSnapshot : Option String
  knew : List (Option String)

inductive Payload where
  | replicate (source snapshot target : String) (base : Option String)
  | replicateOffsite (source snapshot : String) (base : Option String) (host : String) (port : Nat) (user target : String)

def Payload.snapshot : Payload → String
  | .replicate _ snapshot _ _ => snapshot
  | .replicateOffsite _ snapshot _ _ _ _ _ => snapshot

def Payload.base : Payload → Option String
  | .replicate _ _ _ base => base
  | .replicateOffsite _ _ base _ _ _ _ => base

def enqueueReplication (schedule : Schedule) (row : Row) (snapshot : String) : Option Payload :=
  match row.settings.replicateTarget with
  | some target => some (.replicate schedule.dataset snapshot target row.lastReplicatedSnapshot)
  | none =>
    match row.settings.offsiteHost,row.settings.offsiteUser with
    | some host,some user =>
      some (.replicateOffsite schedule.dataset snapshot row.lastReplicatedSnapshot host
        (row.settings.offsitePort.getD 22) user schedule.dataset)
    | _,_ => none

inductive Tick where
  | due (row : Row)
  | taken (row : Row) (name : String)
  | enqueued (row : Row)
  | pruning (doomed : List String)

inductive Progress where
  | queued
  | running
  | answered (replicated : Bool)
  | finished
deriving DecidableEq

structure Job where
  payload : Payload
  progress : Progress
  knew : List (Option String)

structure State where
  pool : Pool
  lastReplicatedSnapshot : Option String
  ticks : Nat → Option Tick
  jobs : Nat → Option Job
  outcomes : List (Option String)

inductive Event where
  | reads (tick : Nat) (settings : Settings)
  | takes (tick : Nat) (now : Instant) (createdAt : Int)
  | enqueues (tick job : Nat)
  | lists (tick : Nat) (answered : Bool)
  | destroys (tick : Nat) (gone : Bool)
  | ends (tick : Nat)
  | starts (job : Nat)
  | answers (job : Nat) (replicated : Bool)
  | records (job : Nat) (written : Bool)
  | stops (job : Nat)
  | adds (snapshot : Snapshot)
  | removes (name : String)

def State.at (state : State) (tick : Nat) (phase : Option Tick) : State :=
  { state with ticks := Function.update state.ticks tick phase }

def State.put (state : State) (id : Nat) (job : Job) : State :=
  { state with jobs := Function.update state.jobs id (some job) }

def State.recordReplicated (state : State) (snapshot : Option String) : State :=
  { state with lastReplicatedSnapshot := snapshot, outcomes := snapshot::state.outcomes }

def State.first (pool : Pool) : State := ⟨pool,none,fun _ => none,fun _ => none,[]⟩

section

variable (collation : Collation) (schedule : Schedule)

def step (state : State) : Event → Option State
  | .reads tick settings =>
    match state.ticks tick with
    | none => some (state.at tick (some (.due ⟨settings,state.lastReplicatedSnapshot,state.outcomes⟩)))
    | some _ => none
  | .takes tick now createdAt =>
    match state.ticks tick with
    | some (.due row) =>
      if used : snapshotNameFor schedule.cadence now ∈ state.pool.names then none
      else some { state.at tick (some (.taken row (snapshotNameFor schedule.cadence now))) with
        pool := state.pool.add ⟨snapshotNameFor schedule.cadence now,createdAt⟩ used }
    | _ => none
  | .enqueues tick job =>
    match state.ticks tick with
    | some (.taken row name) =>
      match enqueueReplication schedule row name,state.jobs job with
      | none,_ => some (state.at tick (some (.enqueued row)))
      | some payload,none => some ((state.at tick (some (.enqueued row))).put job ⟨payload,.queued,row.knew⟩)
      | some _,some _ => none
    | _ => none
  | .lists tick answered =>
    match state.ticks tick with
    | some (.enqueued row) =>
      if answered then
        some (state.at tick (some (.pruning
          (prunable collation state.pool.rows schedule.cadence row.settings.keep))))
      else some (state.at tick none)
    | _ => none
  | .destroys tick gone =>
    match state.ticks tick with
    | some (.pruning (name::doomed)) =>
      some { state.at tick (some (.pruning doomed)) with
        pool := if gone then state.pool.remove name else state.pool }
    | _ => none
  | .ends tick => (state.ticks tick).map (fun _ => state.at tick none)
  | .starts id =>
    match state.jobs id with
    | some ⟨payload,.queued,knew⟩ => some (state.put id ⟨payload,.running,knew⟩)
    | _ => none
  | .answers id replicated =>
    match state.jobs id with
    | some ⟨payload,.running,knew⟩ =>
      -- the agent can send what is on the dataset only
      if replicated → payload.snapshot ∈ state.pool.names ∧ ∀ base ∈ payload.base, base ∈ state.pool.names then
        some (state.put id ⟨payload,.answered replicated,knew⟩)
      else none
    | _ => none
  | .records id written =>
    match state.jobs id with
    | some ⟨payload,.answered replicated,knew⟩ =>
      let ended := state.put id ⟨payload,.finished,knew⟩
      some (if written then ended.recordReplicated (if replicated then some payload.snapshot else none) else ended)
    | _ => none
  | .stops id => (state.jobs id).map (fun job => state.put id { job with progress := .finished })
  | .adds snapshot => if used : snapshot.name ∈ state.pool.names then none else some { state with pool := state.pool.add snapshot used }
  | .removes name => if isMine schedule.cadence name then none else some { state with pool := state.pool.remove name }

def Job.Needs (job : Job) (name : String) : Prop :=
  job.progress ≠ .finished ∧ (job.payload.snapshot = name ∨ job.payload.base = some name)

def Tick.Needs : Tick → String → Prop
  | .due row,name => row.lastReplicatedSnapshot = some name
  | .taken row fresh,name => fresh = name ∨ row.lastReplicatedSnapshot = some name
  | .enqueued _,_ | .pruning _,_ => False

def Needed (state : State) (name : String) : Prop :=
  (∃ id job, state.jobs id = some job ∧ job.Needs name) ∨ state.lastReplicatedSnapshot = some name ∨
    ∃ id tick, state.ticks id = some tick ∧ tick.Needs name

/-- Whenever a tick lists, each snapshot a replication is still to find has fewer than `keep` of the
schedule's snapshots ahead of it; and no snapshot is taken under the name of one that an overlapping
tick is about to destroy. -/
def Sparing (state : State) : Event → Prop
  | .lists tick true => ∀ row, state.ticks tick = some (.enqueued row) → ∀ snapshot ∈ state.pool.rows,
      Needed state snapshot.name →
        Retention.ahead (Newer collation) (mine schedule.cadence state.pool.rows) snapshot < row.settings.keep
  | .takes _ now _ => ∀ tick doomed, state.ticks tick = some (.pruning doomed) →
      snapshotNameFor schedule.cadence now ∉ doomed
  | _ => True

/-- Every job that is queued or running finds its snapshot and its base, and the base the schedule
records exists. -/
def Present (state : State) : Prop :=
  (∀ id job, state.jobs id = some job → job.progress ≠ .finished →
    job.payload.snapshot ∈ state.pool.names ∧ ∀ base, job.payload.base = some base → base ∈ state.pool.names) ∧
  ∀ base, state.lastReplicatedSnapshot = some base → base ∈ state.pool.names

/-- A job sends from the snapshot of the last replication recorded when its tick read the schedule,
and in full if there was none or the last one had failed. -/
def Incremental (state : State) : Prop :=
  ∀ id job, state.jobs id = some job → job.payload.base = job.knew.head?.join

/-- A tick destroys the schedule's own snapshots only, each with `keep` others ahead of it; and if
nothing comes between and every destruction succeeds, as many are left as are to be kept. -/
def PrunesExactly (state : State) : Prop :=
  (∀ tick doomed, state.ticks tick = some (.pruning doomed) → ∀ name ∈ doomed,
    isMine schedule.cadence name = true ∧ ∀ other, other ≠ schedule.cadence → isMine other name = false) ∧
  ∀ tick row, state.ticks tick = some (.enqueued row) →
    (∀ snapshot ∈ state.pool.rows,
      snapshot.name ∈ prunable collation state.pool.rows schedule.cadence row.settings.keep →
        row.settings.keep ≤ Retention.ahead (Newer collation) (mine schedule.cadence state.pool.rows) snapshot) ∧
    ∃ after, Machine.run (step collation schedule) state (.lists tick true::List.replicate
        (prunable collation state.pool.rows schedule.cadence row.settings.keep).length (.destroys tick true)) = some after ∧
      (mine schedule.cadence after.pool.rows).length =
        min row.settings.keep (mine schedule.cadence state.pool.rows).length ∧
      after.pool.rows.filter (fun snapshot => !isMine schedule.cadence snapshot.name) =
        state.pool.rows.filter (fun snapshot => !isMine schedule.cadence snapshot.name)

end

end Depsis.Backup.Schedules

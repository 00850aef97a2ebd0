import Depsis.Jobs.Safety

/-! Jobs that queue their own successor. A worker takes one row at a time and goes through
its handler, which may throw or vanish anywhere; a chain is the rows of one entry of the
indexes on queued rows.
-/
namespace Depsis.Jobs.Chains
open Depsis.Foundation AList

def CHAINED : List String :=
  ["files.reconcile","files.index-drain","files.trash.purge","storage.backup-tick","storage.backup.run",
    "storage.backup.purge","storage.backup.verify"]

/-- What a handler does to the queue on its way. `again` and `hurry` are left out of a pass that
has nothing left over. -/
inductive Action where
  | schedule
  | work
  | again
  | hurry
  deriving DecidableEq

def program (kind : String) : List Action :=
  if kind = "files.reconcile" then [.schedule,.work,.hurry]
  else if kind = "files.index-drain" then [.schedule,.work,.hurry]
  else if kind = "files.trash.purge" then [.work,.schedule]
  else if kind = "storage.backup-tick" then [.schedule,.work]
  else if kind = "storage.backup.run" then [.schedule,.work,.again]
  else if kind = "storage.backup.purge" then [.schedule,.work]
  else if kind = "storage.backup.verify" then [.schedule,.work]
  else [.work]

structure Attempt where
  id : JobId
  job : Job
  rest : List Action

structure System where
  queue : Queue
  busy : String → Option Attempt

inductive Event where
  | claim (now : Instant) (worker : String) (kinds : List String) (leaseSecs : Option Int)
      (skippedReaping skippedPicking : List JobId)
  | beat (now : Instant) (worker : String) (leaseSecs : Option Int) (progress : Option Rat)
  | act (now : Instant) (worker : String) (runAfter : Instant) (chosen : Bool)
  | throws (now : Instant) (worker : String) (error : String)
  | returns (now : Instant) (worker : String)
  | gone (worker : String)
  | enqueued (now : Instant) (request : Request) (onConflictDoNothing : Bool)

def chain (job : Job) : Option (String × String × Option String) := Job.indexEntry { job with status := .queued }

def hurried (now : Instant) (entry : Option (String × String × Option String)) (row : Row) : Row :=
  if row.val.status = .queued ∧ chain row.val = entry then
    ⟨{ row.val with runAfter := now },⟨row.property.attemptsSane,row.property.progressRange,row.property.kindNotBlank,
      row.property.runningHasLease⟩⟩
  else row

def hurryUp (queue : Queue) (now : Instant) (entry : Option (String × String × Option String)) : Queue :=
  { queue with queue := queue.queue.mapRows (fun _ row => hurried now entry row) }

def successor (job : Job) (maxAttempts : Int) (runAfter : Instant) : Request :=
  ⟨job.organizationId,job.kind,job.shareId,0,maxAttempts,some runAfter⟩

variable (uuidv7 : Nat → JobId) (maxAttempts : String → Int)

def perform (queue : Queue) (now : Instant) (job : Job) (runAfter : Instant) (chosen : Bool) : Action → Option Queue
  | .schedule =>
    if job.organizationId.isNone then none
    else match enqueue uuidv7 queue now (successor job (maxAttempts job.kind) runAfter) true with
    | (.ok _,after) => some after
    | (.error _,_) => none
  | .work => some queue
  | .again =>
    if !chosen then some queue
    else match enqueue uuidv7 queue now (successor job (maxAttempts job.kind) now) true with
    | (.ok _,after) => some after
    | (.error _,_) => none
  | .hurry => some (if chosen then hurryUp queue now (chain job) else queue)

def step (system : System) : Event → Option System
  | .claim now worker kinds leaseSecs skippedReaping skippedPicking =>
    match system.busy worker with
    | some _ => none
    | none =>
      match claimJob system.queue now worker kinds leaseSecs skippedReaping skippedPicking with
      | .error _ => some system
      | .ok (none,after) => some { system with queue := after }
      | .ok (some id,after) =>
        match after.queue.lookup id with
        | none => none
        | some row => some ⟨after,Function.update system.busy worker (some ⟨id,row.val,program row.val.kind⟩)⟩
  | .beat now worker leaseSecs progress =>
    (system.busy worker).map (fun attempt =>
      { system with queue := committed system.queue (heartbeatJob system.queue now attempt.id worker leaseSecs progress) })
  | .act now worker runAfter chosen =>
    match system.busy worker with
    | some ⟨id,job,action::rest⟩ =>
      (perform uuidv7 maxAttempts system.queue now job runAfter chosen action).map (fun after =>
        ⟨after,Function.update system.busy worker (some ⟨id,job,rest⟩)⟩)
    | _ => none
  | .throws now worker error =>
    (system.busy worker).map (fun attempt =>
      ⟨committed system.queue (finishJob system.queue now attempt.id worker (some "failed") (some error)),
        Function.update system.busy worker none⟩)
  | .returns now worker =>
    match system.busy worker with
    | some ⟨id,_,[]⟩ =>
      some ⟨committed system.queue (finishJob system.queue now id worker (some "succeeded") none),
        Function.update system.busy worker none⟩
    | _ => none
  | .gone worker => (system.busy worker).map (fun _ => { system with busy := Function.update system.busy worker none })
  | .enqueued now request onConflictDoNothing =>
    some { system with queue := (enqueue uuidv7 system.queue now request onConflictDoNothing).2 }

def Alive (entry : String × String × Option String) (queue : Queue) : Prop :=
  ∃ id row, queue.queue.lookup id = some row ∧ chain row.val = some entry ∧
    (row.val.status = .queued ∨ row.val.status = .running ∧ row.val.attempt < row.val.maxAttempts)

def AtMostOneQueued (entry : String × String × Option String) (queue : Queue) : Prop :=
  ∀ id other row twin, queue.queue.lookup id = some row → queue.queue.lookup other = some twin →
    chain row.val = some entry → chain twin.val = some entry → row.val.status = .queued → twin.val.status = .queued →
    id = other

/-- A row that will still bring a successor: queued, or running with attempts left and, if its
worker is still at it, short of the insert. -/
def Promising (entry : String × String × Option String) (system : System) (id : JobId) : Prop :=
  ∃ row, system.queue.queue.lookup id = some row ∧ chain row.val = some entry ∧
    (row.val.status = .queued ∨ row.val.status = .running ∧ row.val.attempt < row.val.maxAttempts ∧
      ∀ worker attempt, system.busy worker = some attempt → attempt.id = id → row.val.workerId = some worker →
        .schedule ∈ attempt.rest)

/-- No claim takes a row of the chain for its last attempt unless another row of it is promising. -/
def Spared (entry : String × String × Option String) (system : System) : Event → Prop
  | .claim now worker kinds leaseSecs skippedReaping skippedPicking =>
    ∀ id after row, claimJob system.queue now worker kinds leaseSecs skippedReaping skippedPicking = .ok (some id,after) →
      system.queue.queue.lookup id = some row → chain row.val = some entry → row.val.maxAttempts ≤ row.val.attempt + 1 →
      ∃ other, other ≠ id ∧ Promising entry system other
  | _ => True

def Indexed (queue : Queue) : Prop :=
  ∀ id other row twin entry, queue.queue.lookup id = some row → queue.queue.lookup other = some twin →
    row.val.indexEntry = some entry → twin.val.indexEntry = some entry → id = other

structure Tidy (queue : Queue) : Prop where
  indexed : Indexed queue
  unspent : ∀ id row, queue.queue.lookup id = some row → row.val.status = .queued → row.val.attempt < row.val.maxAttempts

structure Carries (before after : Queue) : Prop where
  known : ∀ id, before.Known id → after.Known id
  kept : ∀ id row, after.queue.lookup id = some row → before.Known id →
    ∃ old, before.queue.lookup id = some old ∧ chain row.val = chain old.val

variable {uuidv7 : Nat → JobId} {maxAttempts : String → Int} {queue next middle : Queue} {id : JobId} {now : Instant}

theorem Carries.refl (queue : Queue) : Carries queue queue := ⟨fun _ known => known,fun _ row found _ => ⟨row,found,rfl⟩⟩

theorem Carries.trans (first : Carries queue middle) (second : Carries middle next) : Carries queue next where
  known id known := second.known id (first.known id known)
  kept id row found known := by
    obtain ⟨between,there,same⟩ := second.kept id row found (first.known id known)
    obtain ⟨old,was,before⟩ := first.kept id between there known
    exact ⟨old,was,same.trans before⟩

theorem indexEntry_chain (job : Job) : job.indexEntry = if job.status = .queued then chain job else none := by
  unfold chain Job.indexEntry
  by_cases queued : job.status = .queued
  · rw [if_neg (not_not.mpr queued),if_pos queued,if_neg (not_not.mpr rfl)]
  · rw [if_pos queued,if_neg queued]

theorem conflict_none {job : Job} (free : queue.conflict id job = none) {other : JobId} {twin : Row}
    (found : queue.queue.lookup other = some twin) {entry : String × String × Option String}
    (mine : job.indexEntry = some entry) (its : twin.val.indexEntry = some entry) : other = id := by
  unfold Queue.conflict at free
  rw [mine] at free
  dsimp only at free
  split at free
  next => cases free
  next absent =>
    by_contra apart
    exact absent (any_iff.mpr ⟨other,twin,found,by simp [apart,its]⟩)

theorem conflict_some {job : Job} {index : String} (taken : queue.conflict id job = some index) :
    ∃ other row entry, other ≠ id ∧ queue.queue.lookup other = some row ∧ job.indexEntry = some entry ∧
      row.val.indexEntry = some entry := by
  unfold Queue.conflict at taken
  split at taken
  next => cases taken
  next entry mine =>
    obtain ⟨present,taken⟩ := of_when taken
    obtain ⟨other,row,found,same⟩ := any_iff.mp present
    simp only [Bool.and_eq_true,decide_eq_true_eq] at same
    exact ⟨other,row,entry,same.1,found,mine,same.2⟩

theorem queued_of_entry {job : Job} {entry : String × String × Option String} (its : job.indexEntry = some entry) :
    job.status = .queued ∧ chain job = some entry := by
  rw [indexEntry_chain] at its
  obtain ⟨queued,its⟩ := of_when its
  exact ⟨queued,its⟩

theorem store_tidy (tidy : Tidy queue) {row : Row} (free : queue.conflict id row.val = none)
    (unspent : row.val.status = .queued → row.val.attempt < row.val.maxAttempts) (drawn : Nat) :
    Tidy { queue with queue := queue.queue.insert id row, drawn := drawn } where
  indexed one other first second entry foundOne foundOther mine its := by
    rw [lookup_insert_eq] at foundOne foundOther
    split at foundOne <;> split at foundOther
    next here there => exact here.trans there.symm
    next here there =>
      cases foundOne
      exact absurd (conflict_none free foundOther mine its) there
    next here there =>
      cases foundOther
      exact absurd (conflict_none free foundOne its mine) here
    next => exact tidy.indexed one other first second entry foundOne foundOther mine its
  unspent one first found queued := by
    rcases lookup_insert_cases found with ⟨-,rfl⟩ | ⟨-,found⟩
    · exact unspent queued
    · exact tidy.unspent one first found queued

theorem update_tidy (tidy : Tidy queue) {job : Job} (updated : queue.update id job = .ok next)
    (unspent : job.status = .queued → job.attempt < job.maxAttempts) : Tidy next := by
  unfold Queue.update at updated
  split at updated
  next => cases updated
  next row passed =>
    split at updated <;> cases updated
    next free =>
      rw [← checked_ok passed] at free unspent
      exact store_tidy tidy free unspent queue.drawn

theorem update_carries {job : Job} {row : Row} (found : queue.queue.lookup id = some row) (same : chain job = chain row.val)
    (updated : queue.update id job = .ok next) : Carries queue next := by
  obtain ⟨stored,shape,rfl⟩ := update_ok updated
  constructor
  · intro other known
    by_cases here : other = id
    · exact .inl (by simp [lookup_insert_eq,here])
    · rcases known with present | past
      · exact .inl (by simpa [lookup_insert_eq,here] using present)
      · exact .inr past
  · intro other later there _
    rcases lookup_insert_cases there with ⟨here,rfl⟩ | ⟨-,there⟩
    · exact ⟨row,by rw [here]; exact found,by rw [shape]; exact same⟩
    · exact ⟨later,there,rfl⟩

theorem archive_tidy (tidy : Tidy queue) {settle : Job → Job} (archived : archive queue now settle id = .ok next) :
    Tidy next ∧ Carries queue next := by
  cases found : queue.queue.lookup id with
  | none =>
    simp only [archive,found] at archived
    cases archived
    exact ⟨tidy,.refl queue⟩
  | some row =>
    obtain ⟨past,-,-,rfl⟩ := archive_ok found archived
    have before {other : JobId} {kept : Row} (there : (queue.queue.erase id).lookup other = some kept) :
        queue.queue.lookup other = some kept := by
      obtain ⟨-,there⟩ := lookup_erase_some there
      exact there
    refine ⟨⟨fun one other first second entry foundOne foundOther => tidy.indexed one other first second entry
      (before foundOne) (before foundOther),fun one first there => tidy.unspent one first (before there)⟩,?_,
      fun other kept there _ => ⟨kept,before there,rfl⟩⟩
    intro other known
    by_cases here : other = id
    · exact .inr (by simp [lookup_insert_eq,here])
    · rcases known with present | settled
      · exact .inl (by simpa [lookup_erase_eq,here] using present)
      · exact .inr (by simpa [lookup_insert_eq,here] using settled)

end Depsis.Jobs.Chains

import Depsis.Foundation.Machine
import Mathlib.Logic.Function.Basic

/-! The shared job board: what an update of a task writes and what it records. The row is read
and checked before the update, and its history is written after it, each in a transaction of
its own.
-/
namespace Depsis.Desk

inductive TaskStatus where
  | draft
  | assigned
  | inProgress
  | inReview
  | done
  | cancelled
deriving DecidableEq

def TaskStatus.text : TaskStatus → String
  | .draft => "draft"
  | .assigned => "assigned"
  | .inProgress => "in_progress"
  | .inReview => "in_review"
  | .done => "done"
  | .cancelled => "cancelled"

inductive TaskPriority where
  | low
  | normal
  | high
  | urgent
deriving DecidableEq

def TaskPriority.text : TaskPriority → String
  | .low => "low"
  | .normal => "normal"
  | .high => "high"
  | .urgent => "urgent"

def OPEN : List TaskStatus := [.draft,.assigned,.inProgress,.inReview]

def TRANSITIONS : TaskStatus → List TaskStatus
  | .draft => OPEN ++ [.done,.cancelled]
  | .assigned => OPEN ++ [.done,.cancelled]
  | .inProgress => OPEN ++ [.done,.cancelled]
  | .inReview => OPEN ++ [.done,.cancelled]
  | .done => OPEN
  | .cancelled => [.draft,.assigned]

structure TaskRow where
  organizationId : String
  createdBy : String
  body : String
  description : Option String
  assigneeId : Option String
  status : TaskStatus
  doneAt : Option Int
  priority : TaskPriority
  dueAt : Option Int
  position : Int
  parentId : Option String
deriving DecidableEq

def created (organizationId createdBy body : String) (assigneeId parentId : Option String) : TaskRow where
  organizationId := organizationId
  createdBy := createdBy
  body := body
  description := none
  assigneeId := assigneeId
  status := if assigneeId = none then .draft else .assigned
  doneAt := none
  priority := .normal
  dueAt := none
  position := 0
  parentId := parentId

/-- What a request asks to change; `some none` clears a field. -/
structure Changes where
  body : Option String
  description : Option (Option String)
  assigneeId : Option (Option String)
  done : Option Bool
  status : Option TaskStatus
  priority : Option TaskPriority
  dueAt : Option (Option Int)
  position : Option Int
  parentId : Option (Option String)

inductive Field where
  | status
  | priority
  | dueAt
  | assigneeId
  | body
  | description
  | parentId
deriving DecidableEq

structure TaskChange where
  field : Field
  old : Option String
  new : Option String
deriving DecidableEq

structure ActivityRow where
  actorId : Option String
  change : TaskChange
deriving DecidableEq

section

variable (iso : Int → String)

def add (field : Field) (old new : Option String) : List TaskChange :=
  if old ≠ new then [⟨field,old,new⟩] else []

def diff (before after : TaskRow) : List TaskChange :=
  add .status (some before.status.text) (some after.status.text) ++
  add .priority (some before.priority.text) (some after.priority.text) ++
  add .dueAt (before.dueAt.map iso) (after.dueAt.map iso) ++
  add .assigneeId before.assigneeId after.assigneeId ++
  add .body (some before.body) (some after.body) ++
  add .description before.description after.description ++
  add .parentId before.parentId after.parentId

end

def wanted (before : TaskRow) (changes : Changes) : Option TaskStatus :=
  match changes.status with
  | some status => some status
  | none =>
    match changes.done with
    | none => none
    | some true => some .done
    | some false => some (if changes.assigneeId.getD before.assigneeId ≠ none then .assigned else .draft)

inductive Plan where
  | bothStatusFields
  | transitionRefused (old new : TaskStatus)
  | nothing
  | write (wanted : Option TaskStatus)

def Changes.none? (changes : Changes) : Bool :=
  changes.body.isNone && changes.description.isNone && changes.assigneeId.isNone && changes.priority.isNone &&
    changes.dueAt.isNone && changes.position.isNone && changes.parentId.isNone

def plan (before : TaskRow) (changes : Changes) : Plan :=
  if changes.done.isSome && changes.status.isSome then .bothStatusFields
  else
    match wanted before changes with
    | some status =>
      if status ≠ before.status ∧ status ∉ TRANSITIONS before.status then .transitionRefused before.status status
      else .write (some status)
    | none => if changes.none? then .nothing else .write none

def written (changes : Changes) (status : Option TaskStatus) (now : Int) (row : TaskRow) : TaskRow :=
  { row with
    body := changes.body.getD row.body
    description := changes.description.getD row.description
    assigneeId := changes.assigneeId.getD row.assigneeId
    status := status.getD row.status
    doneAt :=
      match status with
      | none => row.doneAt
      | some .done => some (row.doneAt.getD now)
      | some _ => none
    priority := changes.priority.getD row.priority
    dueAt := changes.dueAt.getD row.dueAt
    position := changes.position.getD row.position
    parentId := changes.parentId.getD row.parentId }

namespace History

inductive Stage where
  | read (before : TaskRow) (changes : Changes) (status : Option TaskStatus) (actorId : Option String)
  | wrote (fields : List TaskChange) (actorId : Option String)

structure Commit where
  actorId : Option String
  before : TaskRow
  after : TaskRow

structure State where
  row : TaskRow
  activity : List ActivityRow
  requests : Nat → Option Stage
  commits : List Commit

inductive Event where
  | reads (request : Nat) (changes : Changes) (actorId : Option String)
  | writes (request : Nat) (now : Int) (allowed : Bool)
  | records (request : Nat) (inserted : Bool)
  | stops (request : Nat)

def State.first (row : TaskRow) : State := ⟨row,[],fun _ => none,[]⟩

def State.at (state : State) (request : Nat) (stage : Option Stage) : State :=
  { state with requests := Function.update state.requests request stage }

def guarded (before row : TaskRow) (status : Option TaskStatus) : Bool := status.isNone || row.status = before.status

section

variable (iso : Int → String)

def step (state : State) : Event → Option State
  | .reads request changes actorId =>
    match state.requests request with
    | some _ => none
    | none =>
      match plan state.row changes with
      | .write status => some (state.at request (some (.read state.row changes status actorId)))
      | _ => some state
  | .writes request now allowed =>
    match state.requests request with
    | some (.read before changes status actorId) =>
      if allowed && guarded before state.row status then
        let after := written changes status now state.row
        some { state.at request (some (.wrote (diff iso before after) actorId)) with
          row := after
          commits := state.commits ++ [⟨actorId,state.row,after⟩] }
      else some (state.at request none)
    | _ => none
  | .records request inserted =>
    match state.requests request with
    | some (.wrote fields actorId) =>
      some { state.at request none with
        activity := if inserted then state.activity ++ fields.map (fun change => ⟨actorId,change⟩) else state.activity }
    | _ => none
  | .stops request => (state.requests request).map (fun _ => state.at request none)

def recorded (row : TaskRow) : Field → Option String
  | .status => some row.status.text
  | .priority => some row.priority.text
  | .dueAt => row.dueAt.map iso
  | .assigneeId => row.assigneeId
  | .body => some row.body
  | .description => row.description
  | .parentId => row.parentId

def truth (commits : List Commit) : List ActivityRow :=
  commits.flatMap (fun commit => (diff iso commit.before commit.after).map (fun change => ⟨commit.actorId,change⟩))

def replay : (Field → Option String) → List ActivityRow → Option (Field → Option String)
  | values,[] => some values
  | values,entry::rest =>
    if values entry.change.field = entry.change.old then
      replay (Function.update values entry.change.field entry.change.new) rest
    else none

def Linked (first : TaskRow) : List Commit → TaskRow → Prop
  | [],row => row = first
  | commit::rest,row => commit.before = first ∧ Linked commit.after rest row

def Settled (state : State) : Prop := ∀ request fields actorId, state.requests request ≠ some (.wrote fields actorId)

/-- Once every update has its history, the history is what was committed, and it replays to the row. -/
def Truthful (first : TaskRow) (state : State) : Prop :=
  Settled state → state.activity = truth iso state.commits ∧
    replay (recorded iso first) state.activity = some (recorded iso state.row)

/-- An update is written where the row is recorded as it was read and no other update still lacks its
history, and no history is lost. -/
def Serial (state : State) : Event → Prop
  | .writes request _ _ => ∀ before changes status actorId,
      state.requests request = some (.read before changes status actorId) →
        recorded iso before = recorded iso state.row ∧ Settled state
  | .records _ inserted => inserted = true
  | .stops request => ∀ fields actorId, state.requests request ≠ some (.wrote fields actorId)
  | .reads _ _ _ => True

end

def Allowed (old new : TaskStatus) : Prop := new = old ∨ new ∈ TRANSITIONS old

def Timed (commit : Commit) : Prop :=
  (commit.after.doneAt.isSome = true ↔ commit.after.status = .done) ∧
    (commit.before.status = .done → commit.after.status = .done → commit.after.doneAt = commit.before.doneAt)

end History

end Depsis.Desk

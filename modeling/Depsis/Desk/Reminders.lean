import Depsis.Desk.Tasks
import Depsis.Foundation.JsString
import Depsis.Foundation.Table

/-! The overdue sweep: the tasks it selects, and the reminders it inserts in a transaction of its
own. The tables are those of one organization; times are in microseconds.
-/
namespace Depsis.Desk.Reminders

open Depsis.Foundation

inductive NotificationKind where
  | assigned
  | unassigned
  | status
  | due
  | overdue
  | comment
  | mention
deriving DecidableEq

structure Notification where
  userId : String
  kind : NotificationKind
  taskId : Option String
  title : String
  readAt : Option Int
  createdAt : Int

def DAY : Int := 24 * 3600 * 1000000

def BATCH : Nat := 500

structure Selected where
  id : String
  body : String
  assigneeId : String
  late : Bool
deriving DecidableEq

def kindOf (late : Bool) : NotificationKind := if late then .overdue else .due

/-- `slice(0, size)`; a pair that is cut in two is not sent as it was. -/
def slice (size : Nat) : List Char → List Char
  | [] => []
  | char::rest =>
    if (JsString.units char).length ≤ size then char :: slice (size - (JsString.units char).length) rest
    else if size = 0 then []
    else ['\ufffd']

def trimmed (text : List Char) : List Char :=
  ((text.dropWhile JsString.isSpace).reverse.dropWhile JsString.isSpace).reverse

def titleOf (late : Bool) (body : String) : String :=
  (if late then "Gecikti: " else "Yarına kadar: ") ++ String.ofList (slice 79 (trimmed body.toList))

structure State where
  tasks : Table String TaskRow
  users : Table String (Option Int)
  notifications : List Notification
  now : Int
  batch : Option (List Selected)
  reminders : List Notification
  retiredTasks : List String
  retiredUsers : List String

inductive Event where
  | edits (tasks : Table String TaskRow) (users : Table String (Option Int))
  | elapses (time : Nat)
  | reads (which : Notification → Bool)
  | tells (notification : Notification)
  | selects (batch : List Selected)
  | inserts
  | fails

def State.first (tasks : Table String TaskRow) (users : Table String (Option Int)) (now : Int) : State :=
  ⟨tasks,users,[],now,none,[],[],[]⟩

def enabled (users : Table String (Option Int)) (id : String) : Bool := users.lookup id = some none

def Notification.about (notification : Notification) (id assigneeId : String) (late : Bool) : Bool :=
  notification.taskId = some id && notification.userId = assigneeId && notification.kind = kindOf late

def candidate (state : State) (id : String) (row : TaskRow) : Option Selected :=
  match row.dueAt, row.assigneeId with
  | some dueAt,some assigneeId =>
    let late := decide (dueAt < state.now)
    if enabled state.users assigneeId && row.status ≠ .done && row.status ≠ .cancelled && dueAt < state.now + DAY &&
        !state.notifications.any (fun notification =>
          notification.about id assigneeId late && state.now - DAY < notification.createdAt) then
      some ⟨id,row.body,assigneeId,late⟩
    else none
  | _,_ => none

def candidates (state : State) : List Selected :=
  state.tasks.rows.filterMap (fun task => candidate state task.1 task.2)

/-- What the query may answer: `LIMIT` without an order. -/
def Answer (state : State) (batch : List Selected) : Prop :=
  batch.Subperm (candidates state) ∧ batch.length = min BATCH (candidates state).length

instance (state : State) (batch : List Selected) : Decidable (Answer state batch) :=
  inferInstanceAs (Decidable (_ ∧ _))

def conflicts (notifications : List Notification) (item : Selected) : Bool :=
  notifications.any (fun notification => notification.about item.id item.assigneeId item.late && notification.readAt.isNone)

def reminder (now : Int) (item : Selected) : Notification :=
  ⟨item.assigneeId,kindOf item.late,some item.id,titleOf item.late item.body,none,now⟩

def inserted (state : State) : List Notification → List Selected → List Notification
  | _,[] => []
  | notifications,item::rest =>
    if enabled state.users item.assigneeId && !conflicts notifications item then
      reminder state.now item :: inserted state (notifications ++ [reminder state.now item]) rest
    else inserted state notifications rest

def refused (state : State) (reminders : List Notification) : Bool :=
  reminders.any (fun notification => notification.taskId.any (fun id => (state.tasks.lookup id).isNone))

def notifyMany (state : State) (items : List Selected) : State :=
  let fresh := inserted state state.notifications items
  if refused state fresh then { state with batch := none }
  else { state with batch := none, notifications := state.notifications ++ fresh, reminders := state.reminders ++ fresh }

def edit (state : State) (tasks : Table String TaskRow) (users : Table String (Option Int)) : State :=
  { state with
    tasks := tasks
    users := users
    notifications := state.notifications.filter (fun notification =>
      notification.taskId.all (fun id => (tasks.lookup id).isSome) && (users.lookup notification.userId).isSome)
    retiredTasks := state.retiredTasks ++ state.tasks.keys.filter (fun id => (tasks.lookup id).isNone)
    retiredUsers := state.retiredUsers ++ state.users.keys.filter (fun id => (users.lookup id).isNone) }

def step (state : State) : Event → Option State
  | .edits tasks users =>
    if (∀ id ∈ tasks.keys, id ∉ state.retiredTasks) ∧ ∀ id ∈ users.keys, id ∉ state.retiredUsers then
      some (edit state tasks users)
    else none
  | .elapses time => some { state with now := state.now + time }
  | .reads which => some { state with
      notifications := state.notifications.map (fun notification =>
        if which notification && notification.readAt.isNone then { notification with readAt := some state.now } else notification) }
  | .tells notification =>
    if notification.kind = .due ∨ notification.kind = .overdue then none
    else some { state with notifications := state.notifications ++ [notification] }
  | .selects batch =>
    if state.batch.isNone ∧ Answer state batch then some { state with batch := some batch } else none
  | .inserts => state.batch.map (notifyMany state)
  | .fails => state.batch.map (fun _ => { state with batch := none })

def Spaced (reminders : List Notification) : Prop :=
  reminders.Pairwise (fun earlier later => earlier.taskId = later.taskId → earlier.userId = later.userId →
    earlier.kind = later.kind → earlier.createdAt + DAY ≤ later.createdAt)

def Stays (id assigneeId : String) (late : Bool) (state : State) : Prop :=
  ∃ row dueAt, state.tasks.lookup id = some row ∧ row.dueAt = some dueAt ∧ row.assigneeId = some assigneeId ∧
    enabled state.users assigneeId = true ∧ row.status ≠ .done ∧ row.status ≠ .cancelled ∧
      dueAt < state.now + DAY ∧ late = decide (dueAt < state.now)

def Reminded (id assigneeId : String) (late : Bool) (state : State) : Prop :=
  ∃ notification ∈ state.notifications, notification.about id assigneeId late = true

def Event.waits : Event → Bool
  | .inserts => false
  | .fails => false
  | _ => true

end Depsis.Desk.Reminders

import Depsis.Desk.Tasks
import Depsis.Foundation.ReadCommitted

/-! Subtasks: the transactions that create, update and delete tasks, with the trigger that keeps
them one level deep, the reference to the parent and its cascade. A read of the service that can
only refuse is left to `abort`.
-/
namespace Depsis.Desk.Subtasks

open Depsis.Foundation Depsis.Foundation.ReadCommitted

inductive Write where
  | insert (id : String) (row : TaskRow)
  | set (id : String) (changes : Changes) (status : Option TaskStatus) (expected : TaskRow) (now : Int)

def Write.id : Write → String
  | .insert id _ => id
  | .set id _ _ _ _ => id

def Write.parent : Write → Option String
  | .insert _ row => row.parentId
  | .set _ changes _ _ _ => changes.parentId.join

inductive Program where
  | assertParent (organizationId : String) (parentId : Option String) (write : Write)
  | apply (organizationId : String) (write : Write)
  | reference (parentId : String)
  | remove (organizationId id userId : String) (isOrganizationAdmin : Bool)
  /-- `ON DELETE CASCADE` from the tasks just deleted -/
  | cascade (gone : List String)
  | done

inductive Request where
  | create (organizationId createdBy id body : String) (assigneeId parentId : Option String)
  | update (organizationId id : String) (changes : Changes) (status : Option TaskStatus) (expected : TaskRow) (now : Int)
  | remove (organizationId id userId : String) (isOrganizationAdmin : Bool)

/-- `tasks_one_level_deep`; its queries see the rows of the session's organization. -/
def oneLevelDeep (organizationId : String) (tasks : Table String TaskRow) (id : String) : Option String → Bool
  | none => true
  | some parentId =>
    parentId ≠ id &&
      !tasks.any (fun other row => row.organizationId = organizationId && other = parentId && row.parentId.isSome) &&
      !tasks.any (fun _ row => row.organizationId = organizationId && row.parentId = some id)

def afterWrite (before after : Option String) : Program :=
  match after with
  | none => .done
  | some parentId => if before = some parentId then .done else .reference parentId

def statement (program : Program) (tasks : Table String TaskRow) : Outcome String TaskRow Program :=
  match program with
  | .assertParent organizationId none write => .proceed [] [] (.apply organizationId write)
  | .assertParent organizationId (some parentId) write =>
    match tasks.lookup parentId with
    | some row => if row.organizationId = organizationId then .proceed [] [] (.apply organizationId write) else .fail
    | none => .fail
  | .apply organizationId (.insert id row) =>
    if (tasks.lookup id).isSome then .fail
    else if oneLevelDeep organizationId tasks id row.parentId then
      .proceed [] [(id,some row)] (afterWrite none row.parentId)
    else .fail
  | .apply organizationId (.set id changes status expected now) =>
    match tasks.lookup id with
    | none => .commit none
    | some row =>
      if row.organizationId ≠ organizationId || !History.guarded expected row status then .commit none
      -- the trigger is `BEFORE UPDATE OF parent_id`
      else if changes.parentId.isNone || oneLevelDeep organizationId tasks id changes.parentId.join then
        .proceed [] [(id,some (written changes status now row))]
          (afterWrite row.parentId (written changes status now row).parentId)
      else .fail
  | .reference parentId => if (tasks.lookup parentId).isSome then .proceed [(parentId,.keyShare)] [] .done else .fail
  | .remove organizationId id userId isOrganizationAdmin =>
    match tasks.lookup id with
    | none => .commit none
    | some row =>
      if row.organizationId = organizationId ∧ (isOrganizationAdmin ∨ row.createdBy = userId ∨ row.assigneeId = some userId) then
        .proceed [] [(id,none)] (.cascade [id])
      else .commit none
  | .cascade gone =>
    let children := (tasks.rows.filter (fun task => task.2.parentId.any (fun parentId => gone.contains parentId))).map Prod.fst
    if children = [] then .commit none
    else .proceed [] (children.map (fun child => (child,none))) (.cascade children)
  | .done => .commit none

def opening : Request → Program
  | .create organizationId createdBy id body assigneeId parentId =>
    .assertParent organizationId parentId (.insert id (created organizationId createdBy body assigneeId parentId))
  | .update organizationId id changes status expected now =>
    match changes.parentId with
    | some parentId => .assertParent organizationId parentId (.set id changes status expected now)
    | none => .apply organizationId (.set id changes status expected now)
  | .remove organizationId id userId isOrganizationAdmin => .remove organizationId id userId isOrganizationAdmin

def system : System String TaskRow Program Request := ⟨opening,statement⟩

abbrev Tasks := Database String TaskRow Program Nat

def OneLevel (tasks : Table String TaskRow) : Prop :=
  ∀ id row parentId, tasks.lookup id = some row → row.parentId = some parentId →
    ∃ parent, tasks.lookup parentId = some parent ∧ parent.parentId = none ∧ parent.organizationId = row.organizationId

def Under (tasks : Table String TaskRow) (id other : String) : Prop :=
  ∃ row, tasks.lookup id = some row ∧ row.parentId = some other

def Alone (tasks : Tasks) (session : Nat) (id parentId : String) : Prop :=
  ∀ other transaction, other ≠ session → tasks.running.lookup other = some transaction →
    (∀ row, transaction.writes.lookup parentId = some (some row) → row.parentId = none) ∧
      ∀ child row, transaction.writes.lookup child = some (some row) → row.parentId ≠ some id

def Minted (home : String → String) : Action Request Nat → Prop
  | .start _ (.create organizationId _ id _ _ _) => home id = organizationId
  | _ => True

/-- A task is put under another one while no other transaction is about to nest either of them. -/
def Unmet (tasks : Tasks) : Action Request Nat → Prop
  | .execute session => ∀ transaction organizationId write parentId,
      tasks.running.lookup session = some transaction → transaction.program = .apply organizationId write →
        write.parent = some parentId → Alone tasks session write.id parentId
  | _ => True

def Homed (home : String → String) (tasks : Table String TaskRow) : Prop :=
  ∀ id row, tasks.lookup id = some row → row.organizationId = home id

end Depsis.Desk.Subtasks

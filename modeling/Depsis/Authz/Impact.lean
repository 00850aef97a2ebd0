import Depsis.Authz.Resolve
import Depsis.Foundation.FirstSeen
import Depsis.Foundation.JsString

/-! The dry run of `packages/authz/src/impact.ts`: one folder's effective sets
before and after a change, and the roll-up over a subtree.
-/
namespace Depsis.Authz

open Depsis.Foundation List

structure UserImpact where
  userId : String
  before : List Permission
  after : List Permission

structure FolderImpact where
  nodeId : String
  gaining : List UserImpact
  losing : List UserImpact

structure SubtreeImpact where
  foldersAffected : Nat
  usersGaining : List UserImpact
  usersLosing : List UserImpact

def byUserId (users : List UserImpact) : List UserImpact :=
  users.mergeSort (fun first second => decide (JsString.encode first.userId ≤ JsString.encode second.userId))

def lastNodeId (chain : List AclNode) (side : String) : Except String String :=
  match chain.getLast? with
  | some target => .ok target.id
  | none => .error ("the " ++ side ++ " chain must contain at least the target node")

structure Delta where
  user : UserImpact
  gained : Bool
  lost : Bool

def deltaOf (subject : Subject) (had has : List Permission) : Delta :=
  { user := ⟨subject.userId,sortPermissions had,sortPermissions has⟩
    gained := has.any (fun permission => !had.contains permission)
    lost := had.any (fun permission => !has.contains permission) }

def delta (before after : List AclNode) (subject : Subject) : Except String Delta := do
  let had ← resolve before subject
  let has ← resolve after subject
  return deltaOf subject had.effective has.effective

def resolveImpact (before after : List AclNode) (subjects : List Subject) : Except String FolderImpact := do
  let nodeId ← lastNodeId after "after"
  let beforeNodeId ← lastNodeId before "before"
  if beforeNodeId ≠ nodeId then
    throw ("impact chains must end at the same node: before ends at " ++ beforeNodeId ++ ", after at " ++ nodeId)
  let deltas ← subjects.mapM (delta before after)
  return { nodeId := nodeId
           gaining := byUserId ((deltas.filter Delta.gained).map Delta.user)
           losing := byUserId ((deltas.filter Delta.lost).map Delta.user) }

def FolderImpact.affected (folder : FolderImpact) : Bool := !folder.gaining.isEmpty || !folder.losing.isEmpty

def aggregateImpact (folders : List FolderImpact) : SubtreeImpact :=
  let rolled := folders.foldl (fun rolled folder =>
    if folder.affected then
      { foldersAffected := rolled.foldersAffected + 1
        usersGaining := folder.gaining.foldl (FirstSeen.add UserImpact.userId) rolled.usersGaining
        usersLosing := folder.losing.foldl (FirstSeen.add UserImpact.userId) rolled.usersLosing }
    else rolled) (⟨0,[],[]⟩ : SubtreeImpact)
  { rolled with usersGaining := byUserId rolled.usersGaining, usersLosing := byUserId rolled.usersLosing }

/-- One direction of a roll-up: `side` of each folder, in traversal order. -/
def rollUp (side : FolderImpact → List UserImpact) (folders : List FolderImpact) : List UserImpact :=
  byUserId (folders.foldl (fun kept folder => (side folder).foldl (FirstSeen.add UserImpact.userId) kept) [])

theorem mem_byUserId {users : List UserImpact} {user : UserImpact} : user ∈ byUserId users ↔ user ∈ users :=
  (mergeSort_perm users _).mem_iff

theorem ids_byUserId (users : List UserImpact) :
    ((byUserId users).map UserImpact.userId).Perm (users.map UserImpact.userId) :=
  (mergeSort_perm users _).map _

theorem aggregateImpact_eq (folders : List FolderImpact) : aggregateImpact folders =
    { foldersAffected := folders.countP FolderImpact.affected
      usersGaining := rollUp FolderImpact.gaining folders
      usersLosing := rollUp FolderImpact.losing folders } := by
  have passes (start : SubtreeImpact) : folders.foldl (fun rolled folder =>
      if folder.affected then
        { foldersAffected := rolled.foldersAffected + 1
          usersGaining := folder.gaining.foldl (FirstSeen.add UserImpact.userId) rolled.usersGaining
          usersLosing := folder.losing.foldl (FirstSeen.add UserImpact.userId) rolled.usersLosing }
      else rolled) start =
      { foldersAffected := start.foldersAffected + folders.countP FolderImpact.affected
        usersGaining := folders.foldl (fun kept folder =>
          folder.gaining.foldl (FirstSeen.add UserImpact.userId) kept) start.usersGaining
        usersLosing := folders.foldl (fun kept folder =>
          folder.losing.foldl (FirstSeen.add UserImpact.userId) kept) start.usersLosing } := by
    induction folders generalizing start with
    | nil => rfl
    | cons folder rest ih =>
      rw [foldl_cons,ih,countP_cons]
      split
      next => simp only [foldl_cons,Nat.add_assoc,Nat.add_comm 1]
      next same =>
        have quiet : folder.gaining = [] ∧ folder.losing = [] := by
          simpa [FolderImpact.affected] using same
        simp [quiet]
  simp only [aggregateImpact,passes,rollUp]
  simp

section RollUp

variable {side : FolderImpact → List UserImpact} {folders : List FolderImpact}

theorem mem_rollUp {user : UserImpact} (distinct : ∀ folder ∈ folders, ((side folder).map UserImpact.userId).Nodup) :
    user ∈ rollUp side folders ↔ ∃ front folder back, folders = front ++ folder::back ∧
      user ∈ side folder ∧ ∀ earlier ∈ front, user.userId ∉ (side earlier).map UserImpact.userId := by
  rw [rollUp,mem_byUserId,FirstSeen.mem_groups distinct]
  simp

theorem ids_rollUp {userId : String} : userId ∈ (rollUp side folders).map UserImpact.userId ↔
    ∃ folder ∈ folders, userId ∈ (side folder).map UserImpact.userId := by
  rw [rollUp,(ids_byUserId _).mem_iff,FirstSeen.keys_groups]
  simp

theorem rollUp_nodup : ((rollUp side folders).map UserImpact.userId).Nodup :=
  (ids_byUserId _).nodup_iff.mpr (FirstSeen.nodup_groups nodup_nil)

end RollUp

section Mapped

variable {Source Target Failure : Type*}

theorem mapM_ok {step : Source → Except Failure Target} (answer : Source → Target) {items : List Source}
    (succeeds : ∀ item ∈ items, step item = .ok (answer item)) : items.mapM step = .ok (items.map answer) := by
  induction items with
  | nil => rfl
  | cons item rest ih =>
    rw [mapM_cons,succeeds item mem_cons_self,
      ih (fun later member => succeeds later (mem_cons_of_mem _ member))]
    rfl

end Mapped

theorem resolveImpact_linked {before after : List AclNode} {subjects : List Subject} {nodeId : String}
    (beforeLinked : assertChain before = .ok ()) (afterLinked : assertChain after = .ok ())
    (beforeEnds : lastNodeId before "before" = .ok nodeId) (afterEnds : lastNodeId after "after" = .ok nodeId) :
    resolveImpact before after subjects = .ok
      { nodeId := nodeId
        gaining := byUserId (((subjects.map (fun subject => deltaOf subject
          (resolution before subject).effective (resolution after subject).effective)).filter Delta.gained).map Delta.user)
        losing := byUserId (((subjects.map (fun subject => deltaOf subject
          (resolution before subject).effective (resolution after subject).effective)).filter Delta.lost).map Delta.user) } := by
  have deltas : subjects.mapM (delta before after) = .ok (subjects.map (fun subject => deltaOf subject
      (resolution before subject).effective (resolution after subject).effective)) :=
    mapM_ok _ (fun subject _ => by
      rw [delta,resolve_linked beforeLinked,resolve_linked afterLinked]
      rfl)
  rw [resolveImpact,beforeEnds,afterEnds,deltas]
  simp only [bind,Except.bind,ne_eq,not_true_eq_false,if_false]
  rfl

end Depsis.Authz

import Depsis.Authz.Impact
import Depsis.Foundation.Table
import Depsis.Permissions.Rows

/-! `PermissionsService` (`apps/api/src/permissions/permissions.service.ts`):
resolving a subject at a node, and replacing the grants of one node with a
preview of what the replacement changes below it.
-/
namespace Depsis.Permissions

open Depsis.Authz Depsis.Files Depsis.Foundation List

inductive Refusal where
  | nodeNotFound
  | notManageable
  | notAFolder
  | lastGrant
  | unknownPrincipal (missing : List String)
  | failed (message : String)
  | violated (constraint : String)
  deriving DecidableEq

inductive NodeRef where
  | entry (id : String)
  | share (id : String)

def NodeRef.concealable : NodeRef → Bool
  | .entry _ => true
  | .share _ => false

structure Actor where
  userId : String
  isAdmin : Bool

structure GrantInput where
  userId : Option String
  teamId : Option String
  permissions : List Permission

structure User where
  id : String
  organizationId : String
  username : String
  isAdmin : Bool
  deriving DecidableEq

structure Team where
  id : String
  organizationId : String

structure TeamMember where
  organizationId : String
  teamId : String
  userId : String

def sameNode (row other : GrantRow) : Bool :=
  decide (row.organizationId = other.organizationId) && decide (row.shareId = other.shareId) &&
    decide (nodeOf row.shareId row = nodeOf other.shareId other)

def clashes (row other : GrantRow) : Bool :=
  sameNode row other && ((row.userId.isSome && decide (row.userId = other.userId)) ||
    (row.teamId.isSome && decide (row.teamId = other.teamId)))

structure Tables extends Snapshot where
  users : List User
  teams : List Team
  members : List TeamMember
  usersKeyed : (users.map User.id).Nodup
  unique : grants.Pairwise (fun row other => clashes other row = false)

theorem Tables.entriesKeyed (tables : Tables) : (tables.entries.map FileEntry.id).Nodup := tables.keyed

theorem Tables.entriesApart (tables : Tables) : ∀ share ∈ tables.shares, ∀ entry ∈ tables.entries, entry.id ≠ share.id := tables.apart

structure NodeRow where
  id : String
  parentId : Option String
  deriving DecidableEq

structure Target where
  shareId : String
  entryId : Option String
  isFolder : Bool
  deriving DecidableEq

def Target.nodeKey (target : Target) : String := target.entryId.getD target.shareId

def IMPACT_FOLDER_LIMIT : Nat := 1000

def locate (tables : Tables) (organizationId : String) : NodeRef → Except Refusal Target
  | .share id =>
    match tables.shares.find? (fun share => share.organizationId = organizationId ∧ share.id = id) with
    | some share => .ok ⟨share.id,none,true⟩
    | none => .error .nodeNotFound
  | .entry id =>
    match tables.entries.find? (fun entry => entry.organizationId = organizationId ∧ entry.id = id) with
    | some entry => .ok ⟨entry.shareId,some entry.id,decide (entry.kind = .folder)⟩
    | none => .error .nodeNotFound

/-- The recursive query up `parent_id`, the target first, for `steps` rows past it. -/
def ups (entries : List FileEntry) (organizationId : String) : Nat → String → List NodeRow
  | steps,id =>
    match entries.find? (fun entry => entry.organizationId = organizationId ∧ entry.id = id) with
    | none => []
    | some entry => ⟨entry.id,entry.parentId⟩::(match steps,entry.parentId with
      | steps + 1,some parent => ups entries organizationId steps parent
      | _,_ => [])

def ancestorRows (tables : Tables) (organizationId : String) (target : Target) : Except Refusal (List NodeRow) :=
  match target.entryId with
  | none => .ok []
  | some entryId =>
    let rows := (ups tables.entries organizationId MAX_TREE_DEPTH entryId).reverse
    match rows.head? with
    | none => .error .nodeNotFound
    | some top =>
      if top.parentId = none then .ok rows
      else .error (.failed ("the ancestor chain of " ++ entryId ++ " is deeper than " ++
        toString MAX_TREE_DEPTH ++ " folders"))

def liveDescent (organizationId shareId : String) (entryId : Option String) : Descent where
  starts entry := decide (entry.organizationId = organizationId) && decide (entry.shareId = shareId) &&
    decide (entry.parentId = entryId) && decide (entry.kind = .folder) && !entry.trashed
  enters entry := decide (entry.organizationId = organizationId) && decide (entry.kind = .folder) && !entry.trashed

structure Subtree where
  nodes : List NodeRow
  total : Nat
  truncated : Bool

def liveRows (tables : Tables) (organizationId : String) (target : Target) : List FolderRow :=
  (liveDescent organizationId target.shareId target.entryId).walk tables.entries MAX_TREE_DEPTH

def subtreeRows (tables : Tables) (organizationId : String) (target : Target) : Except Refusal Subtree :=
  let down := liveRows tables organizationId target
  let rows := down.take IMPACT_FOLDER_LIMIT
  let maxDepth := (down.map FolderRow.depth).foldl max 0
  if MAX_TREE_DEPTH ≤ maxDepth then
    .error (.failed ("the subtree under " ++ target.entryId.getD "the share root" ++ " is deeper than " ++
      toString MAX_TREE_DEPTH ++ " folders, so its size cannot be reported honestly"))
  else .ok ⟨rows.map (fun row => ⟨row.id,row.parentId⟩),down.length,decide (rows.length < down.length)⟩

def grantsElsewhere (grants : List GrantRow) (organizationId shareId nodeKey : String) : Nat :=
  grants.countP (fun row => decide (row.organizationId = organizationId) && decide (row.shareId = shareId) &&
    decide (nodeOf shareId row ≠ nodeKey))

/-- The `WHERE` of the rows read: those on the root and on the entries named. -/
def selects (organizationId shareId : String) (entryIds : List String) (row : GrantRow) : Bool :=
  decide (row.organizationId = organizationId) && decide (row.shareId = shareId) &&
    (match row.entryId with
    | none => true
    | some entryId => entryIds.contains entryId)

theorem selects_iff {organizationId shareId : String} {entryIds : List String} {row : GrantRow} :
    selects organizationId shareId entryIds row = true ↔ row.organizationId = organizationId ∧
      row.shareId = shareId ∧ ∀ id, row.entryId = some id → id ∈ entryIds := by
  unfold selects
  cases row.entryId <;> simp [and_assoc]

def grantRows (grants : List GrantRow) (organizationId shareId : String) (entryIds : List String) : List GrantRow :=
  grants.filter (selects organizationId shareId entryIds)

def readPermissions (values : List String) : Except Refusal (List Permission) :=
  values.mapM (fun value =>
    match asPermission value with
    | some permission => .ok permission
    | none => .error (.failed ("the database holds a permission this build does not know: " ++ value)))

def principalOf (userId teamId : Option String) : Principal :=
  match userId with
  | none => .team (teamId.getD "")
  | some user => .user user

def readGrant (row : GrantRow) : Except Refusal Grant :=
  (readPermissions row.permissions).map (fun permissions => ⟨principalOf row.userId row.teamId,permissions⟩)

def groupGrants (rows : List GrantRow) (shareId : String) : Except Refusal (String → List Grant) :=
  (rows.mapM (fun row => (readGrant row).map (fun grant => (nodeOf shareId row,grant)))).map
    (fun grouped node => (grouped.filter (fun entry => entry.1 = node)).map Prod.snd)

def buildChain (shareId : String) (ancestors : List NodeRow) (grants : String → List Grant) : List AclNode :=
  ⟨shareId,none,grants shareId⟩::
    ancestors.map (fun row => ⟨row.id,some (row.parentId.getD shareId),grants row.id⟩)

def teamIdsOf (tables : Tables) (organizationId userId : String) : List String :=
  (tables.members.filter (fun member => member.organizationId = organizationId ∧ member.userId = userId)).map
    TeamMember.teamId

def subjectOf (tables : Tables) (organizationId userId : String) : Subject :=
  ⟨userId,teamIdsOf tables organizationId userId⟩

def resolved (answer : Except String α) : Except Refusal α := answer.mapError .failed

/-- The reading half of `read`: what the subject may do at the node. -/
def resolveAt (tables : Tables) (organizationId : String) (ref : NodeRef) (subject : Subject) :
    Except Refusal Resolution := do
  let target ← locate tables organizationId ref
  let ancestors ← ancestorRows tables organizationId target
  let grants ← groupGrants (grantRows tables.grants organizationId target.shareId (ancestors.map NodeRow.id))
    target.shareId
  resolved (resolve (buildChain target.shareId ancestors grants) subject)

def assertPrincipalsExist (tables : Tables) (organizationId : String) (proposed : List GrantInput) :
    Except Refusal Unit :=
  let users := (tables.users.filter (fun user => user.organizationId = organizationId)).map User.id
  let teams := (tables.teams.filter (fun team => team.organizationId = organizationId)).map Team.id
  let missing := ((proposed.filterMap GrantInput.userId).filter (fun id => !users.contains id)) ++
    ((proposed.filterMap GrantInput.teamId).filter (fun id => !teams.contains id))
  if missing = [] then .ok () else .error (.unknownPrincipal missing)

def impactSubjects (tables : Tables) (organizationId : String) : List Subject :=
  (tables.users.filter (fun user => user.organizationId = organizationId ∧ user.isAdmin = false)).map
    (fun user => subjectOf tables organizationId user.id)

def usernameOf (tables : Tables) (organizationId userId : String) : String :=
  ((tables.users.find? (fun user => user.organizationId = organizationId ∧ user.id = userId)).map
    User.username).getD "(unknown)"

structure AffectedUserView where
  userId : String
  username : String
  before : List Permission
  after : List Permission

structure ImpactView where
  foldersAffected : Nat
  usersGaining : List AffectedUserView
  usersLosing : List AffectedUserView

def viewOf (username : String → String) (user : UserImpact) : AffectedUserView :=
  ⟨user.userId,username user.userId,user.before,user.after⟩

def parentTable (shareId : String) (ancestors nodes : List NodeRow) : Table String (Option String) :=
  (((∅ : Table String (Option String)).insert shareId none).fill
    (ancestors.map (fun row => (row.id,some (row.parentId.getD shareId))))).fill
    (nodes.map (fun row => (row.id,some (row.parentId.getD shareId))))

/-- The loop of `chainTo`, target first. The source has no budget of steps: a walk that
runs out of this one would not end there. -/
def climb (parents : Table String (Option String)) (grants : String → List Grant) :
    Nat → String → Except String (List AclNode)
  | 0,cursor => .error ("the walk up from " ++ cursor ++ " does not end")
  | steps + 1,cursor =>
    match parents.lookup cursor with
    | none => .error ("node " ++ cursor ++ " has no parent in the loaded tree")
    | some none => .ok [⟨cursor,none,grants cursor⟩]
    | some (some parent) => (climb parents grants steps parent).map (⟨cursor,some parent,grants cursor⟩::·)

def chainTo (id : String) (parents : Table String (Option String)) (grants : String → List Grant) :
    Except String (List AclNode) :=
  (climb parents grants (parents.size + 1) id).map List.reverse

structure ImpactRequest where
  shareId : String
  nodeKey : String
  ancestors : List NodeRow
  subtree : Subtree
  before : String → List Grant
  after : String → List Grant
  subjects : List Subject
  username : String → String

def impactTargets (request : ImpactRequest) : List String :=
  (request.nodeKey::request.subtree.nodes.map NodeRow.id).eraseDups

def folderImpact (request : ImpactRequest) (id : String) : Except String FolderImpact := do
  let parents := parentTable request.shareId request.ancestors request.subtree.nodes
  let before ← chainTo id parents request.before
  let after ← chainTo id parents request.after
  resolveImpact before after request.subjects

def impactOf (request : ImpactRequest) : Except String ImpactView :=
  ((impactTargets request).mapM (folderImpact request)).map (fun folders =>
    let rolled := aggregateImpact folders
    { foldersAffected := if request.subtree.truncated then request.subtree.total + 1 else rolled.foldersAffected
      usersGaining := rolled.usersGaining.map (viewOf request.username)
      usersLosing := rolled.usersLosing.map (viewOf request.username) })

def grantOfInput (input : GrantInput) : Grant := ⟨principalOf input.userId input.teamId,input.permissions⟩

def rowOfInput (organizationId : String) (target : Target) (input : GrantInput) : GrantRow :=
  ⟨organizationId,target.shareId,target.entryId,input.userId,input.teamId,input.permissions.map Permission.name⟩

/-- One `INSERT`, with the table's checks, its two unique indexes and its foreign key. -/
def insertGrant (tables : Tables) (row : GrantRow) : Except Refusal Tables :=
  if row.userId.isNone = row.teamId.isNone then .error (.violated "folder_grants_one_principal")
  else if row.permissions = [] then .error (.violated "folder_grants_not_empty")
  else if clash : tables.grants.any (clashes row) = true then
    .error (.violated (if row.userId.isSome then "folder_grants_user_unique" else "folder_grants_team_unique"))
  else if stored : row.entryId.all (fun id => tables.entries.any (fun entry => entry.id = id)) = true then
    .ok { tables with
      grants := tables.grants ++ [row]
      referenced := fun other member =>
        (mem_append.mp member).elim (tables.referenced other) (fun new => mem_singleton.mp new ▸ stored)
      unique := pairwise_append.mpr ⟨tables.unique,pairwise_singleton _ _,fun other member new same => by
        cases mem_singleton.mp same
        exact Bool.eq_false_iff.mpr (fun found => clash (any_eq_true.mpr ⟨other,member,found⟩))⟩ }
  else .error (.violated "folder_grants_entry_id_fkey")

def onNode (organizationId : String) (target : Target) (row : GrantRow) : Bool :=
  decide (row.organizationId = organizationId) && decide (row.shareId = target.shareId) &&
    decide (nodeOf target.shareId row = target.nodeKey)

def deleteGrants (tables : Tables) (organizationId : String) (target : Target) : Tables :=
  { tables with
    grants := tables.grants.filter (fun row => !onNode organizationId target row)
    referenced := fun row member => tables.referenced row (mem_filter.mp member).1
    unique := tables.unique.sublist filter_sublist }

def replaceGrants (tables : Tables) (organizationId : String) (target : Target) (proposed : List GrantInput) :
    Except Refusal Tables :=
  (proposed.map (rowOfInput organizationId target)).foldlM insertGrant (deleteGrants tables organizationId target)

def refuse (condition : Bool) (refusal : Refusal) : Except Refusal Unit :=
  if condition then .error refusal else .ok ()

/-- `manage` is needed, and a node the caller cannot `list` is not confirmed to exist. -/
def assertManageable (tables : Tables) (organizationId : String) (actor : Actor) (ref : NodeRef)
    (chain : List AclNode) : Except Refusal Unit :=
  if actor.isAdmin then .ok ()
  else do
    let resolution ← resolved (resolve chain (subjectOf tables organizationId actor.userId))
    refuse (ref.concealable && !resolution.effective.contains .list) .nodeNotFound
    refuse (!resolution.effective.contains .manage) .notManageable

/-- The transaction of `write` up to the numbers a dry run answers with. -/
def preview (tables : Tables) (organizationId : String) (actor : Actor) (ref : NodeRef)
    (proposed : List GrantInput) : Except Refusal (Target × ImpactView) := do
  let target ← locate tables organizationId ref
  refuse (!target.isFolder) .notAFolder
  let ancestors ← ancestorRows tables organizationId target
  let subtree ← subtreeRows tables organizationId target
  let treeIds := ancestors.map NodeRow.id ++ subtree.nodes.map NodeRow.id
  let before ← groupGrants (grantRows tables.grants organizationId target.shareId treeIds) target.shareId
  assertManageable tables organizationId actor ref (buildChain target.shareId ancestors before)
  assertPrincipalsExist tables organizationId proposed
  refuse (grantsElsewhere tables.grants organizationId target.shareId target.nodeKey = 0 && proposed.isEmpty) .lastGrant
  let impact ← resolved (impactOf
    { shareId := target.shareId
      nodeKey := target.nodeKey
      ancestors := ancestors
      subtree := subtree
      before := before
      after := Function.update before target.nodeKey (proposed.map grantOfInput)
      subjects := impactSubjects tables organizationId
      username := usernameOf tables organizationId })
  return (target,impact)

structure WriteResult where
  impact : ImpactView
  changed : Bool
  tables : Tables

/-- `write`, up to the job it enqueues; a dry run changes nothing. -/
def write (tables : Tables) (organizationId : String) (actor : Actor) (ref : NodeRef) (proposed : List GrantInput)
    (dryRun : Bool) : Except Refusal WriteResult := do
  let (target,impact) ← preview tables organizationId actor ref proposed
  if dryRun then return ⟨impact,false,tables⟩
  return ⟨impact,true,← replaceGrants tables organizationId target proposed⟩

end Depsis.Permissions

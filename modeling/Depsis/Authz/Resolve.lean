import Mathlib.Data.List.Basic

/-! The permission vocabulary and the effective-permission resolver of
`packages/authz`: for each principal the nearest node with a grant wins, across
principals the sets are united, and there is no deny.
-/
namespace Depsis.Authz

inductive Permission where
  | list
  | read
  | download
  | create
  | modify
  | move
  | delete
  | share
  | manage
  | versions
  | audit
  deriving DecidableEq

def PERMISSIONS : List Permission :=
  [.list,.read,.download,.create,.modify,.move,.delete,.share,.manage,.versions,.audit]

def Permission.name : Permission → String
  | .list => "list"
  | .read => "read"
  | .download => "download"
  | .create => "create"
  | .modify => "modify"
  | .move => "move"
  | .delete => "delete"
  | .share => "share"
  | .manage => "manage"
  | .versions => "versions"
  | .audit => "audit"

def asPermission (value : String) : Option Permission :=
  PERMISSIONS.find? (fun permission => permission.name = value)

inductive Principal where
  | user (id : String)
  | team (id : String)
  deriving DecidableEq

structure Grant where
  principal : Principal
  permissions : List Permission
  deriving DecidableEq

structure AclNode where
  id : String
  parentId : Option String
  grants : List Grant
  deriving DecidableEq

structure Subject where
  userId : String
  teamIds : List String

def principalsOf (subject : Subject) : List Principal :=
  .user subject.userId::subject.teamIds.map .team

def sortPermissions (permissions : List Permission) : List Permission :=
  PERMISSIONS.filter (fun permission => permissions.contains permission)

structure PrincipalSource where
  principal : Principal
  nodeId : String
  permissions : List Permission

def grantOn (node : AclNode) (principal : Principal) : Option PrincipalSource :=
  (node.grants.find? (fun candidate => candidate.principal = principal)).map
    (fun grant => ⟨principal,node.id,sortPermissions grant.permissions⟩)

def nearestGrant (chain : List AclNode) (principal : Principal) : Option PrincipalSource :=
  chain.reverse.findSome? (fun node => grantOn node principal)

structure Resolution where
  effective : List Permission
  sources : List PrincipalSource
  nearestSourceNodeId : Option String

def linked (previous : String) : List AclNode → Except String Unit
  | [] => .ok ()
  | node::rest =>
    if node.parentId = some previous then linked node.id rest
    else .error ("ACL chain is not parent-linked: node " ++ node.id ++ " has parent " ++
      node.parentId.getD "null" ++ ", expected " ++ previous)

def assertChain : List AclNode → Except String Unit
  | [] => .error "an ACL chain must contain at least the target node"
  | root::rest =>
    match root.parentId with
    | some parent => .error ("ACL chain must start at the share root: node " ++ root.id ++ " has parent " ++ parent)
    | none => linked root.id rest

def depthOf (chain : List AclNode) (nodeId : String) : Option Nat :=
  (chain.zipIdx.reverse.find? (fun entry => entry.1.id = nodeId)).map Prod.snd

def nearestSource (chain : List AclNode) (sources : List PrincipalSource) : Option String :=
  (sources.foldl (fun nearest source =>
    match depthOf chain source.nodeId with
    | none => nearest
    | some depth => if nearest.1 ≤ depth then (depth + 1,some source.nodeId) else nearest) (0,none)).2

def resolution (chain : List AclNode) (subject : Subject) : Resolution :=
  let sources := (principalsOf subject).filterMap (nearestGrant chain)
  { effective := (sources.flatMap PrincipalSource.permissions).eraseDups
    sources := sources
    nearestSourceNodeId := nearestSource chain sources }

def resolve (chain : List AclNode) (subject : Subject) : Except String Resolution :=
  (assertChain chain).map (fun _ => resolution chain subject)

@[simp] theorem mem_sortPermissions {permissions : List Permission} {permission : Permission} :
    permission ∈ sortPermissions permissions ↔ permission ∈ permissions := by
  have every : permission ∈ PERMISSIONS := by cases permission <;> simp [PERMISSIONS]
  simp [sortPermissions,every]

theorem asPermission_name (permission : Permission) : asPermission permission.name = some permission := by
  cases permission <;> decide

theorem asPermission_some {value : String} {permission : Permission} (known : asPermission value = some permission) :
    permission.name = value := by
  simpa using List.find?_some known

theorem sortPermissions_congr {first second : List Permission}
    (same : ∀ permission, permission ∈ first ↔ permission ∈ second) :
    sortPermissions first = sortPermissions second := by
  refine List.filter_congr (fun permission _ => ?_)
  simp [same permission]

theorem nearestGrant_append (front back : List AclNode) (principal : Principal) :
    nearestGrant (front ++ back) principal =
      (nearestGrant back principal).or (nearestGrant front principal) := by
  simp [nearestGrant,List.findSome?_append]

theorem mem_effective {chain : List AclNode} {subject : Subject} {permission : Permission} :
    permission ∈ (resolution chain subject).effective ↔ ∃ principal ∈ principalsOf subject, ∃ source,
      nearestGrant chain principal = some source ∧ permission ∈ source.permissions := by
  simp only [resolution,List.mem_eraseDups,List.mem_flatMap,List.mem_filterMap]
  constructor
  · rintro ⟨source,⟨principal,member,found⟩,given⟩
    exact ⟨principal,member,source,found,given⟩
  · rintro ⟨principal,member,source,found,given⟩
    exact ⟨source,⟨principal,member,found⟩,given⟩

theorem resolve_linked {chain : List AclNode} {subject : Subject} (linked : assertChain chain = .ok ()) :
    resolve chain subject = .ok (resolution chain subject) := by
  rw [resolve,linked]
  rfl

end Depsis.Authz

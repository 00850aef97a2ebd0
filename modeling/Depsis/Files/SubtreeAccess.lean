import Depsis.Foundation.Levels
import Depsis.Foundation.Reach
import Depsis.Permissions.Walks

/-! Who may reach what in the file tree (`apps/api/src/files/files.service.ts`): the
chains `accessFor` builds for some nodes of one share, and the check of a whole
subtree, which asks only about the nodes in it that carry a grant.
-/
namespace Depsis.Files.SubtreeAccess

open Depsis.Authz Depsis.Permissions Depsis.Foundation

structure Caller where
  organizationId : String
  userId : String
  isOrganizationAdmin : Bool

structure ResolveInput where
  chain : List AclNode
  subject : Subject

abbrev AccessMap := Table (Option String) ResolveInput

def ROOT : String := "share-root"

structure Stored extends Tables where
  uuids : ∀ entry ∈ entries, entry.id ≠ ROOT
  owned : ∀ entry ∈ entries, ∃ share ∈ shares, share.id = entry.shareId
  hangs : ∀ entry ∈ entries, ∃ depth, Permissions.Placed entries entry.organizationId entry.shareId entry depth
  onePrincipal : ∀ row ∈ grants, row.userId.isSome ≠ row.teamId.isSome
  known : ∀ row ∈ grants, ∀ name ∈ row.permissions, (asPermission name).isSome
  notEmpty : ∀ row ∈ grants, row.permissions ≠ []

def principalOf (row : GrantRow) : Option Principal :=
  match row.userId,row.teamId with
  | some user,_ => some (.user user)
  | none,some team => some (.team team)
  | none,none => none

def syntheticGrants (caller : Caller) (isTarget : Bool) : List Grant :=
  if caller.isOrganizationAdmin = false then []
  else if isTarget then [⟨.user caller.userId,PERMISSIONS⟩] else []

def climb (target shareId : String) (parentOf : Table String (Option String)) (granted : Table String (List Grant))
    (caller : Caller) : Nat → String → Option (List AclNode)
  | 0,_ => none
  | steps + 1,cursor =>
    match parentOf.lookup cursor with
    | none => none
    | some parentId =>
      let node : AclNode := ⟨cursor,some (parentId.getD shareId),
        syntheticGrants caller (decide (cursor = target)) ++ (granted.lookup cursor).getD []⟩
      match parentId with
      | none => some [node]
      | some upper => (climb target shareId parentOf granted caller steps upper).map (node::·)

def chainTo (target : Option String) (shareId : String) (parentOf : Table String (Option String))
    (granted : Table String (List Grant)) (caller : Caller) : Option (List AclNode) :=
  let root : AclNode := ⟨shareId,none,syntheticGrants caller target.isNone ++ (granted.lookup ROOT).getD []⟩
  match target with
  | none => some [root]
  | some id =>
    (climb id shareId parentOf granted caller (parentOf.size + 1) id).map (fun descending => root::descending.reverse)

/-- The rows of the ancestry query: those named, and those their `parent_id` names. -/
def isNamed (organizationId shareId : String) (ids : List String) (entry : FileEntry) : Bool :=
  decide (entry.organizationId = organizationId) && decide (entry.shareId = shareId) && ids.contains entry.id

def nodeRow (entry : FileEntry) : NodeRow := ⟨entry.id,entry.parentId⟩

def parentRows (entries : List FileEntry) (organizationId shareId : String) (row : NodeRow) : List NodeRow :=
  (entries.filter (isNamed organizationId shareId row.parentId.toList)).map nodeRow

def ancestry (entries : List FileEntry) (organizationId shareId : String) (targets : List String) : List NodeRow :=
  Reach.reach (parentRows entries organizationId shareId) entries.length
    ((entries.filter (isNamed organizationId shareId targets)).map nodeRow)

def isOwn (caller : Caller) (shareId : String) (teamIds ids : List String) (row : GrantRow) : Bool :=
  selects caller.organizationId shareId ids row &&
    (decide (row.userId = some caller.userId) || row.teamId.any (fun team => teamIds.contains team))

def keyedGrant (row : GrantRow) : Option (String × Grant) :=
  match principalOf row,row.permissions.filterMap asPermission with
  | none,_ => none
  | some _,[] => none
  | some principal,permissions => some (row.entryId.getD ROOT,⟨principal,permissions⟩)

def pushGrant (granted : Table String (List Grant)) (entry : String × Grant) : Table String (List Grant) :=
  granted.insert entry.1 ((granted.lookup entry.1).getD [] ++ [entry.2])

def groupByKey (rows : List GrantRow) : Table String (List Grant) :=
  (rows.filterMap keyedGrant).foldl pushGrant ∅

section Service

variable (tables : Tables) (caller : Caller) (shareId : String)

def parentsOf (targets : List String) : Table String (Option String) :=
  (∅ : Table String (Option String)).fill
    ((ancestry tables.entries caller.organizationId shareId targets).map (fun row => (row.id,row.parentId)))

def grantedTo (parentOf : Table String (Option String)) : Table String (List Grant) :=
  groupByKey (tables.grants.filter
    (isOwn caller shareId (teamIdsOf tables caller.organizationId caller.userId) parentOf.keys))

def build (parentOf : Table String (Option String)) (granted : Table String (List Grant)) (access : AccessMap)
    (target : Option String) : AccessMap :=
  match chainTo target shareId parentOf granted caller with
  | none => access
  | some chain => access.insert target ⟨chain,subjectOf tables caller.organizationId caller.userId⟩

def accessFor (nodes : List (Option String)) : AccessMap :=
  let targets := nodes.reduceOption.eraseDups
  let wantsRoot := nodes.any Option.isNone
  let parentOf := parentsOf tables caller shareId targets
  let granted := grantedTo tables caller shareId parentOf
  let rooted := if wantsRoot then build tables caller shareId parentOf granted ∅ none else ∅
  (targets.map some).foldl (build tables caller shareId parentOf granted) rooted

def permissionsOf (access : AccessMap) (node : Option String) : Except String (List Permission) :=
  match access.lookup node with
  | none => .ok []
  | some input => (resolve input.chain input.subject).map Resolution.effective

def childIds (entries : List FileEntry) (organizationId id : String) : List String :=
  (entries.filter (fun entry => decide (entry.organizationId = organizationId) && decide (entry.parentId = some id))).map
    FileEntry.id

/-- The recursive query of `assertSubtreeAccess`; none when it does not end. -/
def subtreeIds (rootId : String) : Option (List String) :=
  Levels.levels (childIds tables.entries caller.organizationId) tables.entries.length
    ((tables.entries.filter (isNamed caller.organizationId shareId [rootId])).map FileEntry.id)

def carriersIn (rootId : String) (tree : List String) : List String :=
  ((tables.grants.filter (fun row => decide (row.organizationId = caller.organizationId) &&
    decide (row.shareId = shareId))).filterMap GrantRow.entryId
    |>.filter (fun id => tree.contains id && decide (id ≠ rootId))).dedup

inductive Failure where
  | subtreeForbidden (permission : Permission) (count : Nat)
  | chain (message : String)
  | endless
deriving DecidableEq

/-- `!permissionsOf(access, id).has(permission)`, or the throw of `resolve`. -/
def isRefused (access : AccessMap) (permission : Permission) (id : String) : Except Failure Bool :=
  match permissionsOf access (some id) with
  | .error message => .error (.chain message)
  | .ok held => .ok (!held.contains permission)

def assertSubtreeAccess (rootId : String) (permission : Permission) : Except Failure Unit :=
  match subtreeIds tables caller shareId rootId with
  | none => .error .endless
  | some tree =>
    let carriers := carriersIn tables caller shareId rootId tree
    if carriers = [] then .ok ()
    else
      let access := accessFor tables caller shareId (carriers.map some)
      match carriers.mapM (isRefused access permission) with
      | .error failure => .error failure
      | .ok verdicts =>
        let refused := verdicts.count true
        if 0 < refused then .error (.subtreeForbidden permission refused) else .ok ()

end Service

end Depsis.Files.SubtreeAccess

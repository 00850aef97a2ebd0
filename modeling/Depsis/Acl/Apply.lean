import Depsis.Authz.Resolve
import Depsis.Permissions.Rows
import Depsis.Foundation.Cursor
import Depsis.Foundation.Table

/-! The `permissions.apply` job (`apps/api/src/permissions/apply-acl.service.ts`):
one chunk of a share's folders is resolved from the grants and written to the
filesystem through the agent, and the cursor for the next chunk is answered.
-/
namespace Depsis.Acl

open Depsis.Authz Depsis.Files Depsis.Foundation Depsis.Permissions

structure ApplyAclPayload where
  shareId : String
  entryId : Option String
  after : Option String

def APPLY_CHUNK : Nat := 1000
def TREE_LOAD_LIMIT : Nat := 250000

structure Folders where
  all : List FolderRow
  written : List String
  next : Option String

def shareDescent (organizationId shareId : String) : Descent where
  starts entry := decide (entry.organizationId = organizationId) && decide (entry.shareId = shareId) &&
    decide (entry.parentId = none) && decide (entry.kind = .folder)
  enters entry := decide (entry.organizationId = organizationId) && decide (entry.kind = .folder)

def inSubtree (parentOf : Table String (Option String)) (entryId : String) : Nat → Option String → Bool
  | _,none => false
  | 0,some _ => false
  | steps + 1,some cursor =>
    if cursor = entryId then true else inSubtree parentOf entryId steps (parentOf.lookup cursor).join

def parentTable (rows : List FolderRow) : Table String (Option String) :=
  (∅ : Table String (Option String)).fill (rows.map (fun row => (row.id,row.parentId)))

def candidates (rows : List FolderRow) : Option String → List String
  | none => rows.map FolderRow.id
  | some entryId => (rows.filter (fun row =>
      inSubtree (parentTable rows) entryId (rows.length + 1) (some row.id))).map FolderRow.id

/-- One level past `MAX_TREE_DEPTH`, so that going over it can be seen. -/
def loadedRows (snapshot : Snapshot) (organizationId shareId : String) : List FolderRow :=
  ((shareDescent organizationId shareId).walk snapshot.entries (MAX_TREE_DEPTH + 1)).take TREE_LOAD_LIMIT

def folderRows (snapshot : Snapshot) (organizationId : String) (payload : ApplyAclPayload) :
    Except String Folders :=
  let rows := loadedRows snapshot organizationId payload.shareId
  if TREE_LOAD_LIMIT ≤ rows.length then
    .error ("share " ++ payload.shareId ++ " has at least " ++ toString TREE_LOAD_LIMIT ++
      " folders, which is more than one apply job will load; the POSIX ACLs below it are stale")
  else match rows.find? (fun row => decide (MAX_TREE_DEPTH ≤ row.depth)) with
  | some row => .error ("share " ++ payload.shareId ++ " has folders nested deeper than " ++
      toString MAX_TREE_DEPTH ++ " (for example " ++ "/".intercalate row.parts ++
      "); their POSIX ACLs cannot be resolved")
  | none =>
    let page := Cursor.page JsString.lt APPLY_CHUNK (JsString.sort (candidates rows payload.entryId)) payload.after
    .ok ⟨rows,page.1,page.2⟩

def shareName (snapshot : Snapshot) (organizationId shareId : String) : Except String String :=
  match snapshot.shares.find? (fun share => share.organizationId = organizationId ∧ share.id = shareId) with
  | some share => .ok share.name
  | none => .error ("no such share: " ++ shareId)

def grantRows (snapshot : Snapshot) (organizationId shareId : String) : List GrantRow :=
  snapshot.grants.filter (fun row => row.organizationId = organizationId ∧ row.shareId = shareId)

def principalOf (row : GrantRow) : Option Principal :=
  match row.userId,row.teamId with
  | some user,_ => some (.user user)
  | none,some team => some (.team team)
  | none,none => none

/-- The grant a row becomes: unknown permissions are dropped, and a row with no
known one is dropped whole. -/
def grantOf (row : GrantRow) : Option Grant :=
  (principalOf row).bind (fun principal =>
    let permissions := row.permissions.filterMap asPermission
    if permissions = [] then none else some ⟨principal,permissions⟩)

def granted (shareId : String) (rows : List GrantRow) (node : String) : List Grant :=
  (rows.filter (fun row => nodeOf shareId row = node)).filterMap grantOf

def principals (rows : List GrantRow) : List Principal := (rows.filterMap principalOf).eraseDups

def parents (shareId : String) (rows : List FolderRow) : Table String (Option String) :=
  ((∅ : Table String (Option String)).insert shareId none).fill
    (rows.map (fun row => (row.id,some (row.parentId.getD shareId))))

def partsOf (shareId : String) (rows : List FolderRow) : Table String (List String) :=
  ((∅ : Table String (List String)).insert shareId []).fill (rows.map (fun row => (row.id,row.parts)))

/-- The loop of `chainTo`, target first; the budget is `parents.size + 1` nodes. -/
def climb (parents : Table String (Option String)) (granted : String → List Grant) :
    Nat → Option String → Option (List AclNode)
  | _,none => some []
  | 0,some _ => none
  | steps + 1,some cursor =>
    (parents.lookup cursor).bind (fun parent =>
      (climb parents granted steps parent).map (fun above => ⟨cursor,parent,granted cursor⟩::above))

def chainTo (nodeId shareId : String) (parents : Table String (Option String))
    (granted : String → List Grant) : Option (List AclNode) :=
  (climb parents granted (parents.size + 1) (some nodeId)).bind (fun reversed =>
    match reversed.getLast? with
    | some root => if root.id = shareId then some reversed.reverse else none
    | none => none)

structure ResolvedEntry where
  principal : Principal
  read : Bool
  write : Bool
  execute : Bool

def readBit (permissions : List Permission) : Bool := permissions.contains .list

def writeBit (permissions : List Permission) : Bool :=
  permissions.contains .create || permissions.contains .modify || permissions.contains .move ||
    permissions.contains .delete

def executeBit (permissions : List Permission) : Bool :=
  readBit permissions || writeBit permissions || permissions.contains .read || permissions.contains .download

def aclFor (chain : List AclNode) (principal : Principal) : Option ResolvedEntry :=
  (nearestGrant chain principal).bind (fun source =>
    let read := readBit source.permissions
    let write := writeBit source.permissions
    let execute := executeBit source.permissions
    if !read && !write && !execute then none else some ⟨principal,read,write,execute⟩)

structure AclEntry where
  gid : Nat
  read : Bool
  write : Bool
  execute : Bool

inductive AgentCall where
  | secureShareRoot (share : String)
  | applyFolderAcl (share : String) (path : List String) (entries : List AclEntry)

/-- What a job meets outside the database: the agent's answer to a call (an error
message, or none), and the POSIX number of a principal, which may be missing. -/
structure World where
  agent : AgentCall → Option String
  gidFor : Principal → Except String (Option Nat)

def entriesFor (gidFor : Principal → Except String (Option Nat)) :
    List ResolvedEntry → Except String (List (Principal × AclEntry))
  | [] => .ok []
  | entry::rest =>
    match gidFor entry.principal with
    | .error message => .error message
    | .ok none => entriesFor gidFor rest
    | .ok (some gid) => (entriesFor gidFor rest).map (fun entries =>
        (entry.principal,⟨gid,entry.read,entry.write,entry.execute⟩)::entries)

structure Plan where
  share : String
  shareId : String
  folders : Folders
  grants : List GrantRow

def Plan.chain (plan : Plan) (node : String) : Option (List AclNode) :=
  chainTo node plan.shareId (parents plan.shareId plan.folders.all) (granted plan.shareId plan.grants)

def Plan.resolved (plan : Plan) (chain : List AclNode) : List ResolvedEntry :=
  (principals plan.grants).filterMap (aclFor chain)

structure Write where
  node : String
  path : List String
  entries : List (Principal × AclEntry)

def Write.call (share : String) (write : Write) : AgentCall :=
  .applyFolderAcl share write.path (write.entries.map Prod.snd)

def Plan.writeNode (plan : Plan) (world : World) (node : String) : Option String × Option Write :=
  match plan.chain node with
  | none => (some (node ++ ": not reachable from the share root"),none)
  | some chain =>
    match entriesFor world.gidFor (plan.resolved chain) with
    | .error message => (some (node ++ ": " ++ message),none)
    | .ok entries =>
      let write : Write := ⟨node,((partsOf plan.shareId plan.folders.all).lookup node).getD [],entries⟩
      ((world.agent (write.call plan.share)).map (fun message => node ++ ": " ++ message),some write)

def Plan.targets (plan : Plan) (payload : ApplyAclPayload) : List String :=
  if payload.entryId = none ∧ payload.after = none then payload.shareId::plan.folders.written
  else plan.folders.written

structure Applied where
  result : Except String (Option String)
  securedRoot : Bool
  writes : List Write

def Plan.run (plan : Plan) (world : World) (payload : ApplyAclPayload) : Applied :=
  let targets := plan.targets payload
  let outcomes := targets.map (plan.writeNode world)
  let failures := outcomes.filterMap Prod.fst
  { result :=
      if failures = [] then .ok plan.folders.next
      else .error (toString failures.length ++ " of " ++ toString targets.length ++ " folder(s) in share " ++
        payload.shareId ++ " could not be applied: " ++ "; ".intercalate (failures.take 5))
    securedRoot := decide (targets.head? = some payload.shareId)
    writes := outcomes.filterMap Prod.snd }

def plan (snapshot : Snapshot) (organizationId : String) (payload : ApplyAclPayload) : Except String Plan := do
  let share ← shareName snapshot organizationId payload.shareId
  let folders ← folderRows snapshot organizationId payload
  return ⟨share,payload.shareId,folders,grantRows snapshot organizationId payload.shareId⟩

def apply (snapshot : Snapshot) (organizationId : String) (payload : ApplyAclPayload) (world : World) : Applied :=
  match plan snapshot organizationId payload with
  | .error message => ⟨.error message,false,[]⟩
  | .ok plan => plan.run world payload

end Depsis.Acl

import Depsis.Files.Disk
import Depsis.Files.Statements

/-! `FilesService`: the calls that create, move, bin, bring back and remove entries.
Audit texts and permission checks change neither the rows nor the disk and are left
out; of the ACL job a move enqueues only the statement is kept.
-/
namespace Depsis.Files

open Depsis.Foundation Depsis.Foundation.Calls

abbrev words (Bytes : Type) : Vocabulary where
  Statement := Statement
  Answer := Statement.Answer
  Fault := Fault
  Request := AgentRequest Bytes
  Response := AgentResponse

inductive FilesError where
  | invalidName (message : String)
  | entryNotFound
  | nameTaken (name : String)
  | nameTakenOnDisk (name agentReason : String)
  | nameTakenByTrashedEntry (name trashedEntryId agentReason : String)
  | crossShareMove
  | moveIntoDescendant (folderName : String)
  | notTrashed (entryName : String)
  | entryMissingOnDisk (agentReason : String)
  | folderNotOnDisk (agentReason : String)
  | stagedBytesGone (agentReason : String)
  | directoryNotEmpty (agentReason : String)
  | trashedParent (parentName : String)
  | agentRefused (reason : String)
  | agentUnavailable
  | database (fault : Fault)
deriving DecidableEq

structure ShareRef where
  id : String
  name : String

abbrev Service (Bytes Result : Type) := Attempt (words Bytes) FilesError Result

variable {Bytes : Type}

def BIN : List String := ["!DEPSIS Çöp Kutusu"]

def MAX_NAME_BYTES : Nat := 255

def withTenant (statement : Statement) : Service Bytes statement.Answer := ExceptT.mk do
  let answer ← @single (words Bytes) statement
  return answer.mapError .database

def agentCall (asked : AgentRequest Bytes) : Service Bytes AgentResponse := ExceptT.mk do
  match ← @request (words Bytes) asked with
  | some response => return .ok response
  | none => return .error .agentUnavailable

/-- `expectStatus` on a response of another status. -/
def unexpected {Result : Type} : AgentResponse → Service Bytes Result
  | .refused reason => throw (.agentRefused reason)
  | .failed reason => throw (.agentRefused reason)
  | _ => throw .agentUnavailable

def refuse (refused : Bool) (error : FilesError) : Service Bytes Unit :=
  if refused then throw error else return ()

def invalidNameMessage (name : String) : Option String :=
  if name = "" then some "a name may not be empty"
  else if name = "." || name = ".." then some ("'" ++ name ++ "' is not a name")
  else if name.toList.contains '/' || name.toList.contains '\\' then
    some "a name is one component and may not contain a separator"
  else if name.toList.contains '\x00' then some "a name may not contain a NUL"
  else if name.toList.head? = some '-' then
    some "a name may not begin with a dash, which reads as a flag"
  else if MAX_NAME_BYTES < name.utf8ByteSize then
    some ("a name may not exceed " ++ toString MAX_NAME_BYTES ++ " bytes")
  else if name = ".depsis" then some "'.depsis' is reserved"
  else none

def assertValidName (name : String) : Service Bytes Unit :=
  match invalidNameMessage name with
  | some message => throw (.invalidName message)
  | none => return ()

def find (organizationId id : String) : Service Bytes EntryRow := do
  match ← withTenant (.find organizationId id) with
  | some row => return row
  | none => throw .entryNotFound

def componentsOf (organizationId id : String) : Service Bytes (List String) := do
  let names : List String ← withTenant (.componentsOf organizationId id)
  refuse names.isEmpty .entryNotFound
  return names

def requireNameFree (organizationId shareId : String) (parentId : Option String) (name : String)
    (exceptId : Option String) : Service Bytes Unit := do
  let free : Bool ← withTenant (.requireNameFree organizationId shareId parentId name exceptId)
  refuse (!free) (.nameTaken name)

def asNameConflict (name : String) : FilesError → FilesError
  | .database .uniqueViolation => .nameTaken name
  | error => error

def createEach (shareName : String) (ownerUid : Nat) : List (List String) → Service Bytes Bool
  | [] => return true
  | path::rest => do
    match ← agentCall (.createDirectory shareName path ownerUid ownerUid) with
    | .directoryCreated => createEach shareName ownerUid rest
    | .conflict _ => createEach shareName ownerUid rest
    | _ => return false

def ensureDirectories (shareName : String) (chains : List (List String)) (ownerUid : Nat) :
    Service Bytes Bool := do
  let paths := chains.flatMap (fun chain => chain.inits.tail)
  let created ← createEach shareName ownerUid paths
  return created && !paths.isEmpty

def createDirectoryOnDisk (shareName : String) (path : List String) (ownerUid : Nat) (name : String) :
    Nat → Service Bytes Unit
  | 0 => return ()
  | left + 1 => do
    match ← agentCall (.createDirectory shareName path ownerUid ownerUid) with
    | .directoryCreated => return ()
    | .conflict reason => throw (.nameTakenOnDisk name reason)
    | .notFound reason =>
      refuse (left = 0 || path.dropLast.isEmpty) (.folderNotOnDisk reason)
      let materialised ← ensureDirectories shareName [path.dropLast] ownerUid
      refuse (!materialised) (.folderNotOnDisk reason)
      createDirectoryOnDisk shareName path ownerUid name left
    | response => unexpected response

def trashedEntryHolding (organizationId shareId : String) (parentId : Option String) (name : String) :
    Service Bytes (Option String) :=
  withTenant (.trashedEntryHolding organizationId shareId parentId name)

def parentOfNew (organizationId : String) (share : ShareRef) : Option String → Service Bytes (String × List String)
  | none => return ("",[])
  | some parentId => do
    let parent ← find organizationId parentId
    refuse (parent.kind ≠ .folder) (.invalidName "the parent is not a folder")
    refuse parent.trashedAt.isSome .entryNotFound
    refuse (parent.shareId ≠ share.id) .entryNotFound
    let components ← componentsOf organizationId parentId
    return (parent.path,components)

def createDirectory (organizationId : String) (share : ShareRef) (parentId : Option String) (name : String)
    (path : List String) (ownerUid : Nat) : Service Bytes Unit :=
  tryCatch (createDirectoryOnDisk share.name path ownerUid name 2) (fun error =>
    match error with
    | .nameTakenOnDisk _ reason => do
      match ← trashedEntryHolding organizationId share.id parentId name with
      | some trashed => throw (.nameTakenByTrashedEntry name trashed reason)
      | none => throw error
    | _ => throw error)

def insertEntry (newId : String) (row : EntryRow) : Service Bytes EntryRow := do
  withTenant (.insertEntry newId row)
  return row

def attempt (asked : AgentRequest Bytes) : Service Bytes (Option AgentResponse) :=
  tryCatch (do
    let response ← agentCall asked
    return some response) (fun _ => return none)

def createFolder (organizationId : String) (share : ShareRef) (parentId : Option String) (name actorId : String)
    (newId : String) : Service Bytes EntryRow := do
  assertValidName name
  let (parentPath,parentComponents) ← parentOfNew organizationId share parentId
  requireNameFree organizationId share.id parentId name none
  let ownerUid ← withTenant (.posixUidFor organizationId actorId)
  let path := parentComponents ++ [name]
  createDirectory organizationId share parentId name path ownerUid
  tryCatch (insertEntry newId
    ⟨organizationId,share.id,parentId,.folder,name,parentPath ++ "/" ++ name,none,false⟩) (fun error => do
      -- The directory is there and the row is not: it is taken off again, if it can be.
      let _ ← attempt (.removeEntry share.name path true)
      throw (asNameConflict name error))

def pathOfParent (organizationId : String) : Option String → Service Bytes String
  | none => return ""
  | some parentId => do
    let parent ← find organizationId parentId
    return parent.path

def recordPublishedFile (organizationId shareId : String) (parentId : Option String) (name newId : String) :
    Service Bytes EntryRow := do
  let parentPath ← pathOfParent organizationId parentId
  tryCatch (insertEntry newId ⟨organizationId,shareId,parentId,.file,name,parentPath ++ "/" ++ name,none,false⟩)
    (fun error => throw (asNameConflict name error))

def moveOnDisk (shareName : String) (source target : List String) (name : String) : Service Bytes Unit := do
  match ← agentCall (.moveEntry shareName source target) with
  | .moved => return ()
  | .notFound reason => throw (.entryMissingOnDisk reason)
  | .conflict _ => throw (.nameTaken name)
  | response => unexpected response

def placeEntry (organizationId id : String) (parentId : Option String) (name path : String) :
    Service Bytes EntryRow := ExceptT.mk do
  match ← @query (words Bytes) (.updatePlace organizationId id parentId name path) with
  | .error fault => return .error (.database fault)
  | .ok none => .rollBack (return .error .entryNotFound)
  | .ok (some row) =>
    match ← @query (words Bytes) (.subtreePaths organizationId id) with
    | .error fault => return .error (.database fault)
    | .ok paths =>
      match ← @query (words Bytes) (.writePaths organizationId paths) with
      | .error fault => return .error (.database fault)
      | .ok () => .commit (fun outcome => return (outcome.map (fun _ => row)).mapError .database)

def upgradeTrashedConflict {Result : Type} (organizationId shareId : String) (parentId : Option String)
    (name : String) (error : FilesError) : Service Bytes Result := do
  match ← trashedEntryHolding organizationId shareId parentId name with
  | some trashed => throw (.nameTakenByTrashedEntry name trashed (name ++ " already exists here"))
  | none => throw error

/-- The disk's half of a move, once more after materialising the folders it may have missed. -/
def moveOrMaterialise (organizationId : String) (share : ShareRef) (entry : EntryRow)
    (parentId : Option String) (name actorId : String) (source target : List String) : Service Bytes Unit :=
  tryCatch (moveOnDisk share.name source target name) (fun error =>
    match error with
    | .nameTaken _ => upgradeTrashedConflict organizationId entry.shareId parentId name error
    | .entryMissingOnDisk reason => do
      let chains := (if 1 < source.length then [source.dropLast] else []) ++
        (if 1 < target.length then [target.dropLast] else []) ++
        (if entry.kind = .folder then [source] else [])
      refuse chains.isEmpty error
      let ownerUid ← withTenant (.posixUidFor organizationId actorId)
      let materialised ← ensureDirectories share.name chains ownerUid
      refuse (!materialised) (.folderNotOnDisk reason)
      tryCatch (moveOnDisk share.name source target name) (fun retryError =>
        match retryError with
        | .entryMissingOnDisk reason => throw (.folderNotOnDisk reason)
        | .nameTaken _ => upgradeTrashedConflict organizationId entry.shareId parentId name retryError
        | _ => throw retryError)
    | _ => throw error)

def refuseDescendant (organizationId id : String) (entry : EntryRow) (parentId : String) : Service Bytes Unit :=
  if entry.kind = .folder then do
    let inside : Bool ← withTenant (.isSelfOrDescendant organizationId parentId id)
    refuse inside (.moveIntoDescendant entry.name)
  else return ()

def destinationPath (organizationId id : String) (entry : EntryRow) : Option String → Service Bytes String
  | none => return ""
  | some parentId => do
    let parent ← find organizationId parentId
    refuse parent.trashedAt.isSome .entryNotFound
    refuse (parent.shareId ≠ entry.shareId) .crossShareMove
    refuse (parent.kind ≠ .folder) (.invalidName "the destination is not a folder")
    refuseDescendant organizationId id entry parentId
    return parent.path

def destinationComponents (organizationId name : String) : Option String → Service Bytes (List String)
  | none => return [name]
  | some parentId => do
    let components ← componentsOf organizationId parentId
    return components ++ [name]

def enqueueAclApply (organizationId shareId entryId : String) : Service Bytes Unit :=
  tryCatch (withTenant (.enqueueAclApply organizationId shareId entryId)) (fun _ => return ())

def move (organizationId id : String) (share : ShareRef) (parentId : Option String) (newName : Option String)
    (actorId : String) : Service Bytes EntryRow := do
  let entry ← find organizationId id
  refuse (entry.trashedAt.isSome || entry.shareId ≠ share.id) .entryNotFound
  let name := newName.getD entry.name
  assertValidName name
  let parentPath ← destinationPath organizationId id entry parentId
  if entry.parentId = parentId ∧ name = entry.name then return entry
  requireNameFree organizationId entry.shareId parentId name (some id)
  let source ← componentsOf organizationId id
  let target ← destinationComponents organizationId name parentId
  moveOrMaterialise organizationId share entry parentId name actorId source target
  tryCatch (do
    let moved ← placeEntry organizationId id parentId name (parentPath ++ "/" ++ name)
    if moved.kind = .folder then enqueueAclApply organizationId share.id id
    return moved) (fun error => do
    -- The bytes are at the new name and the row is not: they are put back, if they can be.
    tryCatch (moveOnDisk share.name target source entry.name) (fun _ => return ())
    throw (asNameConflict name error))

def rename (organizationId id name : String) (share : ShareRef) (actorId : String) (allowTrashed : Bool) :
    Service Bytes EntryRow := do
  assertValidName name
  let entry ← find organizationId id
  refuse (entry.trashedAt.isSome && !allowTrashed) .entryNotFound
  move organizationId id share entry.parentId (some name) actorId

def orElse {Result : Type} (call : Service Bytes Result) (otherwise : Result) : Service Bytes Result :=
  tryCatch call (fun _ => return otherwise)

def moveOverOlder (share : ShareRef) (components : List String) (directory : Bool) : Service Bytes Bool := do
  let response ← attempt (.moveEntry share.name components (BIN ++ components))
  match response with
  | some (.conflict _) =>
    let _ ← attempt (.removeEntry share.name (BIN ++ components) directory)
    let again ← attempt (.moveEntry share.name components (BIN ++ components))
    return again = some .moved
  | response => return response = some .moved

def uidOrNone (organizationId userId : String) : Service Bytes (Option Nat) :=
  orElse (do
    let uid : Nat ← withTenant (.posixUidFor organizationId userId)
    return some uid) none

def moveToTheBin (organizationId : String) (share : ShareRef) (components : List String) (directory : Bool)
    (userId : String) : Service Bytes Bool := do
  if components.isEmpty then return false
  match ← uidOrNone organizationId userId with
  | none => return false
  | some uid =>
    let _ ← orElse (ensureDirectories share.name [(BIN ++ components).dropLast] uid) false
    moveOverOlder share components directory

def trash (organizationId id userId : String) (share : ShareRef) (now : Nat) : Service Bytes EntryRow := do
  let entry ← find organizationId id
  if entry.trashedAt.isSome then return entry
  let components ← componentsOf organizationId id
  let moved ← moveToTheBin organizationId share components (entry.kind = .folder) userId
  match ← withTenant (.markTrashed organizationId id now moved) with
  | some row => return row
  | none => throw .entryNotFound

/-- Whether the entry lies where its row says, asked of the disk once the bin has no copy. -/
def requireInPlace (share : ShareRef) (components : List String) : Service Bytes Unit := do
  let name := components.getLastD ""
  match ← agentCall (.listDirectory share.name components.dropLast) with
  | .listing entries _ =>
    refuse (!entries.any (fun entry => entry.name = name))
      (.entryMissingOnDisk (name ++ ": ne kendi yerinde ne çöp kutusunda; baytları sunucuda yok"))
  | _ => throw (.entryMissingOnDisk (name ++ ": ne kendi yerinde ne çöp kutusunda; baytları sunucuda yok"))

def mendAndRetry (organizationId restorerId : String) (share : ShareRef) (components : List String) :
    Service Bytes Bool := do
  if components.dropLast.isEmpty then return false
  let uid ← uidOrNone organizationId restorerId
  let built ← orElse (ensureDirectories share.name [components.dropLast] (uid.getD 0)) false
  if built then do
    let retried ← agentCall (.moveEntry share.name (BIN ++ components) components)
    return retried = .moved
  else return false

def bringBackFromTheBin (organizationId restorerId : String) (share : ShareRef) (components : List String) :
    Service Bytes Unit := do
  if components.isEmpty then return ()
  match ← agentCall (.moveEntry share.name (BIN ++ components) components) with
  | .moved => return ()
  | .notFound _ =>
    -- No copy in the bin, or no folder to go back into: the second can be mended.
    if ← mendAndRetry organizationId restorerId share components then return ()
    else requireInPlace share components
  | .conflict reason => throw (.nameTakenOnDisk (components.getLastD "") reason)
  | response => unexpected response

def refuseTrashedParent (organizationId : String) : Option String → Service Bytes Unit
  | none => return ()
  | some parentId => do
    let parent ← find organizationId parentId
    refuse parent.trashedAt.isSome (.trashedParent parent.name)

def clearTrashed (organizationId id : String) : Service Bytes EntryRow := do
  match ← withTenant (.clearTrashed organizationId id) with
  | some row => return row
  | none => throw .entryNotFound

def restore (organizationId id : String) : Service Bytes EntryRow := do
  let entry ← find organizationId id
  if entry.trashedAt.isNone then return entry
  refuseTrashedParent organizationId entry.parentId
  tryCatch (clearTrashed organizationId id) (fun error => throw (asNameConflict entry.name error))

def restoreEndpoint (organizationId callerId id : String) (share : ShareRef) : Service Bytes EntryRow := do
  let entry ← find organizationId id
  refuse (entry.shareId ≠ share.id) .entryNotFound
  let components ← componentsOf organizationId id
  bringBackFromTheBin organizationId callerId share components
  restore organizationId id

end Depsis.Files

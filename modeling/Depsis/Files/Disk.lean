import Depsis.Agent.Seams
import Depsis.Foundation.FileTree

/-! The agent's operations on the entries of a share. -/
namespace Depsis.Files

open Depsis.Foundation Depsis.Agent

abbrev Disk (Bytes : Type) := FileTree Bytes

/-- `publish_transfer` is given by the bytes of its staging file. -/
inductive AgentRequest (Bytes : Type) where
  | moveEntry (share : String) (source target : List String)
  | removeEntry (share : String) (path : List String) (directory : Bool)
  | createDirectory (share : String) (path : List String) (ownerUid ownerGid : Nat)
  | listDirectory (share : String) (path : List String)
  | publishTransfer (share : String) (bytes : Bytes) (destination : List String)

structure DirEntry where
  name : String
  directory : Bool
deriving DecidableEq

inductive AgentResponse where
  | moved
  | removed
  | directoryCreated
  | listing (entries : List DirEntry) (truncated : Bool)
  | publish
  | notFound (reason : String)
  | conflict (reason : String)
  | refused (reason : String)
  | failed (reason : String)
deriving DecidableEq

def STAGING_DIR : String := ".depsis"

def BIN_DIR : String := "!DEPSIS Çöp Kutusu"

def BIN_DIR_WAS : List String := [".depsis-cop","DEPSIS Çöp Kutusu"]

def MAX_LISTING : Nat := 5000

def touchesAgentState (path : List String) : Bool := path.head? = some STAGING_DIR

def errnoText : Errno → String
  | .noEntry => "No such file or directory (os error 2)"
  | .exists => "File exists (os error 17)"
  | .notDirectory => "Not a directory (os error 20)"
  | .isDirectory => "Is a directory (os error 21)"
  | .invalid => "Invalid argument (os error 22)"
  | .notEmpty => "Directory not empty (os error 39)"

section

variable {Bytes : Type}

namespace Disk

def openedDir (disk : Disk Bytes) (share : String) (folders : List String) : Except SeamError Unit :=
  match disk.openDir [share] with
  | some .notDirectory => .error (.notADirectory share)
  | some _ => .error (.notFound share)
  | none =>
    match disk.openDir (share::folders) with
    | some .notDirectory => .error (.notADirectory ("/".intercalate folders))
    | some _ => .error (.notFound ("/".intercalate folders))
    | none => .ok ()

def published (disk : Disk Bytes) (share : String) (source target : List String) : Except SeamError (Disk Bytes) := do
  openedDir disk share source.dropLast
  openedDir disk share target.dropLast
  match disk.rename (share::source) (share::target) with
  | .ok moved => return moved
  | .error .exists => throw (.alreadyExists (target.getLastD ""))
  | .error .noEntry => throw (.notFound (source.getLastD ""))
  | .error errno =>
    throw (.io ("rename " ++ source.getLastD "" ++ " -> " ++ target.getLastD "" ++ ": " ++ errnoText errno))

def moveEntry (disk : Disk Bytes) (share : String) (source target : List String) :
    Except SeamError (Disk Bytes × AgentResponse) :=
  if source = [] || target = [] then
    .ok (disk,.refused "a move needs a source and a destination; the share root is not an entry")
  else if touchesAgentState source || touchesAgentState target then
    .ok (disk,.refused (STAGING_DIR ++ "/ is the agent's own tree; use the transfer operations"))
  else match published disk share source target with
  | .ok moved => .ok (moved,.moved)
  | .error (.notFound what) => .ok (disk,.notFound (what ++ ": no such entry"))
  | .error (.alreadyExists what) => .ok (disk,.conflict (what ++ ": something is already there"))
  | .error other => .error other

def removedAt (disk : Disk Bytes) (share : String) (path : List String) (directory : Bool) :
    Except SeamError (Option (Disk Bytes)) := do
  openedDir disk share path.dropLast
  match if directory then disk.rmdir (share::path) else disk.unlink (share::path) with
  | .ok removed => return some removed
  | .error .noEntry => return none
  | .error .notEmpty => throw (.notEmpty (path.getLastD ""))
  | .error errno =>
    throw (.io ((if directory then "rmdir " else "unlink ") ++ path.getLastD "" ++ ": " ++ errnoText errno))

def removeEntry (disk : Disk Bytes) (share : String) (path : List String) (directory : Bool) :
    Except SeamError (Disk Bytes × AgentResponse) :=
  if path = [] then .ok (disk,.refused "a remove needs a path; the share root is not an entry")
  else if touchesAgentState path then
    .ok (disk,.refused (STAGING_DIR ++ "/ is the agent's own tree; use discard_transfer"))
  else match removedAt disk share path directory with
  | .ok (some removed) => .ok (removed,.removed)
  | .ok none => .ok (disk,.notFound ("/".intercalate path ++ ": no such entry"))
  | .error (.notEmpty _) => .ok (disk,.conflict ("/".intercalate path ++ " still has entries in it"))
  | .error other => .error other

def createDirectory (disk : Disk Bytes) (share : String) (path : List String) :
    Except SeamError (Disk Bytes × AgentResponse) :=
  if path = [] then
    .ok (disk,.refused "a directory needs a name; the share root is not one to create")
  else if touchesAgentState path then .ok (disk,.refused (STAGING_DIR ++ "/ is the agent's own tree"))
  else if path = [BIN_DIR] then
    .ok (disk,.refused ("'" ++ BIN_DIR ++ "' is the share's bin and cannot be created by hand"))
  else match openedDir disk share path.dropLast with
  | .error (.notFound _) =>
    .ok (disk,.notFound ("/".intercalate (share::path.dropLast) ++ ": the parent folder does not exist"))
  | .error (.notADirectory what) =>
    .ok (disk,.notFound (what ++ ": a file is in the way; this component is not a folder"))
  | .error other => .error other
  | .ok () =>
    match disk.mkdir (share::path) with
    | .ok made => .ok (made,.directoryCreated)
    | .error _ => .ok (disk,.conflict (path.getLastD "" ++ ": something is already there"))

def unlisted (path : List String) (name : String) : Bool :=
  path = [] && (name = STAGING_DIR || name = BIN_DIR || BIN_DIR_WAS.contains name)

def listDirectory (disk : Disk Bytes) (share : String) (path : List String) :
    Except SeamError (Disk Bytes × AgentResponse) :=
  if touchesAgentState path then
    .ok (disk,.refused (STAGING_DIR ++ "/ is the agent's own tree and is not part of the share"))
  else match openedDir disk share path with
  | .error (.notFound what) => .ok (disk,.notFound (what ++ ": no such directory"))
  | .error (.notADirectory what) => .ok (disk,.notFound (what ++ ": not a directory"))
  | .error other => .error other
  | .ok () =>
    let found := disk.list (share::path)
    let entries := ((found.take MAX_LISTING).filter (fun entry => !unlisted path entry.1)).map
      (fun entry => ⟨entry.1,match entry.2 with | .directory => true | .file _ => false⟩)
    .ok (disk,.listing entries (decide (MAX_LISTING < found.length)))

def publishTransfer (disk : Disk Bytes) (share : String) (bytes : Bytes) (destination : List String) :
    Except SeamError (Disk Bytes × AgentResponse) :=
  if destination = [] then .ok (disk,.refused "destination is empty")
  else match openedDir disk share destination.dropLast with
  | .error (.notFound what) => .ok (disk,.notFound (what ++ ": no such entry"))
  | .error other => .error other
  | .ok () =>
    match disk.create (share::destination) bytes with
    | .ok made => .ok (made,.publish)
    | .error _ => .ok (disk,.conflict (destination.getLastD "" ++ ": something is already there"))

end Disk

def respond (request : AgentRequest Bytes) (disk : Disk Bytes) : Disk Bytes × AgentResponse :=
  let handled :=
    match request with
    | .moveEntry share source target => disk.moveEntry share source target
    | .removeEntry share path directory => disk.removeEntry share path directory
    | .createDirectory share path _ _ => disk.createDirectory share path
    | .listDirectory share path => disk.listDirectory share path
    | .publishTransfer share bytes destination => disk.publishTransfer share bytes destination
  match handled with
  | .ok answer => answer
  | .error error => (disk,.failed error.message)

end

end Depsis.Files

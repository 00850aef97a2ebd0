import Depsis.Agent.UploadAtomic
import Depsis.Foundation.Handlers
import Depsis.Foundation.Text

/-! The tus routes of one upload session: a chunk goes to the agent's staging file first, and
is checked and counted only then. Every call of the agent and the database has a fate.
-/
namespace Depsis.Files.Uploads

open Depsis.Foundation Depsis.Foundation.Handlers

/-- What the platform computes: a chunk's SHA-256, `Buffer.from(text, 'base64')`, and the
names of a folder and those above it.
-/
structure Surroundings where
  sha256 : List UInt8 → List UInt8
  fromBase64 : String → List UInt8
  componentsOf : String → List String

structure SessionRow where
  filename : String
  parentId : Option String
  lengthBytes : Nat
  offsetBytes : Nat
  fileId : Option String
deriving DecidableEq

structure Chunk where
  body : List UInt8
  expected : Option (List UInt8)
deriving DecidableEq

inductive Entry where
  | stored (chunk : Chunk)
  | discarded
deriving DecidableEq

/-- The three stores an upload is spread over: the session's row, the share, and the agent's
journal. `placed` is the file under its own name, `folder` whether its folder is on disk.
-/
structure Store where
  session : Option SessionRow
  staged : Option (List UInt8)
  folder : Bool
  placed : Option (List UInt8)
  entry : Option (String × Nat)
  journal : List Entry
deriving DecidableEq

inductive Problem where
  | notFound
  | alreadyComplete
  | invalidOffset
  | offsetMismatch (offset declared : Nat)
  | lengthRequired
  | pastDeclared (lengthBytes : Nat)
  | unavailable
  | stagedAt (offset declared : Nat)
  | onlySha256
  | notADigest
  | transferFailed (reason : String)
  | notCleaned
  | checksumMismatch
  | nameTakenOnDisk (name reason : String)
  | stagedBytesGone (reason : String)
  | folderNotOnDisk (reason : String)
  | unexpectedStatus (reason : String)
  | notCancelled

/-- A chunk's headers, the numbers as `Number.parseInt` reads them, and the bytes of its
body that arrive.
-/
structure Patch where
  uploadOffset : Option Int
  contentLength : Option Int
  uploadChecksum : Option String
  body : List UInt8
  entryId : String

structure PatchFates where
  session : Fate
  share : Fate
  opening : Fate
  correction : Fate
  transfer : Fate
  discard : Fate
  restart : Fate
  offset : Fate
  folders : Fate
  owner : Fate
  publish : Fate
  materialise : Fate
  again : Fate
  record : Fate
  complete : Fate

structure CancelFates where
  session : Fate
  share : Fate
  discard : Fate
  delete : Fate

abbrev Request (α : Type) := Handler Store Problem α

def MAX_SAFE_INTEGER : Int := 9007199254740991

def isSafeInteger (number : Int) : Bool := -MAX_SAFE_INTEGER ≤ number && number ≤ MAX_SAFE_INTEGER

def checkChunk (upload : SessionRow) (request : Patch) : Except Problem (Nat × Nat) :=
  match request.uploadOffset with
  | none => .error .invalidOffset
  | some offset =>
    if !isSafeInteger offset || offset < 0 then .error .invalidOffset
    else if offset ≠ upload.offsetBytes then .error (.offsetMismatch upload.offsetBytes offset.toNat)
    else
      match request.contentLength with
      | none => .error .lengthRequired
      | some chunkLength =>
        if !isSafeInteger chunkLength || chunkLength ≤ 0 then .error .lengthRequired
        else if upload.lengthBytes < offset + chunkLength then .error (.pastDeclared upload.lengthBytes)
        else .ok (offset.toNat,chunkLength.toNat)

def blank (char : Char) : Bool := (Text.whitespace char && char.toNat ≠ 133) || char.toNat = 65279

/-- `raw.trim().split(/\s+/)`, empty when nothing is left of it. -/
def words (raw : String) : List String :=
  ((raw.toList.splitOnP blank).filter (fun word => word ≠ [])).map String.ofList

section

variable (env : Surroundings)

def parseChecksum (raw : Option String) : Except Problem (Option (List UInt8)) :=
  match words (raw.getD "") with
  | [] => .ok none
  | algorithm::rest =>
    if algorithm.toLower ≠ "sha256" then .error .onlySha256
    else
      let decoded := env.fromBase64 (String.join rest)
      if decoded.length ≠ 32 then .error .notADigest else .ok (some decoded)

def Chunk.verified (chunk : Chunk) : Prop := ∀ expected, chunk.expected = some expected → env.sha256 chunk.body = expected

instance (chunk : Chunk) : Decidable (chunk.verified env) :=
  match told : chunk.expected with
  | none => .isTrue (fun expected other => by
      rw [told] at other
      cases other)
  | some expected => decidable_of_iff (env.sha256 chunk.body = expected) (by simp [Chunk.verified,told])

/-- The agent's half of a transfer: all of the declared bytes at the end of the file, or none. -/
def stage (offset length : Nat) (body staged : List UInt8) : Except String (List UInt8) :=
  if staged.length ≠ offset then
    .error ("offset mismatch: the file is at " ++ toString staged.length ++ ", the caller declared " ++ toString offset)
  else if body.length < length then
    .error ("the stream ended after " ++ toString body.length ++ " of " ++ toString length ++ " bytes")
  else .ok (staged ++ body.take length)

def openTransfer (store : Store) : Except Problem (Nat × Store) :=
  .ok ((store.staged.getD []).length,{store with staged := some (store.staged.getD [])})

def transfer (offset length : Nat) (body : List UInt8) (expected : Option (List UInt8)) (store : Store) :
    Except Problem (Nat × Store) :=
  match stage offset length body (store.staged.getD []) with
  | .error reason => .error (.transferFailed reason)
  | .ok staged =>
    .ok (length,{store with
      staged := some staged
      journal := store.journal ++ [.stored ⟨body.take length,expected⟩]})

def discardTransfer (store : Store) : Except Problem (Unit × Store) :=
  .ok ((),{store with
    staged := none
    journal := store.journal ++ if store.staged.isSome then [.discarded] else []})

def setOffset (offset : Nat) (store : Store) : Except Problem (Unit × Store) :=
  .ok ((),{store with session := store.session.map (fun row => {row with offsetBytes := offset})})

def passes (store : Store) : Except Problem (Unit × Store) := .ok ((),store)

inductive PublishAnswer where
  | published (bytes : Nat)
  | notFound (reason : String)
  | conflict (reason : String)
  | refused (reason : String)

def publishTransfer (destination : List String) (expectedBytes : Nat) (store : Store) : Except Problem (PublishAnswer × Store) :=
  match store.staged with
  | none => .ok (.notFound "no such file: the staged bytes are not there",store)
  | some bytes =>
    if bytes.length ≠ expectedBytes then
      .ok (.refused ("staged file is " ++ toString bytes.length ++ " bytes, caller expected " ++ toString expectedBytes),store)
    else if !store.folder && 2 ≤ destination.length then .ok (.notFound "no such entry",store)
    else if store.placed.isSome then
      .ok (.conflict (destination.getLastD "" ++ ": something is already there"),store)
    else .ok (.published bytes.length,{store with staged := none, placed := some bytes})

def ensureDirectories (store : Store) : Except Problem (Unit × Store) := .ok ((),{store with folder := true})

def loadSession (fate : Fate) : Request SessionRow := do
  call fate .unavailable passes
  ask (fun store => store.session.elim (.error .notFound) .ok)

/-- `FilesService.publish`: a folder that has no directory yet gets one, and the publish is
tried once more.
-/
def publish (fates : PatchFates) (destination : List String) (expectedBytes : Nat) : Request Nat := do
  match ← call fates.publish .unavailable (publishTransfer destination expectedBytes) with
  | .published bytes => pure bytes
  | .conflict reason => raise (.nameTakenOnDisk (destination.getLastD "") reason)
  | .refused reason => raise (.unexpectedStatus reason)
  | .notFound reason =>
    if destination.length < 2 then raise (.stagedBytesGone reason)
    else
      call fates.materialise (.folderNotOnDisk reason) ensureDirectories
      match ← call fates.again .unavailable (publishTransfer destination expectedBytes) with
      | .published bytes => pure bytes
      | .conflict reason => raise (.nameTakenOnDisk (destination.getLastD "") reason)
      | .notFound reason => raise (.stagedBytesGone reason)
      | .refused reason => raise (.unexpectedStatus reason)

def recordPublishedFile (id : String) (bytes : Nat) (store : Store) : Except Problem (Unit × Store) :=
  .ok ((),{store with entry := some (id,bytes)})

def completed (id : String) (offset : Nat) (store : Store) : Except Problem (Unit × Store) :=
  .ok ((),{store with session := store.session.map (fun row => {row with fileId := some id, offsetBytes := offset})})

def destinationOf (upload : SessionRow) : List String :=
  match upload.parentId with
  | none => [upload.filename]
  | some parentId => env.componentsOf parentId ++ [upload.filename]

def discardCorrupt (fates : PatchFates) : Request Nat := do
  match ← attempted (call fates.discard Problem.unavailable discardTransfer) with
  | .error _ => raise .notCleaned
  | .ok _ =>
    call fates.restart .unavailable (setOffset 0)
    raise .checksumMismatch

def finish (upload : SessionRow) (fates : PatchFates) (entryId : String) (next : Nat) : Request Nat := do
  call fates.folders .unavailable passes
  call fates.owner .unavailable passes
  let bytes ← publish fates (destinationOf env upload) upload.lengthBytes
  call fates.record .unavailable (recordPublishedFile entryId bytes)
  call fates.complete .unavailable (completed entryId next)
  pure next

/-- `PATCH /uploads/{id}`; its answer is the `Upload-Offset`. -/
def sendChunk (fates : PatchFates) (request : Patch) : Request Nat := do
  let upload ← loadSession fates.session
  if upload.fileId.isSome then raise .alreadyComplete
  else
    let (offset,chunkLength) ← ask (fun _ => checkChunk upload request)
    call fates.share .unavailable passes
    let opened ← call fates.opening .unavailable openTransfer
    if opened ≠ offset then
      call fates.correction .unavailable (setOffset opened)
      raise (.stagedAt opened offset)
    else
      let expected ← ask (fun _ => parseChecksum env request.uploadChecksum)
      let stored ← call fates.transfer .unavailable (transfer opened chunkLength request.body expected)
      if ¬Chunk.verified env ⟨request.body.take chunkLength,expected⟩ then discardCorrupt fates
      else
        let next := offset + stored
        call fates.offset .unavailable (setOffset next)
        if next < upload.lengthBytes then pure next
        else finish env upload fates request.entryId next

def status (fate : Fate) : Request (Nat × Nat) := do
  let upload ← loadSession fate
  pure (upload.offsetBytes,upload.lengthBytes)

def cancel (fates : CancelFates) : Request Unit := do
  let upload ← loadSession fates.session
  if upload.fileId.isSome then raise .alreadyComplete
  else
    call fates.share .unavailable passes
    match ← attempted (call fates.discard Problem.unavailable discardTransfer) with
    | .error _ => raise .notCancelled
    | .ok _ => call fates.delete .unavailable (fun store => .ok ((),{store with session := none}))

inductive Event where
  | patch (request : Patch) (fates : PatchFates)
  | head (fate : Fate)
  | cancel (fates : CancelFates)

def step (store : Store) : Event → Option Store
  | .patch request fates => some (sendChunk env fates request store).2
  | .head fate => some (status fate store).2
  | .cancel fates => some (cancel fates store).2

end

end Depsis.Files.Uploads

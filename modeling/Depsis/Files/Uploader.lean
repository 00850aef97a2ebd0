import Depsis.Files.Uploads

/-! The browser's uploader of one file, the `PATCH` requests it and other tabs have under way, and the sessions they are
about. A request waits between its handler's steps; a fetch of the browser may fail whatever became of its request.
-/
namespace Depsis.Files.Uploader

open Depsis.Foundation Depsis.Foundation.Handlers Uploads

def CHUNK_BYTES : Nat := 5 * 1024 * 1024

def BROKEN_CHUNK_RETRIES : Nat := 3

def TRY_AGAIN_LATER : List Nat := [429,503]

structure File where
  name : String
  parentId : Option String
  content : List UInt8

def File.size (file : File) : Nat := file.content.length

def File.slice (file : File) (start stop : Nat) : List UInt8 := (file.content.take stop).drop start

/-- How a request is turned down: the status, and the `code` of the problem's body. -/
structure Refusal where
  status : Nat
  code : String

structure Answer where
  status : Nat
  code : Option String
  uploadOffset : Option Nat
deriving DecidableEq

def Answer.ok (answer : Answer) : Bool := 200 ≤ answer.status && answer.status < 300

/-- `translate` and the filter; where the agent or the database fails, what they failed with. -/
def refusalOf (other : Refusal) : Problem → Refusal
  | .notFound => ⟨404,"not-found"⟩
  | .alreadyComplete | .offsetMismatch .. | .stagedAt .. => ⟨409,"conflict"⟩
  | .invalidOffset | .lengthRequired | .pastDeclared _ => ⟨400,"bad-request"⟩
  | .transferFailed _ => ⟨500,"internal-error"⟩
  | .nameTakenOnDisk .. => ⟨409,"name-taken"⟩
  | .stagedBytesGone _ => ⟨410,"staged-bytes-gone"⟩
  | .folderNotOnDisk _ | .unexpectedStatus _ => ⟨409,"conflict"⟩
  | _ => other

inductive Phase where
  | arrived
  | loaded (upload : SessionRow)
  | correcting (upload : SessionRow) (opened : Nat)
  | streaming (upload : SessionRow)
  | stored (upload : SessionRow) (next : Nat)
  | publishing (upload : SessionRow) (next : Nat)
  | recording (upload : SessionRow) (next bytes : Nat)
  | completing (upload : SessionRow) (next : Nat)
  | answered (answer : Answer)
deriving DecidableEq

structure Chunk where
  location : Nat
  offset : Nat
  stop : Nat
  phase : Phase

def Chunk.ends (chunk : Chunk) (answer : Answer) : Chunk := {chunk with phase := .answered answer}

def Chunk.refused (chunk : Chunk) (uploadOffset : Option Nat) (refusal : Refusal) : Chunk :=
  chunk.ends ⟨refusal.status,some refusal.code,uploadOffset⟩

section

variable (env : Surroundings) (file : File)

def Chunk.request (chunk : Chunk) (entryId : String) : Patch :=
  ⟨some chunk.offset,some (chunk.stop - chunk.offset : Nat),none,file.slice chunk.offset chunk.stop,entryId⟩

def measure (fates : PatchFates) : Request Nat := do
  call fates.share .unavailable passes
  call fates.opening .unavailable openTransfer

def land (fates : PatchFates) (upload : SessionRow) : Request Nat := do
  call fates.folders .unavailable passes
  call fates.owner .unavailable passes
  publish fates (destinationOf env upload) upload.lengthBytes

def Chunk.checked (chunk : Chunk) (other : Refusal) (entryId : String) (upload : SessionRow) : Chunk :=
  if upload.fileId.isSome then chunk.refused none (refusalOf other .alreadyComplete)
  else
    match checkChunk upload (chunk.request file entryId) with
    | .error (.offsetMismatch offset declared) => chunk.refused (some offset) (refusalOf other (.offsetMismatch offset declared))
    | .error problem => chunk.refused none (refusalOf other problem)
    | .ok _ => {chunk with phase := .loaded upload}

/-- `sendChunk` from one of its calls to the next. -/
def Chunk.serve (chunk : Chunk) (fates : PatchFates) (other : Refusal) (entryId : String) (store : Store) : Chunk × Store :=
  match chunk.phase with
  | .arrived =>
    match loadSession fates.session store with
    | (.error problem,after) => (chunk.refused none (refusalOf other problem),after)
    | (.ok upload,after) => (chunk.checked file other entryId upload,after)
  | .loaded upload =>
    match measure fates store with
    | (.error problem,after) => (chunk.refused none (refusalOf other problem),after)
    | (.ok opened,after) =>
      ({chunk with phase := if opened ≠ chunk.offset then .correcting upload opened else .streaming upload},after)
  | .correcting _ opened =>
    match call fates.correction Problem.unavailable (setOffset opened) store with
    | (.error problem,after) => (chunk.refused none (refusalOf other problem),after)
    | (.ok _,after) => (chunk.refused (some opened) (refusalOf other (.stagedAt opened chunk.offset)),after)
  | .streaming upload =>
    match call fates.transfer Problem.unavailable
        (transfer chunk.offset (chunk.stop - chunk.offset) (file.slice chunk.offset chunk.stop) none) store with
    | (.error problem,after) => (chunk.refused none (refusalOf other problem),after)
    | (.ok stored,after) => ({chunk with phase := .stored upload (chunk.offset + stored)},after)
  | .stored upload next =>
    match call fates.offset Problem.unavailable (setOffset next) store with
    | (.error problem,after) => (chunk.refused none (refusalOf other problem),after)
    | (.ok _,after) =>
      (if next < upload.lengthBytes then chunk.ends ⟨204,none,some next⟩ else {chunk with phase := .publishing upload next},after)
  | .publishing upload next =>
    match land env fates upload store with
    | (.error problem,after) => (chunk.refused (some next) (refusalOf other problem),after)
    | (.ok bytes,after) => ({chunk with phase := .recording upload next bytes},after)
  | .recording upload next bytes =>
    match call fates.record Problem.unavailable (Uploads.recordPublishedFile entryId bytes) store with
    | (.error problem,after) => (chunk.refused (some next) (refusalOf other problem),after)
    | (.ok _,after) => ({chunk with phase := .completing upload next},after)
  | .completing _ next =>
    match call fates.complete Problem.unavailable (completed entryId next) store with
    | (.error problem,after) => (chunk.refused (some next) (refusalOf other problem),after)
    | (.ok _,after) => (chunk.ends ⟨204,none,some next⟩,after)
  | .answered _ => (chunk,store)

end

inductive Conflict where
  | nameTaken
  | realign (offset : Nat)
  | other

def conflict (code : Option String) (offsetHeader : Option Nat) : Conflict :=
  if code = some "name-taken" then .nameTaken
  else
    match offsetHeader with
    | none => .other
    | some offset => if isSafeInteger offset then .realign offset else .other

/-- What `probe` hands to `resumeOffset`: headers that are no safe integers are `null`. -/
structure Head where
  status : Nat
  offset : Option Nat
  length : Option Nat

def number (value : Nat) : Option Nat := if isSafeInteger value then some value else none

def resumeOffset (head : Head) (size : Nat) : Option Nat :=
  if head.status ≠ 200 then none
  else if head.length ≠ some size then none
  else
    match head.offset with
    | none => none
    | some offset => if offset = 0 || size ≤ offset then none else some offset

inductive Failure where
  | unreadable
  | nameClash
  | refused (status : Nat)
  | network
  | noAddress
  | worn
  | unanswered
  | unusable
deriving DecidableEq

/-- Where `uploadFile` stands. `awaiting` has its `PATCH` out, `asking` is about to probe after one that was lost. -/
inductive Stage where
  | recalling
  | opening (attempt : Nat)
  | sending
  | awaiting (chunk stop : Nat)
  | asking
  | ended
  | failed (failure : Failure)
deriving DecidableEq

structure Client where
  note : Option Nat
  location : Nat
  offset : Nat
  broken : Nat
  stage : Stage

def Client.fails (client : Client) (failure : Failure) : Client := {client with stage := .failed failure}

def Client.loses (client : Client) : Client :=
  if BROKEN_CHUNK_RETRIES < client.broken + 1 then {client with broken := client.broken + 1}.fails .worn
  else {client with broken := client.broken + 1, stage := .asking}

def Client.hears (client : Client) (readable : Bool) (answer : Answer) (stop : Nat) : Client :=
  if answer.status = 409 then
    match conflict (if readable then answer.code else none) answer.uploadOffset with
    | .nameTaken => client.fails .nameClash
    | .realign offset => {client with offset := offset, stage := .sending}
    | .other => client.fails (.refused answer.status)
  else if answer.status ∈ TRY_AGAIN_LATER then client.loses
  else if !answer.ok then client.fails (.refused answer.status)
  else {client with offset := stop, broken := 0, stage := .sending}

inductive Probe where
  | lost
  | refused (refusal : Refusal)
  | handled

/-- The sessions by their locations and the requests by their arrival. `published` is a history of what was put in place
for a location, `missed` counts the chunks lost or put off since one went through, and `requests` the requests of this
uploader since the staging file of its session last changed its length, when `crowd` requests were under way.
-/
structure State where
  sessions : Nat → Store
  chunks : Table Nat Chunk
  arrivals : Nat
  client : Client
  published : List (Nat × List UInt8)
  missed : Nat
  requests : Nat
  crowd : Nat

def headOf (store : Store) : Head :=
  match status .done store with
  | (.ok (offset,length),_) => ⟨200,number offset,number length⟩
  | (.error _,_) => ⟨404,none,none⟩

def Probe.allowed : Probe → Bool
  | .refused refusal => 400 ≤ refusal.status
  | _ => true

def State.probe (state : State) (location : Nat) : Probe → Option Head
  | .lost => none
  | .refused refusal => some ⟨refusal.status,none,none⟩
  | .handled => some (headOf (state.sessions location))

/-- What becomes of a `POST`: lost, having opened a session or not, turned down, or answered, with its address or not. -/
inductive Posting where
  | lost (location : Option Nat)
  | refused (refusal : Refusal)
  | made (location : Nat) (addressed : Bool)

/-- An event of the uploader, of a handler, or of someone else: `intrudes` is a `PATCH` of another tab with this file,
`discards` and `deletes` are the steps of a `DELETE`, and `occupies` is what happens at the destination.
-/
inductive Event where
  | recalls (head : Probe)
  | opens (post : Posting) (folder : Bool) (placed : Option (List UInt8))
  | sends
  | finishes
  | unreadable
  | hears (readable : Bool)
  | loses
  | asks (head : Probe)
  | turnsAway (chunk : Nat) (refusal : Refusal)
  | works (chunk : Nat) (fates : PatchFates) (other : Refusal) (entryId : String)
  | drops (chunk : Nat)
  | intrudes (location offset stop : Nat)
  | discards (location : Nat)
  | deletes (location : Nat)
  | occupies (location : Nat) (folder : Bool) (placed : Option (List UInt8))

def State.staged (state : State) (location : Nat) : Nat := ((state.sessions location).staged.getD []).length

def State.settles (before after : State) : State :=
  if after.staged before.client.location = before.staged before.client.location then after
  else {after with requests := 0, crowd := after.chunks.size}

def State.changes (state : State) (location : Nat) (store : Store) : State :=
  {state with sessions := Function.update state.sessions location store}

def freshStore (file : File) (folder : Bool) (placed : Option (List UInt8)) : Store :=
  ⟨some ⟨file.name,file.parentId,file.size,0,none⟩,none,folder,placed,none,[]⟩

def State.creates (state : State) (file : File) (location : Nat) (folder : Bool) (placed : Option (List UInt8)) : Option State :=
  if (state.sessions location).session = none ∧ (state.sessions location).staged = none then
    some (state.changes location (freshStore file folder placed))
  else none

def State.attaches (state : State) (location offset : Nat) : State :=
  {state with crowd := state.chunks.size, client := {state.client with location := location, offset := offset, stage := .sending}}

def State.recalls (state : State) (file : File) (head : Probe) : Option State :=
  match state.client.stage with
  | .recalling =>
    let asked := {state with requests := state.requests + 1}
    match (state.probe state.client.location head).bind (fun head => resumeOffset head file.size) with
    | none => some {asked with client := {state.client with note := none, stage := .opening 1}}
    | some offset => some (asked.attaches state.client.location offset)
  | _ => none

def State.opens (state : State) (file : File) (post : Posting) (folder : Bool) (placed : Option (List UInt8)) : Option State :=
  match state.client.stage with
  | .opening attempt =>
    let asked := {state with requests := state.requests + 1}
    match post with
    | .lost none => some {asked with client := state.client.fails .network}
    | .lost (some location) =>
      (asked.creates file location folder placed).map (fun after => {after with client := state.client.fails .network})
    | .refused refusal =>
      if refusal.status < 400 then none
      else if refusal.status ∉ TRY_AGAIN_LATER || BROKEN_CHUNK_RETRIES < attempt then
        some {asked with client := state.client.fails (.refused refusal.status)}
      else some {asked with client := {state.client with stage := .opening (attempt + 1)}}
    | .made location false =>
      (asked.creates file location folder placed).map (fun after => {after with client := state.client.fails .noAddress})
    | .made location true =>
      (asked.creates file location folder placed).map (fun after =>
        {after.attaches location 0 with client := {(after.attaches location 0).client with note := some location}})
  | _ => none

def State.sends (state : State) (file : File) : Option State :=
  let stop := min (state.client.offset + CHUNK_BYTES) file.size
  if state.client.stage = .sending ∧ state.client.offset < file.size then
    some {state with
      chunks := state.chunks.insert state.arrivals ⟨state.client.location,state.client.offset,stop,.arrived⟩
      arrivals := state.arrivals + 1
      client := {state.client with stage := .awaiting state.arrivals stop}
      requests := state.requests + 1}
  else none

def State.hears (state : State) (readable : Bool) : Option State :=
  match state.client.stage with
  | .awaiting key stop =>
    match state.chunks.lookup key with
    | some ⟨_,_,_,.answered answer⟩ =>
      some {state with
        chunks := state.chunks.erase key
        client := state.client.hears readable answer stop
        missed :=
          if answer.status ∈ TRY_AGAIN_LATER then state.missed + 1 else if answer.ok then 0 else state.missed}
    | _ => none
  | _ => none

def State.asks (state : State) (file : File) (head : Probe) : Option State :=
  match state.client.stage with
  | .asking =>
    let asked := {state with requests := state.requests + 1}
    match state.probe state.client.location head with
    | none => some {asked with client := state.client.fails .unanswered}
    | some head =>
      match resumeOffset head file.size with
      | some offset => some {asked with client := {state.client with offset := offset, stage := .sending}}
      | none => some {asked with client := state.client.fails (if head.status = 200 then .unusable else .unanswered)}
  | _ => none

section

variable (env : Surroundings) (file : File)

def State.works (state : State) (key : Nat) (fates : PatchFates) (other : Refusal) (entryId : String) : Option State :=
  match state.chunks.lookup key with
  | none => none
  | some chunk =>
    if other.status < 400 then none
    else
      let served := chunk.serve env file fates other entryId (state.sessions chunk.location)
      let after := {state.changes chunk.location served.2 with
        chunks := state.chunks.insert key served.1
        published := state.published ++ match chunk.phase,served.1.phase with
          | .publishing _ _,.recording _ _ _ => served.2.placed.toList.map (fun bytes => (chunk.location,bytes))
          | _,_ => []}
      some (state.settles after)

def step (state : State) : Event → Option State
  | .recalls head => if head.allowed then state.recalls file head else none
  | .opens post folder placed => state.opens file post folder placed
  | .sends => state.sends file
  | .finishes =>
    if state.client.stage = .sending ∧ file.size ≤ state.client.offset then
      some {state with client := {state.client with note := none, stage := .ended}}
    else none
  | .unreadable =>
    if state.client.stage = .sending ∧ state.client.offset < file.size then
      some {state with client := state.client.fails .unreadable}
    else none
  | .hears readable => state.hears readable
  | .loses =>
    match state.client.stage with
    | .awaiting _ _ => some {state with client := state.client.loses, missed := state.missed + 1}
    | _ => none
  | .asks head => if head.allowed then state.asks file head else none
  | .turnsAway key refusal =>
    match state.chunks.lookup key with
    | some chunk =>
      if chunk.phase = .arrived ∧ 400 ≤ refusal.status then
        some {state with chunks := state.chunks.insert key (chunk.refused none refusal)}
      else none
    | none => none
  | .works key fates other entryId => state.works env file key fates other entryId
  | .drops key => some {state with chunks := state.chunks.erase key}
  | .intrudes location offset stop =>
    if offset < stop ∧ stop ≤ file.size then
      some {state with
        chunks := state.chunks.insert state.arrivals ⟨location,offset,stop,.arrived⟩
        arrivals := state.arrivals + 1}
    else none
  | .discards location => some (state.settles (state.changes location {state.sessions location with staged := none}))
  | .deletes location => some (state.changes location {state.sessions location with session := none})
  | .occupies location folder placed =>
    some (state.changes location {state.sessions location with folder := folder, placed := placed})

end

def State.first (sessions : Nat → Store) (note : Option Nat) : State :=
  ⟨sessions,∅,0,⟨note,note.getD 0,0,0,if note.isSome then .recalling else .opening 1⟩,[],0,0,0⟩

def State.conflict (state : State) (readable : Bool) : Option Conflict :=
  match state.client.stage with
  | .awaiting key _ =>
    match state.chunks.lookup key with
    | some ⟨_,_,_,.answered answer⟩ =>
      if answer.status = 409 then some (Uploader.conflict (if readable then answer.code else none) answer.uploadOffset) else none
    | _ => none
  | _ => none

/-- No conflict moves the uploader to the end of a file that is not published, and a session that is asked for after a lost
chunk has some of its bytes recorded and not all.
-/
def Event.spares (file : File) (state : State) : Event → Bool
  | .hears readable =>
    match state.conflict readable with
    | some (.realign offset) => offset < file.size || (state.client.location,file.content) ∈ state.published
    | _ => true
  | .asks .handled => (state.sessions state.client.location).session.all (fun row => 0 < row.offsetBytes && row.offsetBytes < file.size)
  | _ => true

/-- What `uploadFile` promises: it ends only with the file published, it gives up on lost chunks only after more of them in a
row than it retries or when the server does not say where it is, and it does not go on asking while nothing moves.
-/
structure Uploaded (file : File) (state : State) : Prop where
  published : state.client.stage = .ended → (state.client.location,file.content) ∈ state.published
  patient : state.client.stage = .failed .worn → BROKEN_CHUNK_RETRIES < state.missed
  heeded : state.client.stage ≠ .failed .unusable
  bounded : state.requests ≤ 15 + 2 * state.crowd

end Depsis.Files.Uploader

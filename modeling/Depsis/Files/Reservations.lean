import Depsis.Agent.TransferSafety
import Depsis.Files.Uploads

/-! The chunks of one upload session and the agent's reservation of its staging name:
`sendChunk` call by call, `open_transfer` and `discard_transfer` of the agent, the data
connections with their guards, and whatever else happens to the registry, in any order.
-/
namespace Depsis.Files.Reservations

open Depsis.Agent Depsis.Foundation Depsis.Files.Uploads

structure Setting where
  env : Surroundings
  share : String
  stagingName : String
  api : PeerIdentity

def Setting.key (setting : Setting) : Agent.Key := (setting.share,setting.stagingName)

structure Declared where
  upload : SessionRow
  offset : Nat
  length : Nat

inductive Phase where
  | loading
  | sharing (declared : Declared)
  | opening (declared : Declared)
  | correcting (opened offset : Nat)
  | connecting (declared : Declared) (expected : Option (List UInt8)) (token : String)
  | sending (declared : Declared) (expected : Option (List UInt8))
  | discarding
  | restarting
  | counting (upload : SessionRow) (next : Nat)
  | finishing (next : Nat)

structure Serving where
  request : Patch
  phase : Phase

structure Preamble where
  token : String
  offset : Nat
  length : Nat
  body : List UInt8

inductive Connection where
  | waiting (preamble : Preamble)
  | streaming (preamble : Preamble) (guard : Nat)
  | answering (guard : Nat) (reply : Except String Nat)
  | returned (reply : Except String Nat)

/-- A response, the `Upload-Offset` in it, and whether the agent held the name when it was sent. -/
structure Sent where
  id : Nat
  answer : Except Problem Unit
  uploadOffset : Option Nat
  held : Bool

structure State where
  agent : Transfers
  session : Option SessionRow
  staged : Option (List UInt8)
  patches : Table Nat Serving
  connections : Table Nat Connection
  sent : List Sent
  refusals : List InsertError

def start (session : Option SessionRow) (staged : Option (List UInt8)) (now : Nat) : State :=
  ⟨.start now,session,staged,∅,∅,[],[]⟩

/-- What becomes of a call to the agent: it never arrives, fails there, or is carried out,
with or without its answer being heard. -/
inductive Delivery where
  | lost
  | failed (reason : String)
  | unheard
  | served

inductive Event where
  | request (id : Nat) (request : Patch)
  | load (id : Nat) (done : Bool)
  | share (id : Nat) (refusal : Option Problem)
  | openTransfer (id : Nat) (token : String) (delivery : Delivery)
  | correct (id : Nat)
  | connect (id : Nat) (made : Bool)
  | claim (id : Nat)
  | reply (id : Nat) (fault : Option String)
  | drop (id : Nat)
  | hear (id : Nat)
  | giveUp (id : Nat) (reason : String)
  | discard (id : Nat) (delivery : Delivery)
  | restart (id : Nat) (done : Bool)
  | count (id : Nat) (done : Bool)
  | finish (id : Nat) (refusal : Option Problem)
  | elsewhere (session : Option SessionRow) (staged : Option (List UInt8))
  | other (event : Agent.Event)

namespace State

def answer (setting : Setting) (state : State) (id : Nat) (answer : Except Problem Unit) (uploadOffset : Option Nat) :
    State :=
  { state with
    patches := state.patches.erase id
    sent := ⟨id,answer,uploadOffset,state.agent.registry.isBusy setting.share setting.stagingName⟩::state.sent }

def awaits (state : State) (id : Nat) (request : Patch) (phase : Phase) : State :=
  { state with patches := state.patches.insert id ⟨request,phase⟩ }

end State

section Steps

variable (setting : Setting) (state : State) (id : Nat)

def load (request : Patch) : State :=
  match state.session with
  | none => state.answer setting id (.error .notFound) none
  | some upload =>
    if upload.fileId.isSome then state.answer setting id (.error .alreadyComplete) none
    else
      match checkChunk upload request with
      | .ok (offset,length) => state.awaits id request (.sharing ⟨upload,offset,length⟩)
      | .error (.offsetMismatch offset declared) =>
        state.answer setting id (.error (.offsetMismatch offset declared)) (some offset)
      | .error problem => state.answer setting id (.error problem) none

def pendingFor : PendingTransfer where
  file := 0
  direction := .receive
  share := setting.share
  stagingName := setting.stagingName
  openedBy := setting.api
  correlationId := ""
  reason := ""
  openedAt := state.agent.now

def opened (request : Patch) (declared : Declared) (token : String) : Except InsertError Unit → State
  | .error refusal =>
    { state.answer setting id (.error (.unexpectedStatus (setting.stagingName ++ " is refused"))) none with
      refusals := refusal::state.refusals }
  | .ok () =>
    let staged := (state.staged.getD []).length
    if staged ≠ declared.offset then state.awaits id request (.correcting staged declared.offset)
    else
      match parseChecksum setting.env request.uploadChecksum with
      | .error problem => state.answer setting id (.error problem) none
      | .ok expected => state.awaits id request (.connecting declared expected token)

def openTransfer (request : Patch) (declared : Declared) (token : String) (delivery : Delivery) : Option State :=
  match delivery with
  | .lost => some (state.answer setting id (.error .unavailable) none)
  | .failed reason => some (state.answer setting id (.error (.unexpectedStatus reason)) none)
  | .unheard => (state.agent.step (.insert token (pendingFor setting state))).map (fun agent =>
      { state with
        agent := agent
        staged := some (state.staged.getD []) }.answer setting id (.error .unavailable) none)
  | .served => (state.agent.step (.insert token (pendingFor setting state))).map (fun agent =>
      opened setting
        { state with
          agent := agent
          staged := some (state.staged.getD []) }
        id request declared token
        (state.agent.registry.insert state.agent.now token (pendingFor setting state)).1)

def claim (preamble : Preamble) : Option State :=
  (state.agent.step (.claim preamble.token setting.api)).map (fun agent =>
    { state with
      agent := agent
      connections := state.connections.insert id
        (match (state.agent.registry.claim state.agent.now preamble.token setting.api).1 with
        | .ok _ => .streaming preamble state.agent.nextGuard
        | .error .expired => .returned (.error "the transfer expired")
        | .error _ => .returned (.error "no such transfer")) })

def reply (preamble : Preamble) (guard : Nat) (fault : Option String) : State :=
  match fault with
  | some reason => { state with connections := state.connections.insert id (.answering guard (.error reason)) }
  | none =>
    match stage preamble.offset preamble.length preamble.body (state.staged.getD []) with
    | .error reason => { state with connections := state.connections.insert id (.answering guard (.error reason)) }
    | .ok bytes =>
      { state with
        staged := some bytes
        connections := state.connections.insert id (.answering guard (.ok preamble.length)) }

def hear (request : Patch) (declared : Declared) (expected : Option (List UInt8)) : Except String Nat → State
  | .error reason => state.answer setting id (.error (.transferFailed reason)) none
  | .ok stored =>
    if Chunk.verified setting.env ⟨request.body.take declared.length,expected⟩ then
      state.awaits id request (.counting declared.upload (declared.offset + stored))
    else state.awaits id request .discarding

/-- `discard_transfer` at the agent, which leaves a file being written alone. -/
def abandoned : State :=
  { state with
    agent := { state.agent with
      registry := (state.agent.registry.abandon setting.share setting.stagingName).2 }
    staged := if (state.agent.registry.abandon setting.share setting.stagingName).1 = .streaming then state.staged
      else none }

def discard (request : Patch) (delivery : Delivery) : State :=
  match delivery with
  | .lost | .failed _ => state.answer setting id (.error .notCleaned) none
  | .unheard => (abandoned setting state).answer setting id (.error .notCleaned) none
  | .served =>
    if (state.agent.registry.abandon setting.share setting.stagingName).1 = .streaming then
      state.answer setting id (.error .notCleaned) none
    else (abandoned setting state).awaits id request .restarting

def withOffset (next : Nat) : State :=
  { state with session := state.session.map (fun row => { row with offsetBytes := next }) }

def count (request : Patch) (upload : SessionRow) (next : Nat) (done : Bool) : State :=
  if !done then state.answer setting id (.error .unavailable) none
  else if next < upload.lengthBytes then (withOffset state next).answer setting id (.ok ()) (some next)
  else (withOffset state next).awaits id request (.finishing next)

def completed (entryId : String) : State :=
  { state with
    session := state.session.map (fun row => { row with fileId := some entryId })
    staged := none }

def finish (request : Patch) (next : Nat) (refusal : Option Problem) : State :=
  match refusal with
  | some problem => state.answer setting id (.error problem) (some next)
  | none => (completed state request.entryId).answer setting id (.ok ()) (some next)

def isForeign : Agent.Event → Bool
  | .insert _ transfer => decide (transfer.direction = .send) || decide (transfer.key ≠ setting.key)
  | .claim token peer => (state.agent.registry.pending.lookup token).all (fun transfer =>
      decide (transfer.direction = .send) || decide (transfer.key ≠ setting.key) ||
        decide (transfer.openedBy.uid ≠ peer.uid))
  | .drop guard => (state.agent.guards.lookup guard).all (fun held => decide (held.key ≠ setting.key))
  | .abandon _ _ | .advance _ => true

end Steps

def step (setting : Setting) (state : State) : Event → Option State
  | .request id request =>
    if (state.patches.lookup id).isSome || (state.connections.lookup id).isSome then none
    else some (state.awaits id request .loading)
  | .load id done =>
    match state.patches.lookup id with
    | some ⟨request,.loading⟩ =>
      some (if done then load setting state id request else state.answer setting id (.error .unavailable) none)
    | _ => none
  | .share id refusal =>
    match state.patches.lookup id with
    | some ⟨request,.sharing declared⟩ =>
      some (match refusal with
        | some problem => state.answer setting id (.error problem) none
        | none => state.awaits id request (.opening declared))
    | _ => none
  | .openTransfer id token delivery =>
    match state.patches.lookup id with
    | some ⟨request,.opening declared⟩ => openTransfer setting state id request declared token delivery
    | _ => none
  | .correct id =>
    match state.patches.lookup id with
    | some ⟨_,.correcting opened offset⟩ =>
      some ((withOffset state opened).answer setting id (.error (.stagedAt opened offset)) (some opened))
    | _ => none
  | .connect id made =>
    match state.patches.lookup id with
    | some ⟨request,.connecting declared expected token⟩ =>
      some (if made then
        { state.awaits id request (.sending declared expected) with
          connections := state.connections.insert id (.waiting ⟨token,declared.offset,declared.length,request.body⟩) }
        else state.answer setting id (.error .unavailable) none)
    | _ => none
  | .claim id =>
    match state.connections.lookup id with
    | some (.waiting preamble) => claim setting state id preamble
    | _ => none
  | .reply id fault =>
    match state.connections.lookup id with
    | some (.streaming preamble guard) => some (reply state id preamble guard fault)
    | _ => none
  | .drop id =>
    match state.connections.lookup id with
    | some (.answering guard answer) => (state.agent.step (.drop guard)).map (fun agent =>
        { state with
          agent := agent
          connections := state.connections.insert id (.returned answer) })
    | _ => none
  | .hear id =>
    match state.patches.lookup id,state.connections.lookup id with
    | some ⟨request,.sending declared expected⟩,some (.answering _ answer)
    | some ⟨request,.sending declared expected⟩,some (.returned answer) =>
      some (hear setting state id request declared expected answer)
    | _,_ => none
  | .giveUp id reason =>
    match state.patches.lookup id with
    | some ⟨_,.sending _ _⟩ => some (state.answer setting id (.error (.transferFailed reason)) none)
    | _ => none
  | .discard id delivery =>
    match state.patches.lookup id with
    | some ⟨request,.discarding⟩ => some (discard setting state id request delivery)
    | _ => none
  | .restart id done =>
    match state.patches.lookup id with
    | some ⟨_,.restarting⟩ =>
      some (if done then (withOffset state 0).answer setting id (.error .checksumMismatch) (some 0)
        else state.answer setting id (.error .unavailable) none)
    | _ => none
  | .count id done =>
    match state.patches.lookup id with
    | some ⟨request,.counting upload next⟩ => some (count setting state id request upload next done)
    | _ => none
  | .finish id refusal =>
    match state.patches.lookup id with
    | some ⟨request,.finishing next⟩ => some (finish setting state id request next refusal)
    | _ => none
  | .elsewhere session staged =>
    some { state with
      session := session
      staged := staged }
  | .other event =>
    if isForeign setting state event then (state.agent.step event).map (fun agent => { state with agent := agent })
    else none

structure Unblocked (state : State) : Prop where
  free : ∀ sent ∈ state.sent, sent.held = false
  accepted : InsertError.occupied ∉ state.refusals

def hasReturned (state : State) (id : Nat) : Bool :=
  match state.connections.lookup id with
  | some (.returned _) => true
  | _ => false

/-- The step keeps clear of a response under a reservation: chunks come one at a time, what is
opened is streamed, and the connection is over when the response is due. -/
def spares (setting : Setting) (state : State) : Event → Bool
  | .request _ _ => decide (state.patches.entries = [])
  | .openTransfer id _ delivery =>
    match delivery,state.patches.lookup id with
    | .unheard,_ => false
    | .served,some ⟨request,.opening declared⟩ => decide ((state.staged.getD []).length = declared.offset) &&
        (parseChecksum setting.env request.uploadChecksum).isOk
    | _,_ => true
  | .connect _ made => made
  | .hear id =>
    match state.connections.lookup id with
    | some (.answering _ (.error _)) => false
    | _ => true
  | .giveUp id _ | .discard id _ | .restart id _ | .count id _ | .finish id _ => hasReturned state id
  | _ => true

end Depsis.Files.Reservations

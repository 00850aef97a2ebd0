import Depsis.Foundation.Streams
import Depsis.Agent.TransferRegistry

/-! The bulk data channel (`services/system-agent/src/data.rs`): one connection
reads a preamble, redeems its token and appends to a staging file or sends a
published one. The socket, the deadline and the file answer from scripts, so a
failure can stand at every call.
-/
namespace Depsis.Agent.DataChannel

open Depsis.Foundation Depsis.Foundation.Streams Depsis.Agent

def PREAMBLE_BUDGET : Nat := seconds 10
def MAX_PREAMBLE_BYTES : Nat := 256
def COPY_BUFFER : Nat := 64 * 1024
def ENOSPC : Int := 28
def EDQUOT : Int := 122

structure IoError where
  rawOsError : Option Int
  display : String
  deriving DecidableEq

def IoError.other (message : String) : IoError := ⟨none,message⟩

structure Preamble where
  token : String
  offset : UInt64
  length : UInt64

inductive FailureKind where
  | outOfSpace
  | io
  | refused
  deriving DecidableEq

inductive DataReply where
  | ready
  | stored (bytes : Nat)
  | sending (bytes : Nat)
  | failed (reason : String) (kind : FailureKind)

def classify (error : IoError) : FailureKind :=
  if error.rawOsError = some ENOSPC ∨ error.rawOsError = some EDQUOT then .outOfSpace else .io

inductive Outcome where
  | allowed
  | refused (reason : String)
  | failed (reason : String)

structure Entry where
  correlationId : String
  uid : Nat
  pid : Nat
  operation : String
  reason : String
  outcome : Outcome

inductive Decision where
  | allow
  | deny (reason : String)
  deriving DecidableEq

structure Policy where
  apiUid : Nat

def Policy.authorizePeer (policy : Policy) (peer : PeerIdentity) : Decision :=
  if peer.uid = policy.apiUid then .allow
  else if peer.uid = 0 then .deny "root is not the API; use the API's uid"
  else .deny "caller uid is not the configured API uid"

/-- The socket: what arrives, the answers of `arm_read`, the clock at each look at
the preamble's deadline, and the outgoing side. Exhausted scripts succeed. -/
structure Wire where
  inbound : List (Arrival IoError)
  arms : List (Option String)
  elapsed : List Nat
  outbound : Sink IoError
  flushes : List (Option IoError)

def Wire.armRead (wire : Wire) : Option String × Wire :=
  (wire.arms.head?.join,{ wire with arms := wire.arms.tail })

def Wire.now (wire : Wire) : Nat × Wire :=
  (wire.elapsed.headD 0,{ wire with elapsed := wire.elapsed.tail })

def Wire.read (window : Nat) (wire : Wire) : Reading IoError × Wire :=
  ((Streams.read window wire.inbound).1,{ wire with inbound := (Streams.read window wire.inbound).2 })

def Wire.writeAll (data : List UInt8) (wire : Wire) : Option IoError × Wire :=
  ((wire.outbound.writeAll data).1,{ wire with outbound := (wire.outbound.writeAll data).2 })

def Wire.flush (wire : Wire) : Option IoError × Wire :=
  (wire.flushes.head?.join,{ wire with flushes := wire.flushes.tail })

/-- One `read` of the file being sent: at most `count` bytes, or its end because it
shrank. -/
inductive FileRead where
  | short (count : Nat)
  | ended
  | interrupted
  | failed (error : IoError)

structure OpenFile where
  store : Sink IoError
  seekEnd : Option IoError
  metadata : Option IoError
  seekStart : Option IoError
  reads : List FileRead
  sync : Option IoError

def OpenFile.setLen (length : Nat) (file : OpenFile) : OpenFile :=
  { file with store.content := file.store.content.take length ++
      List.replicate (length - file.store.content.length) 0 }

def OpenFile.writeAll (data : List UInt8) (file : OpenFile) : Option IoError × OpenFile :=
  ((file.store.writeAll data).1,{ file with store := (file.store.writeAll data).2 })

def OpenFile.read (position window : Nat) (file : OpenFile) : Reading IoError × OpenFile :=
  let chunk := (file.store.content.drop position).take window
  match file.reads with
  | [] => (.bytes chunk,file)
  | .short count::rest => (.bytes (chunk.take count),{ file with reads := rest })
  | .ended::rest => (.bytes [],{ file with reads := rest })
  | .interrupted::rest => (.interrupted,{ file with reads := rest })
  | .failed error::rest => (.failed error,{ file with reads := rest })

theorem Wire.read_weight (wire : Wire) {window : Nat} (room : 0 < window)
    (more : (wire.read window).1 ≠ .bytes []) : weight (wire.read window).2.inbound < weight wire.inbound :=
  Streams.read_weight room more

theorem OpenFile.read_reads (position window : Nat) (file : OpenFile) :
    (file.read position window).2.reads.length ≤ file.reads.length := by
  cases reads : file.reads with
  | nil => simp [OpenFile.read,reads]
  | cons outcome rest => cases outcome <;> simp [OpenFile.read,reads]

theorem OpenFile.read_interrupted {position window : Nat} {file : OpenFile}
    (interrupted : (file.read position window).1 = .interrupted) :
    (file.read position window).2.reads.length < file.reads.length := by
  cases reads : file.reads with
  | nil => simp [OpenFile.read,reads] at interrupted
  | cons outcome rest => cases outcome <;> simp [OpenFile.read,reads] at interrupted ⊢

/-- The loop of `read_preamble`; `buf` is what arrived before this read. -/
def preambleLoop (buf : List UInt8) (wire : Wire) : Except String (String × List UInt8) × Wire :=
  let timed := wire.now.2
  if PREAMBLE_BUDGET ≤ wire.now.1 then (.error "preamble did not arrive in time",timed)
  else match timed.armRead.1 with
  | some error => (.error error,timed.armRead.2)
  | none =>
    let after := (timed.armRead.2.read MAX_PREAMBLE_BYTES).2
    match _reading : (timed.armRead.2.read MAX_PREAMBLE_BYTES).1 with
    | .bytes [] => (.error "connection closed before the preamble",after)
    | .interrupted => preambleLoop buf after
    | .failed error => (.error ("read preamble: " ++ error.display),after)
    | .bytes (first::more) =>
      let data := first::more
      match data.findIdx? (fun byte => byte == 10) with
      | some newline =>
        match String.fromUTF8? ⟨(buf ++ data.take newline).toArray⟩ with
        | some line => (.ok (line,data.drop (newline + 1)),after)
        | none => (.error "preamble is not valid UTF-8",after)
      | none =>
        if MAX_PREAMBLE_BYTES ≤ (buf ++ data).length then
          (.error ("preamble exceeds " ++ toString MAX_PREAMBLE_BYTES ++ " bytes"),after)
        else preambleLoop (buf ++ data) after
termination_by weight wire.inbound
decreasing_by
  all_goals
    refine Wire.read_weight wire.now.2.armRead.2 (by decide) ?_
    rw [_reading]
    simp

def readPreamble (wire : Wire) : Except String (String × List UInt8) × Wire := preambleLoop [] wire

inductive CopyError where
  | io (error : IoError)
  | short (got want : Nat)
  deriving DecidableEq

def copyLoop (want written : Nat) (wire : Wire) (file : OpenFile) :
    Except CopyError Nat × Wire × OpenFile :=
  if _remaining : written < want then
    match wire.armRead.1 with
    | some error => (.error (.io (.other ("could not arm the read: io: " ++ error))),wire.armRead.2,file)
    | none =>
      let window := min (want - written) COPY_BUFFER
      let after := (wire.armRead.2.read window).2
      match _reading : (wire.armRead.2.read window).1 with
      -- an early end is short, not finished: the declared length says when an upload is complete
      | .bytes [] => (.error (.short written want),after,file)
      | .bytes (first::more) =>
        match (file.writeAll (first::more)).1 with
        | some error => (.error (.io error),after,(file.writeAll (first::more)).2)
        | none => copyLoop want (written + (first::more).length) after (file.writeAll (first::more)).2
      | .interrupted => copyLoop want written after file
      | .failed error => (.error (.io error),after,file)
  else (.ok written,wire,file)
termination_by weight wire.inbound
decreasing_by
  all_goals
    refine Wire.read_weight wire.armRead.2 ?_ ?_
    · have room : 0 < COPY_BUFFER := by decide
      omega
    · rw [_reading]
      simp

def copyExactly (wire : Wire) (file : OpenFile) (preamble : Preamble) (leftover : List UInt8) :
    Except CopyError Nat × Wire × OpenFile :=
  let want := preamble.length.toNat
  if leftover = [] then copyLoop want 0 wire file
  else
    let head := leftover.take (min want leftover.length)
    match (file.writeAll head).1 with
    | some error => (.error (.io error),wire,(file.writeAll head).2)
    | none => copyLoop want (min want leftover.length) wire (file.writeAll head).2

structure Attempt where
  reply : DataReply
  outcome : Outcome
  detail : String

def Attempt.refused (reason : String) : Attempt := ⟨.failed reason .refused,.refused reason,reason⟩

def Attempt.fromIo (error : IoError) (start : Nat) : Attempt where
  reply := .failed error.display (classify error)
  outcome := .failed error.display
  detail := error.display ++ "; rolled back to offset " ++ toString start

section Serve

/- `serde_json`: the line a reply is serialised to, and the parse of a preamble
with unknown fields denied. -/
variable (serialise : DataReply → List UInt8) (parse : String → Except String Preamble)

def reply (answer : DataReply) (wire : Wire) : Option String × Wire :=
  let line := wire.writeAll (serialise answer)
  match line.1 with
  | some error => (some ("write reply: " ++ error.display),line.2)
  | none =>
    let ended := line.2.writeAll [10]
    match ended.1 with
    | some error => (some ("write reply: " ++ error.display),ended.2)
    | none => (ended.2.flush.1.map (fun error => "write reply: " ++ error.display),ended.2.flush.2)

def attempt (wire : Wire) (file : OpenFile) (preamble : Preamble) (leftover : List UInt8) :
    Attempt × Wire × OpenFile :=
  match file.seekEnd with
  | some error => (.fromIo error 0,wire,file)
  | none =>
    let start := file.store.content.length
    if start ≠ preamble.offset.toNat then
      (.refused ("offset mismatch: the file is at " ++ toString start ++ ", the caller declared " ++
        toString preamble.offset.toNat),wire,file)
    else match (reply serialise .ready wire).1 with
    | some error => (.refused ("could not acknowledge: io: " ++ error),(reply serialise .ready wire).2,file)
    | none =>
      match copyExactly (reply serialise .ready wire).2 file preamble leftover with
      | (.ok written,after,copied) =>
        match copied.sync with
        | some error => (.fromIo error start,after,copied.setLen start)
        | none => (⟨.stored written,.allowed,toString written ++ " bytes at offset " ++ toString start⟩,after,copied)
      | (.error (.io error),after,copied) => (.fromIo error start,after,copied.setLen start)
      | (.error (.short got want),after,copied) =>
        (.refused ("the stream ended after " ++ toString got ++ " of " ++ toString want ++ " bytes"),after,
          copied.setLen start)

/-- The body of `send`, once `written` bytes are on the wire. -/
def sendLoop (offset length written : Nat) (wire : Wire) (file : OpenFile) : Attempt × Wire × OpenFile :=
  if _remaining : written < length then
    let after := (file.read (offset + written) (min (length - written) COPY_BUFFER)).2
    match _reading : (file.read (offset + written) (min (length - written) COPY_BUFFER)).1 with
    | .bytes [] => (.refused ("the file ended after " ++ toString written ++ " of " ++ toString length ++ " bytes"),
        wire,after)
    | .bytes (first::more) =>
      match (wire.writeAll (first::more)).1 with
      | some error => (.fromIo error 0,(wire.writeAll (first::more)).2,after)
      | none => sendLoop offset length (written + (first::more).length) (wire.writeAll (first::more)).2 after
    | .interrupted => sendLoop offset length written wire after
    | .failed error => (.fromIo error 0,wire,after)
  else match wire.flush.1 with
    | some error => (.fromIo error 0,wire.flush.2,file)
    | none => (⟨.sending length,.allowed,toString written ++ " bytes from offset " ++ toString offset⟩,
        wire.flush.2,file)
termination_by (length - written) + file.reads.length
decreasing_by
  · have shorter := OpenFile.read_reads (offset + written) (min (length - written) COPY_BUFFER) file
    simp only [List.length_cons]
    omega
  · refine Nat.add_lt_add_left (OpenFile.read_interrupted ?_) _
    exact _reading

def send (wire : Wire) (file : OpenFile) (preamble : Preamble) : (Attempt × Bool) × Wire × OpenFile :=
  match file.metadata with
  | some error => ((.fromIo error 0,false),wire,file)
  | none =>
    let offset := preamble.offset.toNat
    let length := preamble.length.toNat
    if UInt64.size ≤ offset + length then ((.refused "the requested range overflows",false),wire,file)
    else if file.store.content.length < offset + length then
      ((.refused ("the requested range ends at " ++ toString (offset + length) ++ ", the file is " ++
        toString file.store.content.length ++ " bytes"),false),wire,file)
    else match file.seekStart with
    | some error => ((.fromIo error 0,false),wire,file)
    | none =>
      match (reply serialise (.sending length) wire).1 with
      | some error => ((.refused ("could not announce the transfer: io: " ++ error),false),
          (reply serialise (.sending length) wire).2,file)
      | none =>
        let sent := sendLoop offset length 0 (reply serialise (.sending length) wire).2 file
        ((sent.1,true),sent.2)

/-- One connection's result: `answered` is the reply `serve` handed to the stream
last, `failure` its error. -/
structure Served where
  failure : Option String
  answered : Option DataReply
  journal : List Entry
  wire : Wire
  files : Nat → OpenFile

def refuse (wire : Wire) (peer : PeerIdentity) (files : Nat → OpenFile) (reason : String) : Served where
  failure := (reply serialise (.failed reason .refused) wire).1
  answered := some (.failed reason .refused)
  journal := [⟨"-",peer.uid,peer.pid,"data_transfer","-",.refused reason⟩]
  wire := (reply serialise (.failed reason .refused) wire).2
  files := files

def record (peer : PeerIdentity) (transfer : PendingTransfer) (attempt : Attempt) : Entry :=
  ⟨transfer.correlationId,peer.uid,peer.pid,"data_transfer",
    transfer.share ++ "/" ++ transfer.stagingName ++ ": " ++ attempt.detail ++ " (" ++ transfer.reason ++ ")",
    attempt.outcome⟩

def transferred (wire : Wire) (transfer : PendingTransfer) (file : OpenFile) (preamble : Preamble)
    (leftover : List UInt8) : (Attempt × Bool) × Wire × OpenFile :=
  match transfer.direction with
  | .receive =>
    let result := attempt serialise wire file preamble leftover
    ((result.1,false),result.2)
  | .send =>
    if leftover ≠ [] then ((.refused "a download preamble must not be followed by data",false),wire,file)
    else send serialise wire file preamble

def serve (policy : Policy) (peer : PeerIdentity) (now : Nat) (registry : TransferRegistry) (wire : Wire)
    (files : Nat → OpenFile) : Served :=
  if policy.authorizePeer peer ≠ .allow then refuse serialise wire peer files "caller is not the API uid"
  else match readPreamble wire with
  | (.error error,after) => ⟨some error,none,[],after,files⟩
  | (.ok (line,leftover),after) =>
    match parse line with
    | .error error => refuse serialise after peer files ("unparseable preamble: " ++ error)
    | .ok preamble =>
      match (registry.claim now preamble.token peer).1 with
      | .error .expired => refuse serialise after peer files "the transfer expired"
      | .error _ => refuse serialise after peer files "no such transfer"
      | .ok (transfer,_) =>
        let result := transferred serialise after transfer (files transfer.file) preamble leftover
        let entry := record peer transfer result.1.1
        let kept := Function.update files transfer.file result.2.2
        if result.1.2 then ⟨none,none,[entry],result.2.1,kept⟩
        else ⟨(reply serialise result.1.1.reply result.2.1).1,some result.1.1.reply,[entry],
          (reply serialise result.1.1.reply result.2.1).2,kept⟩

end Serve

end Depsis.Agent.DataChannel

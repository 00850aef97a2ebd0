import Depsis.Agent.DataChannel
import Depsis.Agent.Envelope
import Depsis.Foundation.Text
import Depsis.Foundation.Utf8

/-! One connection of the agent's control socket: a request is read up to a newline, the cap or
the end of the stream, and answered.
-/
namespace Depsis.Agent.Requests

open Depsis.Foundation Depsis.Foundation.Streams Depsis.Foundation.Json DataChannel Envelope

def MAX_REQUEST_BYTES : Nat := 256 * 1024

def IO_TIMEOUT : Nat := seconds 30

def CHUNK : Nat := 8192

def timedOut (error : IoError) : Bool := error.rawOsError = some 11 || error.rawOsError = some 110

def expired : String := "request not complete within 30s"

/-- The loop of `read_request_line_within`; `buf` is what arrived before this read. -/
def readLoop (buf : List UInt8) (wire : Wire) : Except String (List UInt8) × Wire :=
  let timed := wire.now.2
  if IO_TIMEOUT ≤ wire.now.1 then (.error expired,timed)
  else match timed.armRead.1 with
  | some error => (.error ("re-arm read timeout: " ++ error),timed.armRead.2)
  | none =>
    let room := MAX_REQUEST_BYTES - buf.length
    if _full : room = 0 then (.ok buf,timed.armRead.2)
    else
      let after := (timed.armRead.2.read (min room CHUNK)).2
      match _reading : (timed.armRead.2.read (min room CHUNK)).1 with
      | .bytes [] => (.ok buf,after)
      | .interrupted => readLoop buf after
      | .failed error => (.error (if timedOut error then expired else "read request: " ++ error.display),after)
      | .bytes (first::more) =>
        if 10 ∈ first::more then (.ok (buf ++ first::more),after) else readLoop (buf ++ first::more) after
termination_by weight wire.inbound
decreasing_by
  all_goals
    refine Wire.read_weight wire.now.2.armRead.2 (by unfold CHUNK; omega) ?_
    rw [_reading]
    simp

def readRequestLine (wire : Wire) : Except String (List Char) × Wire :=
  ((readLoop [] wire).1.map Utf8.decode,(readLoop [] wire).2)

inductive Answer where
  | refused (reason : String)
  | failed (reason : String)
  | handled (requestJson correlationId reason : List Char)

variable (representable : List Char → Bool) (explain : List Char → String) (reencode : Value → List Char)

def answerTo (line : List Char) : Option Answer :=
  if line = [] then none
  else if MAX_REQUEST_BYTES ≤ (Utf8.encode line).length then
    some (.refused ("request exceeds " ++ toString MAX_REQUEST_BYTES ++ " bytes"))
  else
    match splitEnvelope representable explain reencode (Text.trimEnd line) with
    | .error why => some (.failed why)
    | .ok (correlationId,reason,requestJson) => some (.handled requestJson correlationId reason)

variable (render : Answer → List UInt8)

def respond (answer : Answer) (wire : Wire) : Option String × Wire :=
  let written := wire.writeAll (render answer ++ [10])
  match written.1 with
  | some error => (some ("write response: " ++ error.display),written.2)
  | none =>
    match written.2.flush.1 with
    | some error => (some ("write response: " ++ error.display),written.2.flush.2)
    | none => (none,written.2.flush.2)

def serveOne (wire : Wire) : Except String (Option Answer) × Wire :=
  match (readRequestLine wire).1 with
  | .error error => (.error error,(readRequestLine wire).2)
  | .ok line =>
    match answerTo representable explain reencode line with
    | none => (.ok none,(readRequestLine wire).2)
    | some answer =>
      match (respond render answer (readRequestLine wire).2).1 with
      | some error => (.error error,(respond render answer (readRequestLine wire).2).2)
      | none => (.ok (some answer),(respond render answer (readRequestLine wire).2).2)

end Depsis.Agent.Requests

import Depsis.Foundation.JsonWritten

/-! The line around a request: how the API writes it, and what the agent takes from it.
-/
namespace Depsis.Agent.Envelope

open Depsis.Foundation Depsis.Foundation.Json Depsis.Foundation.JsString

def MAX_CORRELATION_ID : Nat := 64

def MAX_REASON : Nat := 200

def isControl (point : Nat) : Bool := point < 0x20 || (0x7f ≤ point && point ≤ 0x9f)

def stripControl (value : List Nat) : List Nat :=
  (codePoints value).flatMap (fun point => if isControl point then [0x20] else pointUnits point)

def sanitiseReason (reason : List Nat) : List Nat := (stripControl reason).take MAX_REASON

def sanitiseCorrelationId (id : List Nat) : Option (List Nat) :=
  let clean := trim ((stripControl id).take MAX_CORRELATION_ID)
  if clean = [] then none else some clean

def name (key : String) : List Nat := key.toList.flatMap units

def line (correlationId reason : List Nat) (request : Js) : List Char :=
  stringify (.object [(name "correlation_id",.string correlationId),(name "reason",.string reason),(name "request",request)])

def charIsControl (char : Char) : Bool := char.toNat < 0x20 || (0x7f ≤ char.toNat && char.toNat ≤ 0x9f)

def get (fields : List (List Char × Value)) (key : String) : Option Value :=
  (fields.find? (fun field => field.1 = key.toList)).map Prod.snd

def field (fields : List (List Char × Value)) (key : String) (max : Nat) : Except String (List Char) :=
  match get fields key with
  | some (.string raw) =>
    if raw.length > max then .error ("envelope field '" ++ key ++ "' exceeds " ++ toString max ++ " characters")
    else if raw.any charIsControl then .error ("envelope field '" ++ key ++ "' contains control characters")
    else .ok raw
  | _ => .error ("envelope field '" ++ key ++ "' missing or not a string")

variable (representable : List Char → Bool) (explain : List Char → String) (reencode : Value → List Char)

def splitEnvelope (line : List Char) : Except String (List Char × List Char × List Char) :=
  match fromStr representable line with
  | none => .error ("malformed envelope: " ++ explain line)
  | some (.object fields) => do
    let correlationId ← field fields "correlation_id" 64
    let reason ← field fields "reason" 200
    match get fields "request" with
    | none => .error "envelope field 'request' missing"
    | some request => .ok (correlationId,reason,reencode request)
  | some _ => .error "envelope must be a JSON object"

end Depsis.Agent.Envelope

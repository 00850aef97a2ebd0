import Depsis.Console.Base64
import Depsis.Foundation.Json

/-! The console's wire: what a line from the API means.
-/
namespace Depsis.Console.Protocol
open Depsis.Foundation Depsis.Foundation.Json Base64

def MAX_LINE_BYTES : Nat := 256 * 1024
def MIN_COLS : Nat := 20
def MAX_COLS : Nat := 500
def MIN_ROWS : Nat := 5
def MAX_ROWS : Nat := 200
def MAX_INPUT_BYTES : Nat := 64 * 1024

inductive ProtocolError where
  | malformed (why : String)
  | notAUuid (field : String)
  | geometry (cols rows : Nat)
  | notBase64
  | inputTooLarge (size : Nat)
  | lineTooLong (size : Nat)

structure TermSize where
  cols : Nat
  rows : Nat
  colsIn : MIN_COLS ≤ cols ∧ cols ≤ MAX_COLS
  rowsIn : MIN_ROWS ≤ rows ∧ rows ≤ MAX_ROWS

def TermSize.new (cols rows : Nat) : Except ProtocolError TermSize :=
  if inside : (MIN_COLS ≤ cols ∧ cols ≤ MAX_COLS) ∧ (MIN_ROWS ≤ rows ∧ rows ≤ MAX_ROWS) then
    .ok ⟨cols,rows,inside.1,inside.2⟩
  else .error (.geometry cols rows)

def isHexDigit (byte : UInt8) : Bool :=
  (48 ≤ byte && byte ≤ 57) || (65 ≤ byte && byte ≤ 70) || (97 ≤ byte && byte ≤ 102)

def uuidByte (byte : UInt8) (index : Nat) : Bool :=
  if index = 8 ∨ index = 13 ∨ index = 18 ∨ index = 23 then byte = 45 else isHexDigit byte

def parseUuid (raw : List Char) (field : String) : Except ProtocolError (List Char) :=
  let bytes := Utf8.encode raw
  if bytes.length ≠ 36 then .error (.notAUuid field)
  else if bytes.zipIdx.all (fun byte => uuidByte byte.1 byte.2) then .ok (raw.map Char.toLower)
  else .error (.notAUuid field)

structure Open where
  size : TermSize
  session : List Char
  user : List Char
  privileged : Bool

inductive ClientMessage where
  | open' (opened : Open)
  | input (bytes : List UInt8)
  | resize (size : TermSize)
  | close

inductive RawClientMessage where
  | open' (cols rows : Nat) (session user : List Char) (privileged : Bool)
  | in' (d : List Char)
  | resize (cols rows : Nat)
  | close

def asU16 : Value → Option Nat
  | .number literal =>
    if literal.all Char.isDigit then
      let value := literal.foldl (fun value digit => value * 10 + (digit.toNat - 48)) 0
      if value < 0x10000 then some value else none
    else none
  | _ => none

def asString : Value → Option (List Char)
  | .string text => some text
  | _ => none

def asBool : Value → Option Bool
  | .bool value => some value
  | _ => none

def asOpen (cols rows session user privileged : Option Value) : Option RawClientMessage := do
  let cols ← cols.bind asU16
  let rows ← rows.bind asU16
  let session ← session.bind asString
  let user ← user.bind asString
  match privileged with
  | none => some (.open' cols rows session user false)
  | some value => (asBool value).map (RawClientMessage.open' cols rows session user)

def asResize (cols rows : Option Value) : Option RawClientMessage := do
  let cols ← cols.bind asU16
  let rows ← rows.bind asU16
  some (.resize cols rows)

def fieldsOf (allowed : List (List Char)) (fields : List (List Char × Value)) : Option (String → Option Value) :=
  if (fields.map Prod.fst).all (fun key => key ∈ allowed) ∧ (fields.map Prod.fst).Nodup then
    some (fun key => (fields.find? (fun field => field.1 = key.toList)).map Prod.snd)
  else none

def variantOf (tag : List Char) (fields : List (List Char × Value)) : Option RawClientMessage :=
  if tag = "open".toList then do
    let get ← fieldsOf (["cols","rows","session","user","privileged"].map String.toList) fields
    asOpen (get "cols") (get "rows") (get "session") (get "user") (get "privileged")
  else if tag = "in".toList then do
    let get ← fieldsOf ["d".toList] fields
    (get "d").bind (fun value => (asString value).map .in')
  else if tag = "resize".toList then do
    let get ← fieldsOf (["cols","rows"].map String.toList) fields
    asResize (get "cols") (get "rows")
  else if tag = "close".toList then some .close
  else none

def variantOfItems (tag : List Char) (items : List Value) : Option RawClientMessage :=
  if tag = "open".toList then
    if items.length ≤ 5 then asOpen items[0]? items[1]? items[2]? items[3]? items[4]? else none
  else if tag = "in".toList then
    match items with
    | [d] => (asString d).map .in'
    | _ => none
  else if tag = "resize".toList then
    match items with
    | [cols,rows] => asResize (some cols) (some rows)
    | _ => none
  else if tag = "close".toList then if items.isEmpty then some .close else none
  else none

/-- A message whose field `t`, or whose first item, says which it is. -/
def deserialize : Value → Option RawClientMessage
  | .object fields =>
    match fields.filter (fun field => field.1 = ['t']) with
    | [(_,.string tag)] => variantOf tag (fields.filter (fun field => field.1 ≠ ['t']))
    | _ => none
  | .array (.string tag::items) => variantOfItems tag items
  | _ => none

variable (representable : List Char → Bool) (explain : List Char → String)

def trimReturns (line : List Char) : List Char :=
  (line.reverse.dropWhile (fun char => char = '\r' || char = '\n')).reverse

def validate : RawClientMessage → Except ProtocolError ClientMessage
  | .open' cols rows session user privileged => do
    let size ← TermSize.new cols rows
    let session ← parseUuid session "session"
    let user ← parseUuid user "user"
    .ok (.open' ⟨size,session,user,privileged⟩)
  | .in' d =>
    match base64Decode d with
    | none => .error .notBase64
    | some bytes => if MAX_INPUT_BYTES < bytes.length then .error (.inputTooLarge bytes.length) else .ok (.input bytes)
  | .resize cols rows => do
    let size ← TermSize.new cols rows
    .ok (.resize size)
  | .close => .ok .close

def parse (line : List Char) : Except ProtocolError ClientMessage :=
  if MAX_LINE_BYTES < (Utf8.encode line).length then .error (.lineTooLong (Utf8.encode line).length)
  else
    match (read representable (trimReturns line)).bind deserialize with
    | none => .error (.malformed (explain (trimReturns line)))
    | some raw => validate raw

end Depsis.Console.Protocol

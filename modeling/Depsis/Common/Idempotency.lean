import Depsis.Foundation.Table
import Depsis.Foundation.Machine
import Depsis.Foundation.JsString

/-! `Idempotency-Key`: a row for each key of a user at an endpoint, put in when a request claims the key, completed
with the answer of its handler, given back when the handler throws and swept when it is a day old. The claim, the
completion and the release are statements of their own around the handler, and the process may stop between them.
-/
namespace Depsis.Common

open Depsis.Foundation

structure Hashing (Value : Type) where
  upper : String → String
  stringify : Value → String
  sha256 : String → String

structure Request (Value : Type) where
  organization : String
  user : String
  key : String
  method : String
  path : String
  query : String
  body : Option Value
deriving DecidableEq

structure Scope where
  organization : String
  user : String
  endpoint : String
  key : String
deriving DecidableEq

inductive Header where
  | text (value : String)
  | number (value : Nat)
  | list (values : List String)

structure Response (Value : Type) where
  status : Nat
  body : Option Value
  headers : List (String × Header)

structure Stored (Value : Type) where
  status : Nat
  body : Option Value
  headers : List (String × String)
deriving DecidableEq

def replayedHeaders : List String := ["location","upload-offset","upload-expires","etag"]

def recordedHeaders (headers : List (String × Header)) : List (String × String) :=
  replayedHeaders.filterMap fun name =>
    match headers.lookup name with
    | some (.text value) => some (name,value)
    | some (.number value) => some (name,toString value)
    | _ => none

variable {Value : Type}

def Response.recorded (response : Response Value) : Stored Value :=
  ⟨response.status,response.body,recordedHeaders response.headers⟩

/-- A row of `idempotency_keys`; `status`, `body` and `headers` come and go together. `holder` is the request that put
it in. -/
structure Row (Value : Type) where
  fingerprint : String
  answer : Option (Stored Value)
  createdAt : Nat
  holder : Nat

inductive Claim (Value : Type) where
  | claimed
  | replay (stored : Stored Value)
  | reused
  | inFlight
deriving DecidableEq

inductive Stage (Value : Type) where
  | sweeping
  | claiming
  | reading
  | running
  | completing (stored : Stored Value)
  | releasing
deriving DecidableEq

structure Call (Value : Type) where
  request : Request Value
  since : Nat
  stage : Stage Value

structure Run (Value : Type) where
  ticket : Nat
  request : Request Value
  createdAt : Nat
  started : Nat

structure State (Value : Type) where
  now : Nat
  rows : Table Scope (Row Value)
  sweptAt : Table String Nat
  calls : Table Nat (Call Value)
  asked : List (Request Value)
  runs : List (Run Value)
  threw : List Nat
  returned : List (Nat × Response Value)
  replays : List (Request Value × Stored Value)

inductive Event (Value : Type) where
  | tick (later : Nat)
  | arrives (raw : Option String) (request : Request Value)
  | sweeps (ticket began : Nat) (gone : List Scope)
  | sweepFails (ticket : Nat)
  | inserts (ticket began : Nat)
  | insertLost (ticket began : Nat)
  | reads (ticket : Nat)
  | claimFails (ticket : Nat)
  | returns (ticket : Nat) (response : Response Value)
  | throws (ticket : Nat)
  | written (ticket : Nat)
  | unwritten (ticket : Nat)
  | crash

def hour : Nat := 60 * 60 * 1000

def window : Nat := 24 * hour

def batch : Nat := 1000

def trim (text : String) : List Char :=
  ((text.toList.dropWhile JsString.isSpace).reverse.dropWhile JsString.isSpace).reverse

inductive Admission where
  | passes
  | refused
  | keyed (key : String)
deriving DecidableEq

def admission (raw : Option String) : Admission :=
  let key := String.ofList ((raw.map trim).getD [])
  if key = "" then .passes
  else if 255 < (JsString.encode key).length then .refused
  else .keyed key

section

variable (hashing : Hashing Value)

def fingerprint (method url : String) (body : Option Value) : String :=
  hashing.sha256 (hashing.upper method ++ "\x00" ++ url ++ "\x00" ++ (body.map hashing.stringify).getD "")

def Request.endpoint (request : Request Value) : String := hashing.upper request.method ++ " " ++ request.path

def Request.scope (request : Request Value) : Scope :=
  ⟨request.organization,request.user,request.endpoint hashing,request.key⟩

def Request.fingerprint (request : Request Value) : String :=
  Common.fingerprint hashing request.method request.path request.body

def judge (row : Option (Row Value)) (fingerprint : String) : Claim Value :=
  match row with
  | none => .inFlight
  | some row =>
    if row.fingerprint ≠ fingerprint then .reused
    else
      match row.answer with
      | none => .inFlight
      | some stored => .replay stored

variable (state : State Value)

def State.continues (ticket : Nat) (call : Call Value) : State Value := { state with calls := state.calls.insert ticket call }

def State.ends (ticket : Nat) : State Value := { state with calls := state.calls.erase ticket }

def State.claim (request : Request Value) : Claim Value :=
  match state.rows.lookup (request.scope hashing) with
  | none => .claimed
  | some row => judge (some row) (request.fingerprint hashing)

def State.sweepDue (organization : String) : Bool :=
  (state.sweptAt.lookup organization).all (fun last => hour ≤ state.now - last)

def State.arrive (request : Request Value) : State Value :=
  let due := state.sweepDue request.organization
  { state with
    asked := state.asked ++ [request]
    sweptAt := if due then state.sweptAt.insert request.organization state.now else state.sweptAt
    calls := state.calls.insert state.asked.length ⟨request,state.now,if due then .sweeping else .claiming⟩ }

def State.expired (organization : String) (time : Nat) : List Scope :=
  (state.rows.rows.filter (fun row => row.1.organization = organization ∧ row.2.createdAt + window < time)).map Prod.fst

/-- The DELETE of `purgeExpired` takes any of the expired rows out, up to its limit. -/
def State.sweepable (organization : String) (time : Nat) (gone : List Scope) : Bool :=
  gone.all (fun scope => (state.expired organization time).contains scope) && decide gone.Nodup && decide (gone.length ≤ batch) &&
    (decide (gone.length = batch) || (state.expired organization time).all (fun scope => gone.contains scope))

def State.sweep (gone : List Scope) : State Value :=
  { state with rows := state.rows.retain (fun scope _ => !gone.contains scope) }

def State.putIn (ticket began : Nat) (request : Request Value) : State Value :=
  { state with rows := state.rows.insert (request.scope hashing) ⟨request.fingerprint hashing,none,began,ticket⟩ }

def State.starts (ticket began : Nat) (request : Request Value) : State Value :=
  { state with runs := state.runs ++ [Run.mk ticket request began state.now] }

def State.complete (scope : Scope) (stored : Stored Value) : State Value :=
  match state.rows.lookup scope with
  | none => state
  | some row => { state with rows := state.rows.insert scope { row with answer := some stored } }

def State.release (scope : Scope) : State Value :=
  match state.rows.lookup scope with
  | none => state
  | some row => if row.answer = none then { state with rows := state.rows.erase scope } else state

def Call.moved (call : Call Value) (stage : Stage Value) : Call Value := { call with stage := stage }

def State.timely (call : Call Value) (began : Nat) : Bool := decide (call.since ≤ began) && decide (began ≤ state.now)

end

variable [DecidableEq Value] (hashing : Hashing Value) (state : State Value)

def step : Event Value → Option (State Value)
  | .tick later => if state.now ≤ later then some { state with now := later } else none
  | .arrives raw request => if admission raw = .keyed request.key then some (state.arrive request) else none
  | .sweeps ticket began gone =>
    (state.calls.lookup ticket).bind fun call =>
      if call.stage = .sweeping ∧ state.timely call began ∧ state.sweepable call.request.organization began gone then
        some ((state.sweep gone).continues ticket (call.moved .claiming))
      else none
  | .sweepFails ticket =>
    (state.calls.lookup ticket).bind fun call =>
      if call.stage = .sweeping then some (state.continues ticket (call.moved .claiming)) else none
  | .inserts ticket began =>
    (state.calls.lookup ticket).bind fun call =>
      if call.stage = .claiming ∧ state.timely call began then
        match state.rows.lookup (call.request.scope hashing) with
        | some _ => some (state.continues ticket (call.moved .reading))
        | none =>
          some (((state.putIn hashing ticket began call.request).starts ticket began call.request).continues ticket (call.moved .running))
      else none
  | .insertLost ticket began =>
    (state.calls.lookup ticket).bind fun call =>
      if call.stage = .claiming ∧ state.timely call began ∧ state.rows.lookup (call.request.scope hashing) = none then
        some ((state.putIn hashing ticket began call.request).ends ticket)
      else none
  | .reads ticket =>
    (state.calls.lookup ticket).bind fun call =>
      if call.stage = .reading then
        match judge (state.rows.lookup (call.request.scope hashing)) (call.request.fingerprint hashing) with
        | .replay stored => some ({ state with replays := state.replays ++ [(call.request,stored)] }.ends ticket)
        | _ => some (state.ends ticket)
      else none
  | .claimFails ticket =>
    (state.calls.lookup ticket).bind fun call =>
      if call.stage = .claiming ∨ call.stage = .reading then some (state.ends ticket) else none
  | .returns ticket response =>
    (state.calls.lookup ticket).bind fun call =>
      if call.stage = .running then
        some ({ state with returned := state.returned ++ [(ticket,response)] }.continues ticket (call.moved (.completing response.recorded)))
      else none
  | .throws ticket =>
    (state.calls.lookup ticket).bind fun call =>
      if call.stage = .running then
        some ({ state with threw := state.threw ++ [ticket] }.continues ticket (call.moved .releasing))
      else none
  | .written ticket =>
    (state.calls.lookup ticket).bind fun call =>
      match call.stage with
      | .completing stored => some ((state.complete (call.request.scope hashing) stored).ends ticket)
      | .releasing => some ((state.release (call.request.scope hashing)).ends ticket)
      | _ => none
  | .unwritten ticket =>
    (state.calls.lookup ticket).bind fun call =>
      match call.stage with
      | .completing _ => some (state.ends ticket)
      | .releasing => some (state.ends ticket)
      | _ => none
  | .crash => some { state with calls := ∅, sweptAt := ∅ }

/-- Each completion and each release takes effect, and on the row its own claim put in; the process stops while no row
is in progress; a claim's COMMIT is answered; and requests at one key with one fingerprint are the same. -/
def Event.spares : Event Value → Bool
  | .arrives _ request =>
    state.asked.all fun other =>
      !(decide (other.scope hashing = request.scope hashing) && decide (other.fingerprint hashing = request.fingerprint hashing)) ||
        decide (other = request)
  | .insertLost _ _ => false
  | .written ticket =>
    (state.calls.lookup ticket).all fun call =>
      (state.rows.lookup (call.request.scope hashing)).all (fun row => row.holder = ticket)
  | .unwritten ticket =>
    (state.calls.lookup ticket).all fun call =>
      (state.rows.lookup (call.request.scope hashing)).all (fun row => row.holder ≠ ticket)
  | .crash => state.rows.all (fun _ row => row.answer.isSome)
  | _ => true

def Call.running (call : Call Value) : Bool := decide (call.stage = .running)

def Call.holding (call : Call Value) : Bool :=
  match call.stage with
  | .running => true
  | .completing _ => true
  | .releasing => true
  | _ => false

def State.first (Value : Type) : State Value := ⟨0,∅,∅,∅,[],[],[],[],[]⟩

end Depsis.Common

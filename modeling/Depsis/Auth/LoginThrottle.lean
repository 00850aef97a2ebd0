import Depsis.Foundation.Machine
import Depsis.Foundation.Ranks
import Depsis.Foundation.Tally
import Mathlib.Data.Int.Order.Basic

/-! The login throttle: logins and proofs of a password count the failures of an account and an
address, compare, and record what came of it. Every statement of a call is a step of its own.
-/
namespace Depsis.Auth.Throttle
open Depsis.Foundation

def SECOND : Int := 1000000

def WINDOW : Int := 15 * 60 * SECOND

def REFUSE_AFTER : Nat := 10

structure Pair where
  account : String
  address : String
deriving DecidableEq

structure Row where
  pair : Pair
  succeeded : Bool
  attemptedAt : Int

def failures (rows : List Row) (pair : Pair) : List Int :=
  (rows.filter (fun row => row.pair = pair && !row.succeeded)).map Row.attemptedAt

def inWindow (now : Int) (time : Int) : Bool := decide (now - WINDOW < time)

def recentFailures (rows : List Row) (pair : Pair) (now : Int) : Nat := (failures rows pair).countP (inWindow now)

def ceilSeconds (duration : Int) : Int := (duration + (SECOND - 1)) / SECOND

def atLeastOne (seconds : Int) : Int := if seconds < 1 then 1 else seconds

def retryAfterSeconds (rows : List Row) (pair : Pair) (now : Int) : Int :=
  match (Ranks.descending ((failures rows pair).filter (inWindow now)))[REFUSE_AFTER - 1]? with
  | none => atLeastOne 0
  | some attemptedAt => atLeastOne (ceilSeconds (attemptedAt + WINDOW - now))

def Refuses (rows : List Row) (pair : Pair) (now : Int) : Prop := REFUSE_AFTER ≤ recentFailures rows pair now

instance (rows : List Row) (pair : Pair) (now : Int) : Decidable (Refuses rows pair now) :=
  inferInstanceAs (Decidable (REFUSE_AFTER ≤ recentFailures rows pair now))

inductive Call where
  | count (pair : Pair)
  | refuse (pair : Pair)
  | compare (pair : Pair)
  | record (pair : Pair) (succeeded : Bool)
deriving DecidableEq

def Call.pair : Call → Pair
  | .count pair => pair
  | .refuse pair => pair
  | .compare pair => pair
  | .record pair _ => pair

structure Refusal where
  pair : Pair
  answeredAt : Int
  seconds : Int
  failures : List Int

structure State where
  rows : List Row
  calls : Table Nat Call
  now : Int
  compared : List (Pair × Int)
  refused : List Refusal

inductive Event where
  | passes (time : Nat)
  | asks (call : Nat) (pair : Pair)
  | goes (call : Nat) (right : Bool)
  | fails (call : Nat)

section

variable (state : State)

def State.continues (call : Nat) (next : Call) : State := { state with calls := state.calls.insert call next }

def State.ends (call : Nat) : State := { state with calls := state.calls.erase call }

def State.go (call : Nat) (right : Bool) : Call → State
  | .count pair =>
    if Refuses state.rows pair state.now then state.continues call (.refuse pair) else state.continues call (.compare pair)
  | .refuse pair =>
    ({ state with refused := state.refused ++
        [⟨pair,state.now,retryAfterSeconds state.rows pair state.now,failures state.rows pair⟩] } : State).ends call
  | .compare pair =>
    ({ state with compared := if right then state.compared else state.compared ++ [(pair,state.now)] } : State).continues call
      (.record pair right)
  | .record pair succeeded => ({ state with rows := state.rows ++ [⟨pair,succeeded,state.now⟩] } : State).ends call

end

def step (state : State) : Event → Option State
  | .passes time => some { state with now := state.now + time }
  | .asks call pair =>
    if (state.calls.lookup call).isSome then none else some (state.continues call (.count pair))
  | .goes call right => (state.calls.lookup call).map (state.go call right)
  | .fails call => some (state.ends call)

def State.first (now : Int) : State := ⟨[],∅,now,[],[]⟩

def Call.unsettled : Call → Bool
  | .compare _ => true
  | .record _ succeeded => !succeeded
  | _ => false

/-- The failures in the window and the calls under way that may become failures are fewer than the limit where a
call is let through, and a wrong password that was compared is recorded.
-/
def Event.spares (pair : Pair) (state : State) : Event → Bool
  | .goes call _ =>
    match state.calls.lookup call with
    | some (.count asked) =>
      asked ≠ pair || decide (Refuses state.rows pair state.now) ||
        decide (recentFailures state.rows pair state.now + state.calls.tallyOf Call.pair Call.unsettled pair < REFUSE_AFTER)
    | _ => true
  | .fails call => state.calls.lookup call ≠ some (.record pair false)
  | _ => true

structure Bounds (pair : Pair) (state : State) : Prop where
  guesses : ∀ start : Int,
    state.compared.countP (fun wrong => wrong.1 = pair && decide (start < wrong.2 ∧ wrong.2 ≤ start + WINDOW)) ≤ REFUSE_AFTER
  waiting : ∀ refusal ∈ state.refused, refusal.pair = pair → failures state.rows pair = refusal.failures →
    ∀ later, refusal.answeredAt ≤ later →
      (later < refusal.answeredAt + refusal.seconds * SECOND - SECOND → Refuses state.rows pair later) ∧
      (refusal.answeredAt + refusal.seconds * SECOND ≤ later → ¬Refuses state.rows pair later)
  address : ∀ later, Refuses state.rows pair later ↔
    Refuses (state.rows.filter (fun row => row.pair.address = pair.address)) pair later

end Depsis.Auth.Throttle

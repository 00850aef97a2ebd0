import Depsis.Auth.SecondFactor
import Depsis.Foundation.Machine

/-! Password resets of one user: the tickets an administrator opens and the calls that redeem them. Every
statement of a call is a step of its own, and a call may fail before any of them. A ticket whose token is
unknown is no ticket here.
-/
namespace Depsis.Auth.Resets

open Depsis.Foundation

def MAX_ATTEMPTS : Nat := 6

structure Ticket where
  attempts : Nat
  consumed : Bool
  expired : Bool
  barred : Bool

inductive Call where
  | resolve (ticket : Nat) (submitted : List Char)
  | isEnrolled (ticket : Nat) (submitted : List Char)
  | verify (ticket : Nat) (compared : Bool) (check : Check)
  | recordAttempt (ticket : Nat) (compared : Bool)
  | consume (ticket : Nat)
  | setPasswordHash (ticket : Nat)

structure Write where
  ticket : Nat
  superseded : Bool
  barred : Bool
deriving DecidableEq

structure State where
  tickets : Table Nat Ticket
  disabled : Bool
  mfa : Mfa
  calls : Table Nat Call
  latest : Option Nat
  checked : List Nat
  accepted : List Nat
  writes : List Write

inductive Event where
  | opens (ticket : Nat)
  | expires (ticket : Nat)
  | disables (disabled : Bool)
  | redeems (call ticket : Nat) (submitted : List Char)
  | goes (call : Nat) (opens : Bool) (unixSeconds : Int)
  | fails (call : Nat)

section

variable (state : State)

def State.resolves (ticket : Nat) : Bool :=
  (state.tickets.lookup ticket).any (fun row =>
    !row.consumed && !row.expired && row.attempts < MAX_ATTEMPTS && !state.disabled)

def State.enrolled : Bool := state.mfa.row.any TotpRow.confirmed

def barred (tickets : Table Nat Ticket) (ticket : Nat) : Bool := (tickets.lookup ticket).any Ticket.barred

def State.continues (call : Nat) (next : Call) : State := { state with calls := state.calls.insert call next }

def State.ends (call : Nat) : State := { state with calls := state.calls.erase call }

def State.verify (crypto : Crypto) (call ticket : Nat) (compared opens : Bool) (unixSeconds : Int) (check : Check) : State :=
  let after := state.mfa.advance crypto opens unixSeconds check
  { state with
    mfa := after.1
    checked := if check.compares then state.checked ++ [ticket] else state.checked
    accepted := if after.2 = Check.ends true then state.accepted ++ [ticket] else state.accepted }.continues call
      (.verify ticket (compared || check.compares) after.2)

def State.recordAttempt (call ticket : Nat) : State :=
  match state.tickets.lookup ticket with
  | none => state.ends call
  | some row => { state with tickets := state.tickets.insert ticket { row with attempts := row.attempts + 1 } }.ends call

def State.consume (call ticket : Nat) : State :=
  match state.tickets.lookup ticket with
  | none => state.ends call
  | some row =>
    if row.consumed then state.ends call
    else { state with tickets := state.tickets.insert ticket { row with consumed := true } }.continues call (.setPasswordHash ticket)

def State.setPasswordHash (call ticket : Nat) : State :=
  { state with writes := state.writes ++ [Write.mk ticket (state.latest != some ticket) (barred state.tickets ticket)] }.ends call

def State.go (crypto : Crypto) (call : Nat) (opens : Bool) (unixSeconds : Int) : Call → State
  | .resolve ticket submitted =>
    if state.resolves ticket then state.continues call (.isEnrolled ticket submitted) else state.ends call
  | .isEnrolled ticket submitted =>
    if !state.enrolled then state.continues call (.consume ticket)
    else if submitted = [] then state.continues call (.recordAttempt ticket false)
    else state.continues call (.verify ticket false (verifySecondFactor crypto submitted))
  | .verify ticket _ (.ends true) => state.continues call (.consume ticket)
  | .verify ticket compared (.ends false) => state.continues call (.recordAttempt ticket compared)
  | .verify ticket compared check => state.verify crypto call ticket compared opens unixSeconds check
  | .recordAttempt ticket _ => state.recordAttempt call ticket
  | .consume ticket => state.consume call ticket
  | .setPasswordHash ticket => state.setPasswordHash call ticket

end

def step (crypto : Crypto) (state : State) : Event → Option State
  | .opens ticket =>
    -- One transaction: any earlier ticket of the user is consumed first.
    if (state.tickets.lookup ticket).isSome then none
    else some { state with
      tickets := (state.tickets.mapRows (fun _ row => { row with consumed := true })).insert ticket ⟨0,false,false,false⟩
      latest := some ticket }
  | .expires ticket => some { state with
      tickets := state.tickets.mapRows (fun id row => if id = ticket then { row with expired := true } else row) }
  | .disables disabled => some { state with
      disabled := disabled
      tickets := state.tickets.mapRows (fun _ row => { row with barred := row.barred || disabled }) }
  | .redeems call ticket submitted =>
    if (state.calls.lookup call).isSome then none else some (state.continues call (.resolve ticket submitted))
  | .goes call opens unixSeconds => (state.calls.lookup call).map (state.go crypto call opens unixSeconds)
  | .fails call => some (state.ends call)

def State.first (mfa : Mfa) : State := ⟨∅,false,mfa,∅,none,[],[],[]⟩

end Depsis.Auth.Resets

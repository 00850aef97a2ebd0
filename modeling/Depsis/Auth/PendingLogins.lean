import Depsis.Auth.SecondFactor
import Depsis.Foundation.Machine

/-! The second step of a login: the challenges of one user and the calls that answer them. Every
transaction of a call is a step of its own, and a call may fail before any of them.
-/
namespace Depsis.Auth.Pending

open Depsis.Foundation

def MAX_ATTEMPTS : Nat := 6

structure Challenge where
  attempts : Nat
  consumed : Bool
  expired : Bool

inductive Call where
  | resolve (challenge : Nat) (submitted : List Char)
  | countAttempt (challenge : Nat) (submitted : List Char)
  | verify (challenge : Nat) (check : Check)
  | consume (challenge : Nat)
  | issue (challenge : Nat)

structure State where
  challenges : Table Nat Challenge
  disabled : Bool
  mfa : Mfa
  calls : Table Nat Call
  issued : List Nat
  checked : List Nat
  burnt : List Int
  spent : List String

inductive Event where
  /-- `PendingLoginService.create`, after a password was right. -/
  | creates (challenge : Nat)
  | expires (challenge : Nat)
  | disables (disabled : Bool)
  | answers (call challenge : Nat) (submitted : List Char)
  | goes (call : Nat) (opens : Bool) (unixSeconds : Int)
  | fails (call : Nat)

section

variable (state : State)

def State.resolves (challenge : Nat) : Bool :=
  (state.challenges.lookup challenge).any (fun row =>
    !row.consumed && !row.expired && row.attempts < MAX_ATTEMPTS && !state.disabled)

def State.continues (call : Nat) (next : Call) : State := { state with calls := state.calls.insert call next }

def State.ends (call : Nat) : State := { state with calls := state.calls.erase call }

def State.countAttempt (call challenge : Nat) (next : Call) : State :=
  match state.challenges.lookup challenge with
  | none => state.continues call next
  | some row =>
    { state with challenges := state.challenges.insert challenge { row with attempts := row.attempts + 1 } }.continues call next

def State.verify (crypto : Crypto) (call challenge : Nat) (opens : Bool) (unixSeconds : Int) (check : Check) : State :=
  let after := state.mfa.advance crypto opens unixSeconds check
  { state with
    mfa := after.1
    checked := if check.compares then state.checked ++ [challenge] else state.checked
    burnt := if after.2 = Check.ends true then state.burnt ++ check.step else state.burnt
    spent := if after.2 = Check.ends true then state.spent ++ check.code else state.spent }.continues call (.verify challenge after.2)

def State.consume (call challenge : Nat) : State :=
  match state.challenges.lookup challenge with
  | none => state.ends call
  | some row =>
    if row.consumed then state.ends call
    else { state with challenges := state.challenges.insert challenge { row with consumed := true } }.continues call (.issue challenge)

def State.go (crypto : Crypto) (call : Nat) (opens : Bool) (unixSeconds : Int) : Call → State
  | .resolve challenge submitted =>
    if state.resolves challenge then state.continues call (.countAttempt challenge submitted) else state.ends call
  | .countAttempt challenge submitted => state.countAttempt call challenge (.verify challenge (verifySecondFactor crypto submitted))
  | .verify challenge (.ends true) => state.continues call (.consume challenge)
  | .verify _ (.ends false) => state.ends call
  | .verify challenge check => state.verify crypto call challenge opens unixSeconds check
  | .consume challenge => state.consume call challenge
  | .issue challenge => { state with issued := state.issued ++ [challenge] }.ends call

end

def step (crypto : Crypto) (state : State) : Event → Option State
  | .creates challenge =>
    -- Any earlier challenge of the user is consumed first.
    if (state.challenges.lookup challenge).isSome then none
    else some { state with
      challenges := (state.challenges.mapRows (fun _ row => { row with consumed := true })).insert challenge ⟨0,false,false⟩ }
  | .expires challenge => some { state with
      challenges := state.challenges.mapRows (fun id row => if id = challenge then { row with expired := true } else row) }
  | .disables disabled => some { state with disabled := disabled }
  | .answers call challenge submitted =>
    if (state.calls.lookup call).isSome then none else some (state.continues call (.resolve challenge submitted))
  | .goes call opens unixSeconds => (state.calls.lookup call).map (state.go crypto call opens unixSeconds)
  | .fails call => some (state.ends call)

def State.first (mfa : Mfa) : State := ⟨∅,false,mfa,∅,[],[],[],[]⟩

end Depsis.Auth.Pending

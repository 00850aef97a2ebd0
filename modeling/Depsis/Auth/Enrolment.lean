import Depsis.Auth.SecondFactor
import Depsis.Foundation.Machine

/-! Enrolling a second factor: `confirmEnrolment` reads the secret and checks the code in one transaction
and confirms in another, while other requests of the same user write secrets, use codes and replace them.
-/
namespace Depsis.Auth.Enrolment

open Depsis.Foundation

inductive Call where
  | confirmRead (code : List Char)
  | confirmReseal (row : TotpRow) (code : List Char)
  | confirm (row : TotpRow) (used : Int)
  | verify (check : Check)

structure State where
  mfa : Mfa
  calls : Table Nat Call
  secrets : List (List UInt8)
  proved : List Nat
  returned : List String
  spent : List String

inductive Event where
  | begins (secret : List UInt8)
  | regenerates (hashes : List String)
  | confirms (call : Nat) (code : List Char)
  | verifies (call : Nat) (submitted : List Char)
  | goes (call : Nat) (opens : Bool) (unixSeconds : Int) (hashes : List String)
  | fails (call : Nat)

section

variable (state : State)

def State.continues (call : Nat) (next : Call) : State := { state with calls := state.calls.insert call next }

def State.ends (call : Nat) : State := { state with calls := state.calls.erase call }

def State.proves (crypto : Crypto) (call : Nat) (row : TotpRow) (code : List Char) (unixSeconds : Int) : State :=
  match verifyTotp crypto row.secret code unixSeconds with
  | none => state.ends call
  | some step => { state with proved := state.proved ++ [row.writing] }.continues call (.confirm row (absoluteStep unixSeconds step))

def State.confirm (call : Nat) (used : Int) (hashes : List String) : State :=
  match state.mfa.confirm used hashes with
  | none => state.ends call
  | some mfa => { state with mfa := mfa, returned := hashes, spent := [] }.ends call

def State.verify (crypto : Crypto) (call : Nat) (opens : Bool) (unixSeconds : Int) (check : Check) : State :=
  let after := state.mfa.advance crypto opens unixSeconds check
  { state with
    mfa := after.1
    spent := if after.2 = Check.ends true then state.spent ++ check.code else state.spent }.continues call (.verify after.2)

def State.go (crypto : Crypto) (call : Nat) (opens : Bool) (unixSeconds : Int) (hashes : List String) : Call → State
  | .confirmRead code =>
    match state.mfa.read crypto false opens with
    | none => state.ends call
    | some (row,true) => state.continues call (.confirmReseal row code)
    | some (row,false) => state.proves crypto call row code unixSeconds
  | .confirmReseal row code => { state with mfa := state.mfa.reseal row }.proves crypto call row code unixSeconds
  | .confirm _ used => state.confirm call used hashes
  | .verify (.ends _) => state.ends call
  | .verify check => state.verify crypto call opens unixSeconds check

end

def step (crypto : Crypto) (state : State) : Event → Option State
  | .begins secret =>
    -- Without a key nothing is begun.
    if crypto.keyed then
      some { state with mfa := state.mfa.begin secret state.secrets.length, secrets := state.secrets ++ [secret] }
    else some state
  | .regenerates hashes =>
    match state.mfa.replaceCodes hashes with
    | none => some state
    | some mfa => some { state with mfa := mfa, returned := hashes, spent := [] }
  | .confirms call code =>
    if (state.calls.lookup call).isSome then none else some (state.continues call (.confirmRead code))
  | .verifies call submitted =>
    if (state.calls.lookup call).isSome then none else some (state.continues call (.verify (verifySecondFactor crypto submitted)))
  | .goes call opens unixSeconds hashes => (state.calls.lookup call).map (state.go crypto call opens unixSeconds hashes)
  | .fails call => some (state.ends call)

def State.first (secret : List UInt8) (row : Option TotpRow) (hashes : List String) : State where
  mfa := ⟨row.map (fun row => { row with secret := secret, writing := 0 }),(∅ : Table String Bool).fill (hashes.map (·,false))⟩
  calls := ∅
  secrets := [secret]
  proved := [0]
  returned := hashes
  spent := []

end Depsis.Auth.Enrolment

import Depsis.Auth.PendingLogins

/-! The sessions and the password of one user. Logins compare the password in one step and issue the session
in a later one, directly or behind a second factor; a change and a reset write a new password, revoke every
session, and a change then takes back the revocation of the session it came from.
-/
namespace Depsis.Auth.Passwords

open Depsis.Foundation

structure Session where
  version : Nat
  revoked : Bool
  barred : Bool
deriving DecidableEq

structure Replaced where
  version : Nat
  own : Option Nat
deriving DecidableEq

inductive Call where
  | findUser
  | verifyPassword (version : Nat)
  | isEnrolled (version : Nat)
  | createPending (version : Nat)
  | issue (version : Nat)
  | reauth (own : Nat)
  | updatePassword (own : Nat)
  | revokeAllForUser (own version : Nat)
  | restore (own : Nat)
  | setPasswordHash
  | revokeAfterReset (version : Nat)

structure State where
  logins : Pending.State
  obtained : Table Nat Nat
  version : Nat
  sessions : Table Nat Session
  calls : Table Nat Call
  past : List Replaced

inductive Event where
  | logsIn (call : Nat)
  | changes (call own : Nat)
  | resets (call : Nat)
  | revokes (session : Nat)
  /-- `revokeAllForUser` for any other reason, of the owner's or of an administrator. -/
  | revokesAll
  /-- The next statement of a request: whether a password compared is right, and the id of the row it inserts. -/
  | goes (call : Nat) (right : Bool) (id : Nat)
  | fails (call : Nat)
  | second (event : Pending.Event) (id : Nat)

section

variable (state : State)

def State.continues (call : Nat) (next : Call) : State := { state with calls := state.calls.insert call next }

def State.ends (call : Nat) : State := { state with calls := state.calls.erase call }

def State.enrolled : Bool := state.logins.mfa.row.any TotpRow.confirmed

def State.issue (id version : Nat) : Option State :=
  if (state.sessions.lookup id).isSome then none
  else some { state with sessions := state.sessions.insert id ⟨version,false,false⟩ }

def State.revokeAll (own : Option Nat) : State :=
  { state with sessions := state.sessions.mapRows (fun id row =>
      { row with revoked := true, barred := row.barred || own != some id }) }

def State.restore (own : Nat) : State :=
  { state with sessions := state.sessions.mapRows (fun id row => if id = own then { row with revoked := false } else row) }

def State.revoke (session : Nat) : State :=
  { state with sessions := state.sessions.mapRows (fun id row =>
      if id = session && !row.revoked then { row with revoked := true, barred := true } else row) }

def State.write : State := { state with version := state.version + 1 }

def State.replaced (version : Nat) (own : Option Nat) : State := { state with past := state.past ++ [⟨version,own⟩] }

def State.go (crypto : Crypto) (call : Nat) (right : Bool) (id : Nat) : Call → Option State
  | .findUser => some (if state.logins.disabled then state.ends call else state.continues call (.verifyPassword state.version))
  | .verifyPassword version => some (if right then state.continues call (.isEnrolled version) else state.ends call)
  | .isEnrolled version => some (state.continues call (if state.enrolled then .createPending version else .issue version))
  | .createPending version =>
    (Pending.step crypto state.logins (.creates id)).map (fun logins =>
      { state with logins := logins, obtained := state.obtained.insert id version }.ends call)
  | .issue version => (state.ends call).issue id version
  | .reauth own => some (if right then state.continues call (.updatePassword own) else state.ends call)
  | .updatePassword own => some (state.write.continues call (.revokeAllForUser own (state.version + 1)))
  | .revokeAllForUser own version => some (((state.revokeAll (some own)).replaced version (some own)).continues call (.restore own))
  | .restore own => some ((state.restore own).ends call)
  | .setPasswordHash => some (state.write.continues call (.revokeAfterReset (state.version + 1)))
  | .revokeAfterReset version => some (((state.revokeAll none).replaced version none).ends call)

def State.issuing : Pending.Event → Option Nat
  | .goes call _ _ =>
    match state.logins.calls.lookup call with
    | some (.issue challenge) => some challenge
    | _ => none
  | _ => none

def State.behind (challenge : Nat) : Nat := (state.obtained.lookup challenge).getD 0

def State.second (crypto : Crypto) (event : Pending.Event) (id : Nat) : Option State :=
  match Pending.step crypto state.logins event with
  | none => none
  | some logins =>
    match state.issuing event with
    | none => some { state with logins := logins }
    | some challenge => { state with logins := logins }.issue id (state.behind challenge)

end

def step (crypto : Crypto) (state : State) : Event → Option State
  | .logsIn call => if (state.calls.lookup call).isSome then none else some (state.continues call .findUser)
  | .changes call own =>
    if (state.calls.lookup call).isSome || !(state.sessions.lookup own).any (fun row => !row.revoked) then none
    else some (state.continues call (.reauth own))
  | .resets call => if (state.calls.lookup call).isSome then none else some (state.continues call .setPasswordHash)
  | .revokes session => some (state.revoke session)
  | .revokesAll => some (state.revokeAll none)
  | .goes call right id => (state.calls.lookup call).bind (state.go crypto call right id)
  | .fails call => some (state.ends call)
  | .second event id =>
    -- A challenge is created by a login only.
    match event with
    | .creates _ => none
    | event => state.second crypto event id

def State.first (mfa : Mfa) : State := ⟨Pending.State.first mfa,∅,0,∅,∅,[]⟩

end Depsis.Auth.Passwords

import Depsis.Foundation.Table
import Depsis.Foundation.Machine

/-! The devices on a network the appliance controls: what the owner asks for, the rounds that let new devices in
by themselves, and renaming. Reading the members, reading the records, the controller call and the record write
are steps of their own, and any of them may fail.
-/
namespace Depsis.Remote

open Depsis.Foundation

structure ControllerMember where
  authorized : Bool
  label : String

structure MemberRow where
  label : Option String
  authorizedBy : Option String
  authorizedAt : Option Int
  deauthorizedBy : Option String
  deauthorizedAt : Option Int

def removedByOwner (record : Option MemberRow) : Bool :=
  match record with
  | none => false
  | some record =>
    match record.deauthorizedAt,record.authorizedAt with
    | none,_ => false
    | some _,none => true
    | some deauthorized,some authorized => authorized ≤ deauthorized

inductive Call where
  | set (userId member : String) (authorized : Bool) (label : Option String)
  | record (userId member : String) (authorized : Bool) (label : Option String)
  | members
  | records (found : List String)
  | authorize (todo : List String)
  | recordRound (member : String) (rest : List String)
  | current (member label : String)
  | rename (member : String) (authorized : Bool) (label : String)
  | recordLabel (member label : String)

/-- A member authorized at the controller by a round or by renaming; whether against the owner's removal. -/
structure Letting where
  member : String
  against : Bool
deriving DecidableEq

structure State where
  founder : String
  controller : Table String ControllerMember
  records : Table String MemberRow
  calls : Table Nat Call
  /-- What the owner's last call of the controller was about a member, and the last decision answered. -/
  asked : Table String Bool
  decided : Table String Bool
  removed : List String
  lettings : List Letting

inductive Event where
  | joins (member : String)
  | sets (call : Nat) (userId member : String) (authorized : Bool) (label : Option String)
  | starts (call : Nat)
  | renames (call : Nat) (member label : String)
  | goes (call : Nat) (now : Int)
  | fails (call : Nat)

section

variable (state : State)

def State.continues (call : Nat) (next : Call) : State := { state with calls := state.calls.insert call next }

def State.ends (call : Nat) : State := { state with calls := state.calls.erase call }

/-- `zerotier_set_member_authorized`; a label that is not given stays, and a member that is not there is made. -/
def State.setAuthorized (member : String) (authorized : Bool) (label : Option String) : State :=
  let before := ((state.controller.lookup member).map ControllerMember.label).getD ""
  { state with controller := state.controller.insert member ⟨authorized,label.getD before⟩ }

def recorded (before : Option MemberRow) (userId : String) (authorized : Bool) (label : Option String) (now : Int) : MemberRow :=
  match before with
  | none =>
    if authorized then ⟨label,some userId,some now,none,none⟩ else ⟨label,none,none,some userId,some now⟩
  | some row =>
    let labelled := { row with label := label.or row.label }
    if authorized then { labelled with authorizedBy := some userId, authorizedAt := some now }
    else { labelled with deauthorizedBy := some userId, deauthorizedAt := some now }

def State.record (userId member : String) (authorized : Bool) (label : Option String) (now : Int) : State :=
  { state with records := state.records.insert member (recorded (state.records.lookup member) userId authorized label now) }

def relabelled (before : Option MemberRow) (label : String) : MemberRow :=
  match before with
  | none => ⟨some label,none,none,none,none⟩
  | some row => { row with label := some label }

def State.recordLabel (member label : String) : State :=
  { state with records := state.records.insert member (relabelled (state.records.lookup member) label) }

def State.asks (member : String) (authorized : Bool) : State :=
  { state with
    asked := state.asked.insert member authorized
    removed := if authorized then state.removed.filter (· ≠ member) else state.removed }

def State.decides (member : String) (authorized : Bool) : State :=
  { state with
    decided := state.decided.insert member authorized
    removed := if authorized then state.removed.filter (· ≠ member)
      else if state.asked.lookup member = some false then member :: state.removed else state.removed }

def State.lets (member : String) : State :=
  { state with lettings := state.lettings ++ [Letting.mk member (state.removed.contains member)] }

def State.unauthorized : List String := (state.controller.rows.filter (fun row => !row.2.authorized)).map Prod.fst

def State.go (call : Nat) (now : Int) : Call → State
  | .set userId member authorized label =>
    ((state.setAuthorized member authorized label).asks member authorized).continues call (.record userId member authorized label)
  | .record userId member authorized label => ((state.record userId member authorized label now).decides member authorized).ends call
  | .members => state.continues call (.records state.unauthorized)
  | .records found => state.continues call (.authorize (found.filter (fun member => !removedByOwner (state.records.lookup member))))
  | .authorize [] => state.ends call
  | .authorize (member::rest) => ((state.setAuthorized member true none).lets member).continues call (.recordRound member rest)
  | .recordRound member rest => (state.record state.founder member true none now).continues call (.authorize rest)
  | .current member label =>
    match state.controller.lookup member with
    | none => state.ends call
    | some row => state.continues call (.rename member row.authorized label)
  | .rename member authorized label =>
    let sent := state.setAuthorized member authorized (some label)
    (if authorized then sent.lets member else sent).continues call (.recordLabel member label)
  | .recordLabel member label => (state.recordLabel member label).ends call

def State.fail (call : Nat) : Call → State
  | .authorize (_::rest) => state.continues call (.authorize rest)
  | .recordRound _ rest => state.continues call (.authorize rest)
  | _ => state.ends call

end

def step (state : State) : Event → Option State
  | .joins member =>
    if (state.controller.lookup member).isSome then none
    else some { state with controller := state.controller.insert member ⟨false,""⟩ }
  | .sets call userId member authorized label =>
    if (state.calls.lookup call).isSome then none else some (state.continues call (.set userId member authorized label))
  | .starts call => if (state.calls.lookup call).isSome then none else some (state.continues call .members)
  | .renames call member label => if (state.calls.lookup call).isSome then none else some (state.continues call (.current member label))
  | .goes call now => (state.calls.lookup call).map (state.go call now)
  | .fails call => (state.calls.lookup call).map (state.fail call)

def State.first (founder : String) : State := ⟨founder,∅,∅,∅,∅,∅,[],[]⟩

end Depsis.Remote

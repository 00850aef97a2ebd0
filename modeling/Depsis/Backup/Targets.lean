import Depsis.Foundation.Table
import Depsis.Foundation.Machine

/-! The backup target of a device, the bases recorded for its shares, and what lies on each disk. A request and
a run is one step. A version stands for a file's bytes, and is never given twice.
-/
namespace Depsis.Backup.Targets

open Depsis.Foundation

abbrev Files := String → Option Nat

structure BackupTargetRow where
  pool : String
  label : String
  cadenceHours : Nat
  retainDays : Nat
  recoveryOnly : Bool
  deviceId : Option String
  enabled : Bool

structure Disk where
  files : String → Files
  ledger : Nat → String → Files

def Disk.empty : Disk := ⟨fun _ _ => none,fun _ _ _ => none⟩

structure State where
  row : Option BackupTargetRow
  bases : Table String Files
  live : String → Files
  disks : String → Disk
  clock : Nat
  replaced : String → String → Bool

inductive Ending where
  | completes
  | stops
  | drops
deriving DecidableEq

structure Turn where
  share : String
  reached : String → Bool
  ending : Ending

inductive Event where
  | prepares (pool label : String) (accepted : Bool)
  | adopts (pool label : String) (deviceId : Option String) (imported : Bool)
  | claims (opened : Bool)
  | releases (exported : Bool)
  | updates (cadenceHours retainDays : Option Nat) (label : Option String) (enabled : Option Bool)
  | runs (mounted : Bool) (today : Nat) (turns : List Turn)
  | purges (mounted : Bool) (today : Nat)
  | writes (share path : String)
  | deletes (share path : String)

def changes (base : Option Files) (live : Files) (path : String) : Bool :=
  match base with
  | none => (live path).isSome
  | some base => base path != live path

def Turn.handles (turn : Turn) (path : String) : Bool := turn.ending = .completes || turn.reached path

def Disk.bring (disk : Disk) (base : Option Files) (live : Files) (today : Nat) (turn : Turn) : Disk where
  files := fun share path =>
    if share = turn.share && turn.handles path && changes base live path then
      match live path with
      | some version => some version
      | none => if (disk.ledger today share path).isSome then disk.files share path else none
    else disk.files share path
  ledger := fun day share path =>
    if day = today && share = turn.share && turn.handles path && changes base live path && (live path).isNone &&
      (disk.ledger today share path).isNone then disk.files share path
    else disk.ledger day share path

section

variable (state : State)

def State.runShare (pool : String) (today : Nat) (turn : Turn) : State :=
  let base := state.bases.lookup turn.share
  let live := state.live turn.share
  let copied := { state with disks := Function.update state.disks pool ((state.disks pool).bring base live today turn) }
  match turn.ending with
  | .completes => { copied with
      bases := state.bases.insert turn.share live
      replaced := Function.update state.replaced turn.share (fun _ => false) }
  | .stops => { copied with
      replaced := Function.update state.replaced turn.share (fun path =>
        state.replaced turn.share path || turn.handles path && changes base live path) }
  | .drops => { copied with bases := state.bases.erase turn.share }

def State.runnable (mounted : Bool) : Option BackupTargetRow :=
  state.row.filter (fun row => row.enabled && mounted && !row.recoveryOnly)

def State.runOnce (mounted : Bool) (today : Nat) (turns : List Turn) : State :=
  match state.runnable mounted with
  | none => state
  | some row => turns.foldl (fun reached turn => reached.runShare row.pool today turn) state

def Disk.purge (disk : Disk) (cutoff : Nat) : Disk :=
  { disk with ledger := fun day => if day < cutoff then fun _ _ => none else disk.ledger day }

def State.purgeExpired (mounted : Bool) (today : Nat) : State :=
  match state.runnable mounted with
  | none => state
  | some row =>
    { state with disks := Function.update state.disks row.pool ((state.disks row.pool).purge (today - row.retainDays)) }

def State.prepare (pool label : String) (accepted : Bool) : State :=
  if !accepted then state
  else
    { state with
      disks := Function.update state.disks pool Disk.empty
      row := match state.row with
        | none => some ⟨pool,label,6,30,false,none,true⟩
        | some row => some { row with pool := pool, label := label } }

def State.adopt (pool label : String) (deviceId : Option String) (imported : Bool) : State :=
  if state.row.isSome || !imported then state
  else { state with row := some ⟨pool,label,6,30,true,deviceId,false⟩ }

def State.claim (opened : Bool) : State :=
  match state.row with
  | none => state
  | some row =>
    if !row.recoveryOnly || !opened then state
    else { state with row := some { row with recoveryOnly := false, enabled := true, deviceId := none } }

def State.release (exported : Bool) : State :=
  match state.row with
  | none => state
  | some row => if !row.recoveryOnly || !exported then state else { state with row := none }

def State.update (cadenceHours retainDays : Option Nat) (label : Option String) (enabled : Option Bool) : State :=
  match state.row with
  | none => state
  | some row =>
    if row.recoveryOnly && enabled = some true then state
    else if !cadenceHours.all (fun hours => 1 ≤ hours && hours ≤ 168) || !retainDays.all (fun days => 1 ≤ days && days ≤ 3650) then state
    else { state with row := some { row with
      cadenceHours := cadenceHours.getD row.cadenceHours
      retainDays := retainDays.getD row.retainDays
      label := label.getD row.label
      enabled := enabled.getD row.enabled } }

def State.changed (share path : String) (version : Option Nat) : State :=
  { state with live := Function.update state.live share (Function.update (state.live share) path version), clock := state.clock + 1 }

end

def step (state : State) : Event → Option State
  | .prepares pool label accepted => some (state.prepare pool label accepted)
  | .adopts pool label deviceId imported => some (state.adopt pool label deviceId imported)
  | .claims opened => some (state.claim opened)
  | .releases exported => some (state.release exported)
  | .updates cadenceHours retainDays label enabled => some (state.update cadenceHours retainDays label enabled)
  | .runs mounted today turns => some (state.runOnce mounted today turns)
  | .purges mounted today => some (state.purgeExpired mounted today)
  | .writes share path => some (state.changed share path (some state.clock))
  | .deletes share path => some (state.changed share path none)

def State.first (disks : String → Disk) : State := ⟨none,∅,fun _ _ => none,disks,0,fun _ _ => false⟩

end Depsis.Backup.Targets

import Depsis.Files.Indexer

/-! `IndexerService.reconcile`: a walk over the folders of a share that goes on where the
last one stopped. Every call of the agent may answer as it likes.
-/
namespace Depsis.Files.Indexer

open Depsis.Foundation

def BIN : List String := [BIN_DIR]

def BATCH : Nat := 500

def INTERVAL_MS : Int := 900000

/-- The listings a pass asks for: of the share's root before it begins, and in each turn
of a folder and of its counterpart in the bin.
-/
inductive Asking where
  | root
  | folder (turn : Nat)
  | bin (turn : Nat)

structure Surroundings where
  organizationId : String
  shareId : String
  fold : String → String
  server : Server
  clock : Nat → String → Int
  collate : String → String → Bool
  agent : Asking → List String → Nat → Option String → PageAnswer
  /-- What `report` answers: the lease is still held. -/
  lease : Nat → Bool
  started : Int

structure Pass where
  table : Index
  drawn : Nat
  result : ReconcileResult
  queue : List Folder
  seen : List String
  scannedIds : List String
  unreadable : Nat
  preloaded : Option Listing
  turn : Nat

inductive Ending where
  | through
  | leaseLost
  | threw (fault : Fault)
  | rootGone

def partsOf (path : String) : List String :=
  ((path.toList.splitOn '/').filter (fun part => part ≠ [])).map String.ofList

section

variable (env : Surroundings)

def spotOf (folder : Folder) : Spot := ⟨env.organizationId,env.shareId,folder⟩

def stalerFirst (first second : String × IndexRow) : Bool :=
  match first.2.scannedAt,second.2.scannedAt with
  | none,some _ => true
  | some _,none => false
  | none,none => env.collate first.2.path second.2.path
  | some earlier,some later => earlier < later || (earlier = later && env.collate first.2.path second.2.path)

def stalestFolders (table : Index) : List Folder :=
  let folders := table.rows.filter (fun (_,row) => row.organizationId = env.organizationId && row.shareId = env.shareId &&
    row.kind = .folder && row.trashedAt.isNone)
  (((env.server.arrange folders).mergeSort (stalerFirst env)).take BATCH).map (fun (id,row) => ⟨some id,partsOf row.path⟩)

def markScanned (table : Index) (ids : List String) (turn : Nat) : Index :=
  table.mapRows (fun id row => if row.organizationId = env.organizationId && ids.contains id then
    setUpdatedAt (env.clock turn id) {row with scannedAt := some (env.clock turn id)} else row)

def hasUnscanned (table : Index) : Bool :=
  table.any (fun _ row => row.organizationId = env.organizationId && row.shareId = env.shareId && row.kind = .folder &&
    row.trashedAt.isNone && match row.scannedAt with
      | none => true
      | some scanned => decide (scanned < env.started - INTERVAL_MS))

def binNames (turn : Nat) (components : List String) : List String :=
  match listing MAX_PAGES (env.agent (.bin turn) (BIN ++ components)) with
  | some (.entries entries _) => entries.map DirEntryInfo.name
  | _ => []

def inTheBin (turn : Nat) (components : List String) : Bool :=
  if components = [] then false
  else
    match listing MAX_PAGES (env.agent (.bin turn) (BIN ++ components)) with
    | some (.entries _ _) => true
    | _ => false

namespace Pass

def look (pass : Pass) (folder : Folder) : Option Listing × Pass :=
  match folder.id,pass.preloaded with
  | none,some ready => (some ready,{pass with preloaded := none})
  | _,_ => (listing MAX_PAGES (env.agent (.folder pass.turn) folder.components),pass)

def missing (pass : Pass) (folder : Folder) : Pass × Option Ending :=
  let counted := {pass with turn := pass.turn + 1, result := {pass.result with scanned := pass.result.scanned + 1}}
  match folder.id with
  | none => (counted,none)
  | some id =>
    if inTheBin env pass.turn folder.components then
      match sendSubtreeToTheBin {env.server with now := env.clock pass.turn} pass.table env.organizationId id with
      | .error fault => (counted,some (.threw fault))
      | .ok (table,count) =>
        ({counted with table := table, result := {counted.result with binned := counted.result.binned + count}},none)
    else
      match forget pass.table env.organizationId id with
      | .error fault => (counted,some (.threw fault))
      | .ok (table,count) =>
        ({counted with table := table, result := {counted.result with removed := counted.result.removed + count}},none)

def sightOf (pass : Pass) (folder : Folder) (truncated : Bool) : Sight :=
  ⟨spotOf env folder,truncated,binNames env pass.turn folder.components⟩

def read (pass : Pass) (folder : Folder) (entries : List DirEntryInfo) (truncated : Bool) : Pass × Option Ending :=
  let server := {env.server with now := env.clock pass.turn}
  let counted := {pass.result with
    scanned := pass.result.scanned + 1
    truncated := pass.result.truncated + if truncated then 1 else 0}
  let (state,fault) := compare env.fold server (pass.sightOf env folder truncated) entries pass.table pass.drawn counted
    (some pass.queue) (some pass.seen)
  ({pass with
    table := state.table
    drawn := state.drawn
    result := state.result
    queue := state.queue.getD []
    seen := state.seen.getD []
    scannedIds := pass.scannedIds ++ folder.id.toList
    turn := pass.turn + 1},fault.map Ending.threw)

def turnOver (pass : Pass) : Pass × Option Ending :=
  match pass.queue with
  | [] => (pass,some .through)
  | folder::rest =>
    if BATCH ≤ pass.result.scanned then (pass,some .through)
    else if !env.lease pass.turn then ({pass with queue := rest},some .leaseLost)
    else
      match look env {pass with queue := rest} folder with
      | (none,pass) => ({pass with unreadable := pass.unreadable + 1, turn := pass.turn + 1},none)
      | (some .gone,pass) => pass.missing env folder
      | (some (.entries entries truncated),pass) => pass.read env folder entries truncated

end Pass

def begin (table : Index) (drawn : Nat) : Pass × Option Ending :=
  let preloaded := listing MAX_PAGES (env.agent .root [])
  let stalest := stalestFolders env table
  (⟨table,drawn,⟨0,0,0,0,0,0,0⟩,⟨none,[]⟩::stalest,stalest.filterMap Folder.id,[],0,preloaded,0⟩,
    if preloaded = some .gone then some .rootGone else none)

def passAfter (table : Index) (drawn : Nat) : Nat → Pass × Option Ending
  | 0 => begin env table drawn
  | turns + 1 =>
    match passAfter table drawn turns with
    | (pass,some ending) => (pass,some ending)
    | (pass,none) => pass.turnOver env

/-- What a pass that ended leaves and comes back with: its result and whether there is more
to do, unless it throws.
-/
def finish (pass : Pass) : Ending → Index × Option (ReconcileResult × Bool)
  | .rootGone => (pass.table,none)
  | .threw _ => (pass.table,none)
  | .leaseLost => (markScanned env pass.table pass.scannedIds pass.turn,some (pass.result,true))
  | .through =>
    let marked := markScanned env pass.table pass.scannedIds pass.turn
    if pass.result.scanned = 0 ∧ 0 < pass.unreadable then (marked,none)
    else (marked,some (pass.result,hasUnscanned env marked))

/-- `reconcile`, if so many turns are enough for it to end. -/
def reconcile (table : Index) (drawn turns : Nat) : Option (Index × Option (ReconcileResult × Bool)) :=
  match passAfter env table drawn turns with
  | (pass,some ending) => some (finish env pass ending)
  | (_,none) => none

end

end Depsis.Files.Indexer

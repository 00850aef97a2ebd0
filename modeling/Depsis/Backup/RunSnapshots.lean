import Mathlib.Data.Finset.Card
import Depsis.Foundation.Machine

/-! The snapshots a backup run takes: each share's run takes one, sweeps the ones nobody
needs, and records its own as the base of the next run or destroys it. Runs go on side by
side, with every call of the agent and every transaction a step of its own.
-/
namespace Depsis.Backup.RunSnapshots

open Depsis.Foundation

def RUN_SNAPSHOT_PREFIX : String := "depsis-yedek-"

def isRunSnapshot (name : String) : Bool := RUN_SNAPSHOT_PREFIX.toList.isPrefixOf name.toList

def runSnapshot (now : Nat) : String := RUN_SNAPSHOT_PREFIX ++ toString now

structure ShareRow where
  id : String
  name : String
  dataset : String
deriving DecidableEq

structure Catalog where
  rows : List ShareRow
  distinct : (rows.map ShareRow.id).Nodup

structure Turn where
  share : ShareRow
  snapshot : String
  rest : List ShareRow

inductive Phase where
  | between (rest : List ShareRow)
  | created (turn : Turn)
  | based (turn : Turn) (base : Option String)
  | listed (turn : Turn) (base : Option String) (names : List String)
  | sweeping (turn : Turn) (base : Option String) (todo : List String)
  | recording (turn : Turn)
  | dropping (turn : Turn)
  | undoing (turn : Turn)

def Phase.turn : Phase → Option Turn
  | .between _ => none
  | .created turn | .based turn _ | .listed turn _ _ | .sweeping turn _ _ | .recording turn | .dropping turn
  | .undoing turn => some turn

inductive Outcome where
  | done
  | limit
  | unusable

structure State where
  snapshots : String → Finset String
  bases : String → Option String
  runs : String → Option Phase
  /-- What has happened: the run snapshots whose destruction failed or was not tried, because a
  run broke off, the agent did not list them or they had the name of another dataset's base. -/
  spared : String → Finset String

inductive Event where
  | starts (run : String)
  | creates (run : String) (now : Nat) (taken : Bool)
  | reads (run : String)
  | lists (run : String) (names : Option (List String))
  | protects (run : String)
  | destroys (run : String) (gone : Bool)
  | works (run : String) (outcome : Outcome)
  | records (run : String)
  | drops (run : String)
  | undoes (run : String) (gone : Bool)
  | throws (run : String)
  | ends (run : String)
  | stops (run : String)

section

variable (catalog : Catalog)

def inUse (state : State) : List String := catalog.rows.filterMap (fun row => state.bases row.id)

def elsewhere (state : State) (dataset : String) : List String :=
  (catalog.rows.filter (fun row => row.dataset ≠ dataset)).filterMap (fun row => state.bases row.id)

def State.at (state : State) (run : String) (phase : Option Phase) : State :=
  { state with runs := Function.update state.runs run phase }

def State.spare (state : State) (dataset : String) (names : Finset String) : State :=
  { state with spared := Function.update state.spared dataset (state.spared dataset ∪ names) }

def State.take (state : State) (dataset snapshot : String) : State :=
  { state with snapshots := Function.update state.snapshots dataset (insert snapshot (state.snapshots dataset)) }

def State.setBase (state : State) (shareId : String) (snapshot : Option String) : State :=
  { state with bases := Function.update state.bases shareId snapshot }

def State.destroy (state : State) (dataset snapshot : String) (gone : Bool) : State :=
  if gone then { state with snapshots := Function.update state.snapshots dataset ((state.snapshots dataset).erase snapshot) }
  else state.spare dataset { snapshot }

def step (state : State) : Event → Option State
  | .starts run =>
    match state.runs run with
    | none => some (state.at run (some (.between catalog.rows)))
    | some _ => none
  | .creates run now taken =>
    match state.runs run with
    | some (.between (share::rest)) =>
      if !taken then some (state.at run (some (.between rest)))
      else if runSnapshot now ∈ state.snapshots share.dataset then none
      else some ((state.at run (some (.created ⟨share,runSnapshot now,rest⟩))).take share.dataset (runSnapshot now))
    | _ => none
  | .reads run =>
    match state.runs run with
    | some (.created turn) => some (state.at run (some (.based turn (state.bases turn.share.id))))
    | _ => none
  | .lists run names =>
    match state.runs run,names with
    | some (.based turn base),none =>
      some ((state.at run (some (.sweeping turn base []))).spare turn.share.dataset
        (((state.snapshots turn.share.dataset).filter (fun name => isRunSnapshot name)).erase turn.snapshot))
    | some (.based turn base),some names =>
      if names.toFinset = state.snapshots turn.share.dataset then some (state.at run (some (.listed turn base names))) else none
    | _,_ => none
  | .protects run =>
    match state.runs run with
    | some (.listed turn base names) =>
      some ((state.at run (some (.sweeping turn base (names.filter (fun name =>
        isRunSnapshot name && !(turn.snapshot::inUse catalog state).contains name))))).spare turn.share.dataset
          (elsewhere catalog state turn.share.dataset).toFinset)
    | _ => none
  | .destroys run gone =>
    match state.runs run with
    | some (.sweeping turn base (name::todo)) =>
      some ((state.at run (some (.sweeping turn base todo))).destroy turn.share.dataset name gone)
    | _ => none
  | .works run outcome =>
    match state.runs run with
    | some (.sweeping turn base []) =>
      match base,outcome with
      | _,.done => some (state.at run (some (.recording turn)))
      | none,_ => none
      | some _,.limit => some (state.at run (some (.undoing turn)))
      | some _,.unusable => some (state.at run (some (.dropping turn)))
    | _ => none
  | .records run =>
    match state.runs run with
    | some (.recording turn) =>
      some ((state.at run (some (.between turn.rest))).setBase turn.share.id (some turn.snapshot))
    | _ => none
  | .drops run =>
    match state.runs run with
    | some (.dropping turn) =>
      some ((state.at run (some (.undoing turn))).setBase turn.share.id none)
    | _ => none
  | .undoes run gone =>
    match state.runs run with
    | some (.undoing turn) =>
      some ((state.at run (some (.between turn.rest))).destroy turn.share.dataset turn.snapshot gone)
    | _ => none
  | .throws run =>
    match state.runs run with
    | none | some (.between _) | some (.undoing _) => none
    -- `baseOf` stands before the `try`
    | some (.created turn) =>
      some ((state.at run (some (.between turn.rest))).spare turn.share.dataset { turn.snapshot })
    | some (.based turn _) | some (.listed turn _ _) | some (.sweeping turn _ _) | some (.recording turn)
    | some (.dropping turn) => some (state.at run (some (.undoing turn)))
  | .ends run =>
    match state.runs run with
    | some (.between _) => some (state.at run none)
    | _ => none
  | .stops run =>
    (state.runs run).map (fun phase =>
      match phase.turn with
      | none => state.at run none
      | some turn => (state.at run none).spare turn.share.dataset { turn.snapshot })

def Exclusive (state : State) : Event → Prop
  | .creates run _ _ => ∀ share rest, state.runs run = some (.between (share::rest)) →
      ∀ other phase turn, state.runs other = some phase → phase.turn = some turn → turn.share.dataset ≠ share.dataset
  | _ => True

def BasesExist (state : State) : Prop :=
  ∀ share ∈ catalog.rows, ∀ name, state.bases share.id = some name → name ∈ state.snapshots share.dataset

def sharesOf (dataset : String) : List ShareRow := catalog.rows.filter (fun row => row.dataset = dataset)

def leftOver (state : State) (dataset : String) : Finset String :=
  (state.snapshots dataset).filter (fun name => isRunSnapshot name ∧ name ∉ state.spared dataset)

def OneEach (state : State) : Prop := ∀ dataset, (leftOver state dataset).card ≤ (sharesOf catalog dataset).length

end

end Depsis.Backup.RunSnapshots

import Depsis.Files.Indexer

/-! `index_queue` and the passes that drain it. A pass reads one directory at a time, in
steps between which changes are reported and other passes go on.
-/
namespace Depsis.Files.Drain

open Depsis.Foundation Indexer

structure Directory where
  shareId : String
  path : String
deriving DecidableEq

structure QueueRow where
  seenAt : Int
  actor : Option String
  client : Option String

abbrev IndexQueue := Table Directory QueueRow

structure QueuedPath where
  directory : Directory
  actor : Option String

/-- What does not change while the handlers run; `arrange` is the order of rows the query leaves open. -/
structure Service where
  organizationId : String
  fold : String → String
  server : Server
  arrange : List (Directory × QueueRow) → List (Directory × QueueRow)
  arranged : ∀ rows, (arrange rows).Perm rows
  batch : Nat

def componentsOf (path : String) : List String :=
  if path = "" then [] else (path.toList.splitOn '/').map String.ofList

def jsDate (now : Int) : Int := now / 1000 * 1000

def olderFirst (first second : Directory × QueueRow) : Bool := first.2.seenAt ≤ second.2.seenAt

variable (service : Service)

def queued (queue : IndexQueue) : List QueuedPath :=
  (((service.arrange queue.rows).mergeSort olderFirst).take service.batch).map
    (fun (directory,row) => ⟨directory,row.actor⟩)

def dequeue (queue : IndexQueue) (directory : Directory) (notNewerThan : Int) : IndexQueue :=
  if (queue.lookup directory).any (fun row => row.seenAt ≤ notNewerThan) then queue.erase directory else queue

/-- `now()` is the start of the transaction. A path that is too long is refused. -/
def enqueuePath (queue : IndexQueue) (now : Int) (directory : Directory) (actor client : Option String) : Option IndexQueue :=
  if 4096 < directory.path.length then none else some (queue.insert directory ⟨now,actor,client⟩)

inductive Resolved where
  | nowhere
  | root
  | folder (id : String)

def folderFrom (table : Index) (shareId : String) : Option String → List String → Resolved
  | none,[] => .root
  | some id,[] => .folder id
  | parentId,part::rest =>
    match service.server.arrange (table.rows.filter (fun (_,row) => row.organizationId = service.organizationId &&
      row.shareId = shareId && row.parentId = parentId && row.kind = .folder && row.name = part && row.trashedAt.isNone)) with
    | [] => .nowhere
    | (id,_)::_ => folderFrom table shareId (some id) rest

def folderAt (table : Index) (directory : Directory) : Resolved :=
  folderFrom service table directory.shareId none (componentsOf directory.path)

def inTheBin (components : List String) (bin : Option Listing) : Bool :=
  if components = [] then false
  else
    match bin with
    | some (.entries _ _) => true
    | _ => false

def binNames (bin : Option Listing) : List String :=
  match bin with
  | some (.entries entries _) => entries.map DirEntryInfo.name
  | _ => []

def emptyResult : ReconcileResult := ⟨0,0,0,0,1,0,0⟩

/-- `reconcileOne` once the folder has been listed; `root` and `bin` are what the agent says of the
share's root and of the folder's place in the bin. No result is an error thrown.
-/
def settle (table : Index) (drawn : Nat) (stamp : String → Int) (directory : Directory) (folderId : Option String)
    (root bin : Option Listing) : Listing → Index × Nat × Option ReconcileResult
  | .gone =>
    match folderId with
    | none => (table,drawn,some emptyResult)
    | some id =>
      match root with
      | some (.entries _ _) =>
        if inTheBin (componentsOf directory.path) bin then
          match sendSubtreeToTheBin { service.server with now := stamp } table service.organizationId id with
          | .error _ => (table,drawn,none)
          | .ok (table,count) => (table,drawn,some { emptyResult with binned := count })
        else
          match forget table service.organizationId id with
          | .error _ => (table,drawn,none)
          | .ok (table,count) => (table,drawn,some { emptyResult with removed := count })
      | _ => (table,drawn,none)
  | .entries entries truncated =>
    match compare service.fold { service.server with now := stamp }
      ⟨⟨service.organizationId,directory.shareId,⟨folderId,componentsOf directory.path⟩⟩,truncated,binNames bin⟩ entries table
      drawn { emptyResult with truncated := if truncated then 1 else 0 } none none with
    | (state,some _) => (state.table,state.drawn,none)
    | (state,none) => (state.table,state.drawn,some state.result)

structure Work where
  entry : QueuedPath
  startedAt : Int
  rest : List QueuedPath

inductive Sighting where
  | nowhere
  | gone
  | read (askedAt : Int) (truncated : Bool)

inductive Phase where
  | between (rest : List QueuedPath)
  | started (work : Work)
  | resolved (work : Work) (folderId : Option String)
  | looked (work : Work) (folderId : Option String) (askedAt : Int) (listing : Listing)
  | failing (work : Work)
  | returned (work : Work) (sighting : Sighting)

structure Report where
  directory : Directory
  changedAt : Int
  beganAt : Int
  actor : Option String
  client : Option String
deriving DecidableEq

structure State where
  clock : Int
  index : Index
  drawn : Nat
  queue : IndexQueue
  reporting : List Report
  passes : String → Option Phase
  /-- What has happened: the changes, those whose event is recorded, and the listings that came to the end,
  each with the time the first page was asked for. -/
  changes : List (Directory × Int)
  recorded : List (Directory × Int)
  readings : List (Directory × Int)

inductive Event where
  | changes (now : Int) (directory : Directory)
  | reports (now : Int) (directory : Directory) (changedAt : Int) (actor client : Option String)
  | records (report : Report)
  | rollsBack (report : Report)
  | indexes (index : Index) (drawn : Nat)
  | picks (worker : String)
  | begins (now : Int) (worker : String)
  | resolves (worker : String)
  | looks (now : Int) (worker : String) (agent : Nat → Option String → PageAnswer)
  | settles (worker : String) (stamp : String → Int) (root bin : Option Listing)
  | throws (worker : String)
  | dequeues (worker : String)
  | ends (worker : String)
  | stops (worker : String)

def Phase.work : Phase → Option Work
  | .between _ => none
  | .started work | .resolved work _ | .looked work _ _ _ | .failing work | .returned work _ => some work

def State.turn (state : State) (worker : String) (phase : Option Phase) : State :=
  { state with passes := Function.update state.passes worker phase }

def step (state : State) : Event → Option State
  | .changes now directory =>
    if state.clock < now then some { state with clock := now, changes := (directory,now)::state.changes } else none
  | .reports now directory changedAt actor client =>
    if state.clock < now ∧ (directory,changedAt) ∈ state.changes then
      some { state with clock := now, reporting := ⟨directory,changedAt,now,actor,client⟩::state.reporting }
    else none
  | .records report =>
    if report ∈ state.reporting then
      (enqueuePath state.queue report.beganAt report.directory report.actor report.client).map (fun queue =>
        { state with
          queue := queue
          reporting := state.reporting.erase report
          recorded := (report.directory,report.changedAt)::state.recorded })
    else none
  | .rollsBack report =>
    if report ∈ state.reporting then some { state with reporting := state.reporting.erase report } else none
  | .indexes index drawn => some { state with index := index, drawn := drawn }
  | .picks worker =>
    match state.passes worker with
    | none => some (state.turn worker (some (.between (queued service state.queue))))
    | some _ => none
  | .begins now worker =>
    match state.passes worker with
    | some (.between (entry::rest)) =>
      if state.clock < now then some { state.turn worker (some (.started ⟨entry,jsDate now,rest⟩)) with clock := now } else none
    | _ => none
  | .resolves worker =>
    match state.passes worker with
    | some (.started work) =>
      some (state.turn worker (some (match folderAt service state.index work.entry.directory with
        | .nowhere => .returned work .nowhere
        | .root => .resolved work none
        | .folder id => .resolved work (some id))))
    | _ => none
  | .looks now worker agent =>
    match state.passes worker with
    | some (.resolved work folderId) =>
      if state.clock < now then
        match listing MAX_PAGES agent with
        | none => some { state.turn worker (some (.failing work)) with clock := now }
        | some (.entries entries false) =>
          some { state.turn worker (some (.looked work folderId now (.entries entries false))) with
            clock := now
            readings := (work.entry.directory,now)::state.readings }
        | some listing => some { state.turn worker (some (.looked work folderId now listing)) with clock := now }
      else none
    | _ => none
  | .settles worker stamp root bin =>
    match state.passes worker with
    | some (.looked work folderId askedAt listing) =>
      match settle service state.index state.drawn stamp work.entry.directory folderId root bin listing with
      | (index,drawn,none) => some { state.turn worker (some (.failing work)) with index := index, drawn := drawn }
      | (index,drawn,some _) =>
        some { state.turn worker (some (.returned work (match listing with
          | .gone => .gone
          | .entries _ truncated => .read askedAt truncated))) with index := index, drawn := drawn }
    | _ => none
  | .throws worker =>
    ((state.passes worker).bind Phase.work).map (fun work => state.turn worker (some (.between work.rest)))
  | .dequeues worker =>
    match state.passes worker with
    | some (.returned work _) =>
      some { state.turn worker (some (.between work.rest)) with
        queue := dequeue state.queue work.entry.directory work.startedAt }
    | _ => none
  | .ends worker =>
    match state.passes worker with
    | some (.between []) => some (state.turn worker none)
    | _ => none
  | .stops worker => (state.passes worker).map (fun _ => state.turn worker none)

def InIndex (state : State) (directory : Directory) : Prop := folderAt service state.index directory ≠ .nowhere

/-- No event is recorded with a time at or before a change of the directory that is recorded already, and
a row that is in the index is taken off only after its directory was read to the end. -/
def Careful (state : State) : Event → Prop
  | .records report => ∀ changedAt, (report.directory,changedAt) ∈ state.recorded → changedAt < report.beganAt
  | .dequeues worker => ∀ work sighting, state.passes worker = some (.returned work sighting) →
      InIndex service state work.entry.directory → ∃ askedAt, sighting = .read askedAt false
  | _ => True

/-- Whatever row the step takes off, its directory was read to the end after all changes recorded. -/
def NothingLost (state next : State) : Prop :=
  ∀ directory, (state.queue.lookup directory).isSome → next.queue.lookup directory = none → InIndex service state directory →
    ∀ changedAt, (directory,changedAt) ∈ state.recorded →
      ∃ askedAt, (directory,askedAt) ∈ state.readings ∧ changedAt < askedAt

/-- The rows seen no later than `limit`, and the events that may yet be recorded with such a time. -/
def ahead (test : Directory → Bool) (limit : Int) (state : State) : Nat :=
  (state.queue.retain (fun directory row => row.seenAt ≤ limit && test directory)).size +
    (state.reporting.filter (fun report => report.beganAt ≤ limit && test report.directory)).length

def Untroubled (failing : Directory → Bool) (directory : Directory) (state : State) : Event → Prop
  | .records report => report.directory ≠ directory
  | .throws worker => ∀ phase work, state.passes worker = some phase → phase.work = some work →
      failing work.entry.directory = true
  | _ => True

/-- A stretch of a run in which a worker goes through a whole batch, whatever the others do. -/
def Round (events : List Event) : Prop :=
  ∃ worker before middle, events = before++(.picks worker::(middle++[.ends worker])) ∧ .stops worker ∉ middle

end Depsis.Files.Drain

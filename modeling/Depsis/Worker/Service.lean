import Depsis.Jobs.Safety

/-! The worker process: its loop claims a job, runs the handler with a heartbeat beside it, and reports how it ended.
The claim, each heartbeat and the report are statements on the queue that may fail, before or after they take effect;
the handler settles when it likes, and other processes use the queue all along.
-/
namespace Depsis.Worker

open Depsis.Foundation
open Depsis.Jobs (Queue JobId Instant Outcome Raised claimJob finishJob heartbeatJob committed)

structure Service where
  workerId : String
  leaseSeconds : Int

inductive Ending where
  | returned
  | threw (message : String)
deriving DecidableEq

inductive Handler where
  | running
  | settled (ending : Ending)
deriving DecidableEq

structure Execution where
  job : JobId
  held : Bool
  handler : Handler

inductive Loop where
  | idle
  | head
  | claiming
  | sleeping
  | unhandled (job : JobId) (kind : String)
  | running (execution : Nat)
  /-- `finish` is called, for a success or with the text of a failure. -/
  | reporting (execution : Nat) (failure : Option String)
  | ended
deriving DecidableEq

/-- A heartbeat, of the timer or of `report`, and what the statement has answered. -/
structure Beat where
  execution : Nat
  progress : Option Rat
  answer : Option Bool

/-- A `finish` that took effect: whether the handler had returned, and whether a heartbeat had reported the lease lost. -/
structure Record where
  job : JobId
  outcome : String
  answer : Option Outcome
  returned : Bool
  lost : Bool
deriving DecidableEq

structure State where
  now : Instant
  queue : Queue
  kinds : List String
  running : Bool
  stopRequested : Bool
  loop : Loop
  executions : Table Nat Execution
  begun : Nat
  beats : Table Nat Beat
  /-- The executions `finish` was called for, with `held` at that time, and the calls that took effect. -/
  asked : List (Nat × Bool)
  records : List Record

inductive Fate where
  | answered
  | lost
  | fails
deriving DecidableEq

inductive Event where
  | tick (later : Instant)
  | registers (kind : String)
  | starts
  | stops
  | stopped
  | goes
  | claims (skippedReaping skippedPicking : List JobId) (fate : Fate)
  | wakes
  | settles (execution : Nat) (ending : Ending)
  | awakes
  /-- The `finish` under way; the message is the one it throws. -/
  | reports (fate : Fate) (message : String)
  | beats (beat execution : Nat) (progress : Option Rat)
  | beaten (beat : Nat) (fate : Fate)
  | hears (beat : Nat)
  | others (call : Jobs.Call)

def callTime : Jobs.Call → Instant
  | .enqueue now _ _ => now
  | .claim now _ _ _ _ _ => now
  | .heartbeat now _ _ _ _ => now
  | .finish now _ _ _ _ => now
  | .cancel now _ _ => now

def caller : Jobs.Call → Option String
  | .claim _ workerId _ _ _ _ => some workerId
  | .heartbeat _ _ workerId _ _ => some workerId
  | .finish _ _ workerId _ _ => some workerId
  | _ => none

def Loop.execution : Loop → Option Nat
  | .running execution => some execution
  | .reporting execution _ => some execution
  | _ => none

section

variable (worker : Service) (state : State)

/-- `jobs.claim`, which asks nothing without kinds. -/
def State.claim (skippedReaping skippedPicking : List JobId) : Except Raised (Option JobId × Queue) :=
  if state.kinds = [] then .ok (none,state.queue)
  else claimJob state.queue state.now worker.workerId state.kinds (some worker.leaseSeconds) skippedReaping skippedPicking

def State.execute (job : JobId) : State :=
  let kind := ((state.queue.queue.lookup job).map (fun row => row.val.kind)).getD ""
  if state.kinds.contains kind then
    { state with
      loop := .running state.begun
      executions := state.executions.insert state.begun ⟨job,true,.running⟩
      begun := state.begun + 1 }
  else { state with loop := .unhandled job kind }

/-- `if (held) await finish(..)`; without the lease there is nothing to write. -/
def State.report (execution : Nat) (held : Bool) (failure : Option String) : State :=
  if held then { state with loop := .reporting execution failure, asked := state.asked ++ [(execution,held)] }
  else { state with loop := .head }

def State.finish (job : JobId) (outcome : String) (error : Option String) (returned lost : Bool) : Option State :=
  match finishJob state.queue state.now job worker.workerId (some outcome) error with
  | .error _ => none
  | .ok (answer,queue) =>
    some { state with queue := queue, records := state.records ++ [Record.mk job outcome answer returned lost] }

def Fate.meets (fate : Fate) (took : Option State) : State × Bool :=
  match fate,took with
  | .answered,some next => (next,true)
  | .lost,some next => (next,false)
  | _,_ => (state,false)

def outcomeOf (failure : Option String) : String := if failure.isNone then "succeeded" else "failed"

def State.finishOf (execution : Execution) (failure : Option String) : Option State :=
  state.finish worker execution.job (outcomeOf failure) failure (execution.handler = .settled .returned) (!execution.held)

def State.reported (number : Nat) (execution : Execution) (failure : Option String) (heard : Bool) (message : String) : State :=
  if heard then { state with loop := .head }
  else if failure.isNone then state.report number execution.held (some message)
  else { state with loop := .sleeping }

end

variable (uuidv7 : Nat → JobId) (worker : Service) (state : State)

def step : Event → Option State
  | .tick later => if state.now ≤ later then some { state with now := later } else none
  | .registers kind => if state.kinds.contains kind then none else some { state with kinds := state.kinds ++ [kind] }
  | .starts =>
    if state.running then none else some { state with running := true, stopRequested := false, loop := .head }
  | .stops => if state.running then some { state with stopRequested := true } else none
  | .stopped =>
    if state.running ∧ state.stopRequested ∧ state.loop = .ended then some { state with running := false } else none
  | .goes =>
    if state.loop = .head then some { state with loop := if state.stopRequested then .ended else .claiming } else none
  | .claims skippedReaping skippedPicking fate =>
    if state.loop = .claiming then
      match fate,state.claim worker skippedReaping skippedPicking with
      | .answered,.ok (some job,queue) => some ({ state with queue := queue }.execute job)
      | .answered,.ok (none,queue) => some { state with queue := queue, loop := .sleeping }
      | .lost,.ok (_,queue) => some { state with queue := queue, loop := .sleeping }
      | _,_ => some { state with loop := .sleeping }
    else none
  | .wakes => if state.loop = .sleeping then some { state with loop := .head } else none
  | .settles number ending =>
    (state.executions.lookup number).bind fun execution =>
      if execution.handler = .running then
        some { state with executions := state.executions.insert number { execution with handler := .settled ending } }
      else none
  | .awakes =>
    match state.loop with
    | .running number =>
      (state.executions.lookup number).bind fun execution =>
        match execution.handler with
        | .running => none
        | .settled .returned => some (state.report number execution.held none)
        | .settled (.threw message) => some (state.report number execution.held (some message))
    | _ => none
  | .reports fate message =>
    match state.loop with
    | .unhandled job kind =>
      let met := fate.meets state (state.finish worker job "failed" (some ("no handler for '" ++ kind ++ "'")) false false)
      some { met.1 with loop := if met.2 then .head else .sleeping }
    | .reporting number failure =>
      (state.executions.lookup number).map fun execution =>
        let met := fate.meets state (state.finishOf worker execution failure)
        met.1.reported number execution failure met.2 message
    | _ => none
  | .beats beat number progress =>
    if (state.beats.lookup beat).isSome ∨ (state.executions.lookup number).isNone then none
    else some { state with beats := state.beats.insert beat ⟨number,progress,none⟩ }
  | .beaten beat fate =>
    (state.beats.lookup beat).bind fun sent =>
      (state.executions.lookup sent.execution).bind fun execution =>
        if sent.answer = none then
          match fate,heartbeatJob state.queue state.now execution.job worker.workerId (some worker.leaseSeconds) sent.progress with
          | .answered,.ok (ok,queue) =>
            some { state with queue := queue, beats := state.beats.insert beat { sent with answer := some ok } }
          | .lost,.ok (_,queue) => some { state with queue := queue, beats := state.beats.erase beat }
          | _,_ => some { state with beats := state.beats.erase beat }
        else none
  | .hears beat =>
    (state.beats.lookup beat).bind fun sent =>
      (state.executions.lookup sent.execution).bind fun execution =>
        match sent.answer with
        | none => none
        | some true => some { state with beats := state.beats.erase beat }
        | some false =>
          some { state with
            beats := state.beats.erase beat
            executions := state.executions.insert sent.execution { execution with held := false } }
  | .others call =>
    if caller call = some worker.workerId ∨ callTime call ≠ state.now then none
    else (Jobs.step uuidv7 state.queue call).map fun queue => { state with queue := queue }

def heldAt (queue : Queue) (job : JobId) (workerId : String) (now : Instant) : Bool :=
  (queue.queue.lookup job).any (fun row => row.val.heldBy workerId now)

def Event.spares : Event → Bool
  | .reports fate _ =>
    match state.loop with
    | .reporting number none =>
      (state.executions.lookup number).all fun execution =>
        !heldAt state.queue execution.job worker.workerId state.now ||
          (decide (fate ≠ .fails) && (state.finishOf worker execution none).isSome)
    | _ => true
  | _ => true

def State.first (queue : Queue) : State := ⟨0,queue,[],false,false,.idle,∅,0,∅,[],[]⟩

end Depsis.Worker

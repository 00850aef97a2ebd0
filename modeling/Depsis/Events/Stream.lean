import Depsis.Foundation.FirstSeen
import Depsis.Foundation.Polling
import Depsis.Foundation.ReadCommitted
import Mathlib.Logic.Function.Basic

/-! The event stream: one poller with a watermark for each organization, and its fan-out to the
open streams. Times of rows are microseconds since the epoch, a `Date` is in milliseconds.
-/
namespace Depsis.Events

open Depsis.Foundation

def MAX_STREAMS : Nat := 64

def MAX_REWIND_MS : Nat := 10 * 60 * 1000

inductive Source where
  | jobQueue
  | jobHistory
  | uploadSessions
deriving DecidableEq

structure Key where
  source : Source
  id : String
deriving DecidableEq

inductive Columns where
  | job (kind status : String) (progress : Int) (createdAt : Nat) (lastError : Option String)
  | transfer (filename : String) (lengthBytes offsetBytes : Nat) (completed : Bool)
deriving DecidableEq

structure Row where
  organizationId : String
  createdBy : Option String
  updatedAt : Nat
  columns : Columns
deriving DecidableEq

def Row.date (row : Row) : Nat := row.updatedAt / 1000

structure Subscriber where
  key : Nat
  organizationId : String
  userId : String
  isAdmin : Bool
deriving DecidableEq

structure Watermark where
  raw : Nat
  date : Nat
deriving DecidableEq

def mark (date : Nat) : Watermark := ⟨date*1000,date⟩

inductive Query where
  | jobs
  | transfers (userId : String)
deriving DecidableEq

def Query.selects (organizationId : String) (query : Query) (key : Key) (row : Row) : Bool :=
  row.organizationId = organizationId &&
    match query with
    | .jobs => key.source ≠ .uploadSessions
    | .transfers userId => key.source = .uploadSessions && row.createdBy = some userId

def Query.readers (listeners : List Subscriber) : Query → List Subscriber
  | .jobs => listeners.filter (fun listener => listener.isAdmin)
  | .transfers userId => listeners.filter (fun listener => listener.userId = userId)

structure Pump where
  organizationId : String
  since : Watermark
  newest : Watermark
  listeners : List Subscriber
  todo : List Query
  answer : Option (List (Key × Row))

def advance (newest : Watermark) (row : Row) : Watermark :=
  if newest.date ≤ row.date then ⟨row.updatedAt,row.date⟩ else newest

inductive EventType where
  | job
  | transfer

structure DepsisEvent where
  type : EventType
  id : Nat
  rowId : String
  columns : Columns

def Query.type : Query → EventType
  | .jobs => .job
  | .transfers _ => .transfer

structure Delivery where
  subscriber : Subscriber
  query : Query
  key : Key
  row : Row

def Delivery.event (delivery : Delivery) : DepsisEvent :=
  ⟨delivery.query.type,delivery.row.date,delivery.key.id,delivery.row.columns⟩

structure State where
  rows : Table Key Row
  subscribers : List Subscriber
  nextId : Nat
  watermark : String → Option Watermark
  ticking : Option (Option Pump × List String)
  delivered : List Delivery
  owed : List (Subscriber × Key)
  completed : List String

inductive Event where
  | commits (writes : Table Key (Option Row))
  | subscribes (organizationId userId : String) (isAdmin : Bool) (now : Nat) (lastEventId : Option Nat)
  | leaves (key : Nat)
  | ticks
  | pumps
  | answers (page : List (Key × Row))
  | emits
  | ends
  | fails

def State.quiet (rows : Table Key Row) : State := ⟨rows,[],1,fun _ => none,none,[],[],[]⟩

/-- A stream's owner may see the row: jobs are for administrators, transfers for who made them. -/
def Subscriber.entitled (subscriber : Subscriber) (key : Key) (row : Row) : Bool :=
  row.organizationId = subscriber.organizationId &&
    if key.source = .uploadSessions then row.createdBy = some subscriber.userId else subscriber.isAdmin

def resumeFrom (now : Nat) : Option Nat → Option Nat
  | none => none
  | some millis =>
    if millis = 0 then none
    else
      let date := max (millis - 1) (now - MAX_REWIND_MS)
      if now < date then none else some date

def reseeded (current : Option Watermark) (now : Nat) (since : Option Nat) : Option Watermark :=
  let resume := since.map (fun since => max since (now - MAX_REWIND_MS))
  match current, resume with
  | none,none => some (mark now)
  | none,some resume => some (mark resume)
  | some current,none => some current
  | some current,some resume => if resume < current.date then some (mark resume) else some current

def subscribe (state : State) (organizationId userId : String) (isAdmin : Bool) (now : Nat) (since : Option Nat) : State :=
  { state with
    subscribers := state.subscribers ++ [⟨state.nextId,organizationId,userId,isAdmin⟩]
    nextId := state.nextId + 1
    watermark := Function.update state.watermark organizationId
      (reseeded (state.watermark organizationId) now since) }

def unique (names : List String) : List String := names.foldl (FirstSeen.add id) []

def opened (organizationId : String) (since : Watermark) (listeners : List Subscriber) : Pump where
  organizationId := organizationId
  since := since
  newest := since
  listeners := listeners
  todo := (if listeners.any (fun listener => listener.isAdmin) then [.jobs] else []) ++
    (unique (listeners.map (fun listener => listener.userId))).map .transfers
  answer := none

def debts (subscribers : List Subscriber) (writes : Table Key (Option Row)) : List (Subscriber × Key) :=
  writes.rows.flatMap (fun write =>
    match write.2 with
    | none => []
    | some row => (subscribers.filter (fun subscriber => subscriber.entitled write.1 row)).map
        (fun subscriber => (subscriber,write.1)))

def commit (state : State) (writes : Table Key (Option Row)) : State :=
  { state with
    rows := ReadCommitted.overlay state.rows writes
    owed := state.owed.filter (fun debt => (writes.lookup debt.2).isNone) ++ debts state.subscribers writes }

def leave (state : State) (key : Nat) : State :=
  let subscribers := state.subscribers.filter (fun subscriber => subscriber.key ≠ key)
  { state with
    subscribers := subscribers
    -- `stopIfIdle`
    watermark := if subscribers.isEmpty then fun _ => none else state.watermark
    owed := state.owed.filter (fun debt => debt.1.key ≠ key) }

def emit (state : State) (pump : Pump) (rest : List String) (query : Query) (todo : List Query)
    (page : List (Key × Row)) : State :=
  let readers := (query.readers pump.listeners).filter (fun reader => state.subscribers.contains reader)
  { state with
    ticking := some (some { pump with
      newest := page.foldl (fun newest entry => advance newest entry.2) pump.newest
      todo := todo
      answer := none },rest)
    delivered := state.delivered ++
      page.flatMap (fun entry => readers.map (fun reader => ⟨reader,query,entry.1,entry.2⟩))
    owed := state.owed.filter (fun debt =>
      !(readers.contains debt.1 && page.any (fun entry => entry.1 = debt.2 && state.rows.lookup entry.1 = some entry.2))) }

def finish (state : State) (pump : Pump) (rest : List String) : State :=
  { state with
    ticking := some (none,rest)
    watermark := Function.update state.watermark pump.organizationId (some pump.newest)
    completed := state.completed ++ [pump.organizationId] }

def pump (state : State) : List String → State
  | [] => { state with ticking := none }
  | organizationId::rest =>
    let listeners := state.subscribers.filter (fun subscriber => subscriber.organizationId = organizationId)
    match state.watermark organizationId with
    | none => { state with ticking := some (none,rest) }
    | some since =>
      if listeners.isEmpty then { state with ticking := some (none,rest) }
      else { state with ticking := some (some (opened organizationId since listeners),rest) }

def step (state : State) : Event → Option State
  | .commits writes => some (commit state writes)
  | .subscribes organizationId userId isAdmin now lastEventId =>
    -- the controller refuses a stream too many
    if MAX_STREAMS ≤ state.subscribers.length then some state
    else some (subscribe state organizationId userId isAdmin now (resumeFrom now lastEventId))
  | .leaves key => some (leave state key)
  | .ticks =>
    if state.subscribers.isEmpty then none
    else if state.ticking.isSome then some state
    else some { state with
      ticking := some (none,unique (state.subscribers.map (fun subscriber => subscriber.organizationId))) }
  | .pumps =>
    match state.ticking with
    | some (none,organizations) => some (pump state organizations)
    | _ => none
  | .answers page =>
    match state.ticking with
    | some (some pump,rest) =>
      match pump.todo, pump.answer with
      | query::_,none =>
        if Polling.Page 200 Row.updatedAt (query.selects pump.organizationId) pump.since.raw state.rows page then
          some { state with ticking := some (some { pump with answer := some page },rest) }
        else none
      | _,_ => none
    | _ => none
  | .emits =>
    match state.ticking with
    | some (some pump,rest) =>
      match pump.todo, pump.answer with
      | query::todo,some page => some (emit state pump rest query todo page)
      | _,_ => none
    | _ => none
  | .ends =>
    match state.ticking with
    | some (some pump,rest) => if pump.todo = [] then some (finish state pump rest) else none
    | _ => none
  | .fails => state.ticking.map (fun _ => { state with ticking := none })

def TimelyCommit (state : State) (writes : Table Key (Option Row)) : Prop :=
  ∀ write ∈ writes.rows, ∀ row ∈ write.2, ∀ subscriber ∈ state.subscribers, subscriber.entitled write.1 row →
    ∀ current ∈ state.watermark row.organizationId, current.raw < row.updatedAt

def TimelyEnd (state : State) : Prop :=
  ∀ ticking ∈ state.ticking, ∀ pump ∈ ticking.1, ∀ debt ∈ state.owed,
    debt.1.organizationId = pump.organizationId → ∀ row ∈ state.rows.lookup debt.2, pump.newest.raw < row.updatedAt

instance (state : State) (writes : Table Key (Option Row)) : Decidable (TimelyCommit state writes) :=
  inferInstanceAs (Decidable (∀ write ∈ writes.rows, ∀ row ∈ write.2, ∀ subscriber ∈ state.subscribers,
    subscriber.entitled write.1 row → ∀ current ∈ state.watermark row.organizationId, current.raw < row.updatedAt))

instance (state : State) : Decidable (TimelyEnd state) :=
  inferInstanceAs (Decidable (∀ ticking ∈ state.ticking, ∀ pump ∈ ticking.1, ∀ debt ∈ state.owed,
    debt.1.organizationId = pump.organizationId → ∀ row ∈ state.rows.lookup debt.2, pump.newest.raw < row.updatedAt))

def Timely (state : State) : Event → Prop
  | .commits writes => TimelyCommit state writes
  | .ends => TimelyEnd state
  | _ => True

instance (state : State) : (event : Event) → Decidable (Timely state event)
  | .commits writes => inferInstanceAs (Decidable (TimelyCommit state writes))
  | .ends => inferInstanceAs (Decidable (TimelyEnd state))
  | .subscribes _ _ _ _ _ => .isTrue trivial
  | .leaves _ => .isTrue trivial
  | .ticks => .isTrue trivial
  | .pumps => .isTrue trivial
  | .answers _ => .isTrue trivial
  | .emits => .isTrue trivial
  | .fails => .isTrue trivial

/-- Nothing that could keep back a stream's last news of a row: the row does not change again, the
changes are those of later transactions, no subscription reaches back before it. -/
def Undisturbed (subscriber : Subscriber) (key : Key) (row : Row) : Event → Prop
  | .commits writes => ∀ other value, writes.lookup other = some value →
      other ≠ key ∧ ∀ changed, value = some changed → row.updatedAt < changed.updatedAt
  | .subscribes _ _ _ now _ => row.updatedAt ≤ (now - MAX_REWIND_MS) * 1000
  | .leaves left => left ≠ subscriber.key
  | _ => True

def Lasting (subscriber : Subscriber) (key : Key) : Event → Prop
  | .commits writes => writes.lookup key = none
  | .leaves left => left ≠ subscriber.key
  | _ => True

end Depsis.Events

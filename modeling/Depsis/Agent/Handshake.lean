import Depsis.Foundation.Machine

/-! The API's side of the agent: a handshake, a latch that says whether the agent is there,
and a chain of promises that sends one request at a time. Continuations run before the clock
goes on and before anything more is heard of a socket.
-/
namespace Depsis.Agent.Handshake

open Depsis.Foundation

def EXPECTED_SCHEMA_VERSION : Nat := 44
def MAX_QUEUE_DEPTH : Nat := 32
def PROBE_COOLDOWN_MS : Nat := 10000

structure Config where
  socket : Bool
  budgetMs : Nat

inductive Kind where
  | startup
  | probe
  | call
deriving DecidableEq

inductive Response where
  | ok (schemaVersion : Nat)
  | other
deriving DecidableEq

inductive Phase where
  | waiting
  | exchanging
  | answered (response : Response)
  | failed
deriving DecidableEq

def Phase.settled : Phase → Bool
  | .waiting | .exchanging => false
  | .answered _ | .failed => true

structure Entry where
  kind : Kind
  asked : Nat
  deadline : Nat
  behind : Option Nat
  phase : Phase
  settledAt : Option Nat
  sent : Bool
  concluded : Bool
  knew : Option Nat

structure State where
  now : Nat
  entries : List Entry
  chain : Option Nat
  depth : Nat
  available : Bool
  refuseBecause : Option Nat
  lastProbeAt : Nat
  initialised : Bool

inductive Event where
  | onModuleInit
  | ensureAvailable
  /-- `call`; a correlation id that identifies nothing throws before anything is counted -/
  | call (identified : Bool)
  | starts (id : Nat)
  | answers (id : Nat) (response : Response)
  | fails (id : Nat)
  | concludes (id : Nat)
  | passes (milliseconds : Nat)

def State.initial (now : Nat) : State := ⟨now,[],none,0,false,none,0,false⟩

section

variable (config : Config)

def enqueue (state : State) (kind : Kind) : State :=
  { state with
    entries := state.entries ++ [{
      kind := kind, asked := state.now, deadline := state.now+config.budgetMs, behind := state.chain, phase := .waiting,
      settledAt := none, sent := false, concluded := kind = .call, knew := state.refuseBecause }]
    chain := some state.entries.length
    depth := state.depth+1 }

def settle (state : State) (id : Nat) (entry : Entry) (phase : Phase) : State :=
  { state with
    entries := state.entries.set id { entry with phase := phase, settledAt := some state.now }
    depth := state.depth-1 }

def released (entries : List Entry) (entry : Entry) : Bool :=
  match entry.behind with
  | none => true
  | some before => (entries[before]?).any (fun other => other.phase.settled)

def ready (entries : List Entry) (entry : Entry) : Bool :=
  (entry.phase = .waiting && released entries entry) || (entry.phase.settled && !entry.concluded)

def conclude (state : State) (entry : Entry) : State :=
  match entry.kind,entry.phase with
  | .startup,.answered (.ok version) =>
    if version = EXPECTED_SCHEMA_VERSION then { state with available := true }
    else { state with refuseBecause := some version, available := false }
  | .startup,_ => { state with available := false }
  | .probe,.answered (.ok version) =>
    if version = EXPECTED_SCHEMA_VERSION then state
    else { state with refuseBecause := some version, available := false }
  | .probe,.answered .other => { state with available := false }
  | _,_ => state

def step (state : State) : Event → Option State
  | .onModuleInit =>
    if state.initialised then none
    else if config.socket then some (enqueue config { state with initialised := true } .startup)
    else some { state with initialised := true }
  | .ensureAvailable =>
    if state.available then some state
    else if !config.socket || state.refuseBecause ≠ none then some state
    else if state.now-state.lastProbeAt < PROBE_COOLDOWN_MS then some state
    else some (enqueue config { state with lastProbeAt := state.now } .probe)
  | .call identified =>
    if !config.socket then some state
    else if state.refuseBecause ≠ none then some state
    else if MAX_QUEUE_DEPTH ≤ state.depth then some state
    else if !identified then some state
    else some (enqueue config state .call)
  | .starts id =>
    match state.entries[id]? with
    | some entry =>
      if entry.phase = .waiting && released state.entries entry then
        if entry.deadline ≤ state.now then some (settle state id entry .failed)
        else some { state with entries := state.entries.set id { entry with phase := .exchanging, sent := true } }
      else none
    | none => none
  | .answers id response =>
    match state.entries[id]? with
    | some entry =>
      if entry.phase = .exchanging && !state.entries.any (ready state.entries) then
        some { settle state id entry (.answered response) with available := true }
      else none
    | none => none
  | .fails id =>
    match state.entries[id]? with
    | some entry =>
      if entry.phase = .exchanging && !state.entries.any (ready state.entries) then some (settle state id entry .failed)
      else none
    | none => none
  | .concludes id =>
    match state.entries[id]? with
    | some entry =>
      if entry.phase.settled && !entry.concluded then
        some (conclude { state with entries := state.entries.set id { entry with concluded := true } } entry)
      else none
    | none => none
  | .passes milliseconds =>
    -- the timer of the exchange stops it at the deadline
    if !state.entries.any (ready state.entries) &&
        state.entries.all (fun entry => entry.phase ≠ .exchanging || state.now+milliseconds ≤ entry.deadline) then
      some { state with now := state.now+milliseconds }
    else none

def Quiet (state : State) : Prop := ∀ entry ∈ state.entries, entry.phase.settled = true ∧ entry.concluded = true

def Entry.Verified (entry : Entry) : Prop :=
  entry.kind ≠ .call ∧ entry.phase = .answered (.ok EXPECTED_SCHEMA_VERSION)

def Entry.Mismatched (entry : Entry) : Prop :=
  entry.kind ≠ .call ∧ ∃ version, entry.phase = .answered (.ok version) ∧ version ≠ EXPECTED_SCHEMA_VERSION

/-- Nothing is asked any more: the mismatch is known, the latch is shut and nothing is under way. -/
def Shut (state : State) : Prop :=
  state.refuseBecause ≠ none ∧ state.available = false ∧ state.initialised = true ∧ Quiet state

end

end Depsis.Agent.Handshake

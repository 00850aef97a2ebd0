import Depsis.Foundation.Machine
import Depsis.Foundation.Text
import Depsis.Foundation.Utf8

/-! Two commands joined by a pipe. The agent collects what the reader writes until the reader is gone, and
looks at the writer only then; every process waits at a pipe that is full or empty.
-/
namespace Depsis.Agent.Piped

open Depsis.Foundation Option Machine

/-- What a program does next. A write into a pipe nobody holds for reading is `broken`. -/
inductive Act (σ : Type) where
  | exits (code : Option Int)
  | works (next : σ)
  | reads (next : Option UInt8 → σ)
  | writes (stderr : Bool) (byte : UInt8) (done broken : σ)

inductive Child (σ : Type) where
  | absent
  | running (here : σ)
  | exited (code : Option Int)

structure Pair (σ τ : Type) where
  writer : σ → Act σ
  reader : τ → Act τ
  writerStart : σ
  readerStart : τ
  capacity : Nat
  room : 0 < capacity
  /-- The `Command` of the reader still holds the end it has passed on. -/
  retains : Bool

inductive Side where
  | writer
  | reader
  deriving DecidableEq

inductive SeamError where
  | spawn (side : Side)
  | wait (side : Side)
  | command (side : Side) (status : Int) (stderr : List Char)
  | unfinished
  deriving DecidableEq

inductive Phase where
  | starting
  | sending
  | receiving
  | reaping (waited : Nat)
  | returned (result : Except SeamError (List Char))
  deriving DecidableEq

structure State (σ τ : Type) where
  phase : Phase
  writer : Child σ
  reader : Child τ
  stream : List UInt8
  complaint : List UInt8
  output : Bool → List UInt8
  collected : Bool → List UInt8

inductive Event where
  | spawns (side : Side) (fails : Bool)
  | steps (side : Side)
  | collects (stderr : Bool)
  | collected
  | polls (slept : Nat)
  | waitFails

def REAP_GRACE : Nat := 2000

variable {σ τ : Type} (pair : Pair σ τ)

def start : State σ τ := ⟨.starting,.absent,.absent,[],[],fun _ => [],fun _ => []⟩

def writerSteps (state : State σ τ) : Option (State σ τ) :=
  match state.writer with
  | .running here =>
    match pair.writer here with
    | .exits code => some { state with writer := .exited code }
    | .works next => some { state with writer := .running next }
    | .reads next => some { state with writer := .running (next none) }
    | .writes true byte done _ =>
      if state.complaint.length < pair.capacity then
        some { state with writer := .running done, complaint := state.complaint ++ [byte] }
      else none
    | .writes false byte done broken =>
      match state.reader,pair.retains with
      | .exited _,false => some { state with writer := .running broken }
      | _,_ =>
        if state.stream.length < pair.capacity then
          some { state with writer := .running done, stream := state.stream ++ [byte] }
        else none
  | _ => none

def readerSteps (state : State σ τ) : Option (State σ τ) :=
  match state.reader with
  | .running here =>
    match pair.reader here with
    | .exits code => some { state with reader := .exited code }
    | .works next => some { state with reader := .running next }
    | .reads next =>
      match state.stream,state.writer with
      | byte::rest,_ => some { state with reader := .running (next (some byte)), stream := rest }
      | [],.exited _ => some { state with reader := .running (next none) }
      | [],_ => none
    | .writes stderr byte done _ =>
      if (state.output stderr).length < pair.capacity then
        some { state with reader := .running done, output := Function.update state.output stderr (state.output stderr ++ [byte]) }
      else none
  | _ => none

/-- What `run_piped` answers once both have exited: the writer is checked first. -/
def verdict (writer reader : Option Int) (complaint : List UInt8) (collected : Bool → List UInt8) :
    Except SeamError (List Char) :=
  if writer ≠ some 0 then .error (.command .writer (writer.getD (-1)) (Text.trim (Utf8.decode complaint)))
  else if reader ≠ some 0 then .error (.command .reader (reader.getD (-1)) (Text.trim (Utf8.decode (collected true))))
  else .ok (Utf8.decode (collected false))

def move (state : State σ τ) : Event → Option (State σ τ)
  | .spawns .writer fails =>
    if state.phase ≠ .starting then none
    else if fails then some { state with phase := .returned (.error (.spawn .writer)) }
    else some { state with phase := .sending, writer := .running pair.writerStart }
  | .spawns .reader fails =>
    if state.phase ≠ .sending then none
    else if fails then some { state with phase := .returned (.error (.spawn .reader)) }
    else some { state with phase := .receiving, reader := .running pair.readerStart }
  | .steps .writer => writerSteps pair state
  | .steps .reader => readerSteps pair state
  | .collects stderr =>
    if state.phase ≠ .receiving ∨ state.output stderr = [] then none
    else some { state with
      output := Function.update state.output stderr [],
      collected := Function.update state.collected stderr (state.collected stderr ++ state.output stderr) }
  | .collected =>
    match state.phase,state.reader with
    | .receiving,.exited _ =>
      if state.output false = [] ∧ state.output true = [] then some { state with phase := .reaping 0 } else none
    | _,_ => none
  | .polls slept =>
    match state.phase,state.writer,state.reader with
    | .reaping _,.exited writer,.exited reader =>
      some { state with phase := .returned (verdict writer reader state.complaint state.collected) }
    | .reaping waited,_,_ =>
      if REAP_GRACE ≤ waited then some { state with phase := .returned (.error .unfinished) }
      else some { state with phase := .reaping (waited + slept) }
    | _,_,_ => none
  | .waitFails =>
    match state.phase with
    | .receiving => some { state with phase := .returned (.error (.wait .reader)) }
    | .reaping _ => some { state with phase := .returned (.error (.wait .writer)) }
    | _ => none

def step (state : State σ τ) (event : Event) : Option (State σ τ) :=
  match state.phase with
  | .returned _ => none
  | _ => move pair state event

inductive Finishes (act : σ → Act σ) : List UInt8 → σ → Prop where
  | exits (input : List UInt8) (here : σ) (code : Option Int) (does : act here = .exits code) : Finishes act input here
  | works (input : List UInt8) (here next : σ) (does : act here = .works next) (later : Finishes act input next) :
    Finishes act input here
  | reads (input : List UInt8) (here : σ) (next : Option UInt8 → σ) (does : act here = .reads next)
    (later : Finishes act input.tail (next input.head?)) : Finishes act input here
  | writes (input : List UInt8) (here : σ) (stderr : Bool) (byte : UInt8) (done broken : σ)
    (does : act here = .writes stderr byte done broken) (later : Finishes act input done) : Finishes act input here

def jammed (state : State σ τ) : Bool :=
  match state.writer with
  | .running here =>
    match pair.writer here with
    | .writes true _ _ _ => pair.capacity ≤ state.complaint.length
    | _ => false
  | _ => false

def spares (state : State σ τ) (event : Event) : Bool :=
  match step pair state event with
  | some next => !jammed pair next
  | none => true

def Event.agents : Event → Bool
  | .steps _ | .waitFails => false
  | _ => true

structure Stuck (state : State σ τ) : Prop where
  unanswered : ∀ result, state.phase ≠ .returned result
  writer : writerSteps pair state = none
  reader : readerSteps pair state = none
  agent : ∀ event : Event, event.agents = true → move pair state event = none

structure Flows (state : State σ τ) : Prop where
  moves : ¬Stuck pair state
  spared : state.phase = .returned (.error .unfinished) → jammed pair state = false
  honest : ∀ text, state.phase = .returned (.ok text) → state.writer = .exited (some 0) ∧ state.reader = .exited (some 0)

def Kept (state : State σ τ) : Prop :=
  match state.phase with
  | .starting | .returned (.error _) => True
  | .sending => state.writer ≠ .absent
  | .receiving | .reaping _ => state.writer ≠ .absent ∧ state.reader ≠ .absent
  | .returned (.ok _) => state.writer = .exited (some 0) ∧ state.reader = .exited (some 0)

variable {pair} {state next : State σ τ} {event : Event} {events : List Event}

theorem writerSteps_frame (taken : writerSteps pair state = some next) :
    next.phase = state.phase ∧ next.reader = state.reader ∧ next.writer ≠ .absent := by
  unfold writerSteps at taken
  split at taken
  next =>
    split at taken
    next => cases taken; exact ⟨rfl,rfl,nofun⟩
    next => cases taken; exact ⟨rfl,rfl,nofun⟩
    next => cases taken; exact ⟨rfl,rfl,nofun⟩
    next =>
      obtain ⟨-,taken⟩ := ite_none_right_eq_some.mp taken
      cases taken
      exact ⟨rfl,rfl,nofun⟩
    next =>
      split at taken
      next => cases taken; exact ⟨rfl,rfl,nofun⟩
      next =>
        obtain ⟨-,taken⟩ := ite_none_right_eq_some.mp taken
        cases taken
        exact ⟨rfl,rfl,nofun⟩
  next => cases taken

theorem readerSteps_frame (taken : readerSteps pair state = some next) :
    next.phase = state.phase ∧ next.writer = state.writer ∧ next.reader ≠ .absent := by
  unfold readerSteps at taken
  split at taken
  next =>
    split at taken
    next => cases taken; exact ⟨rfl,rfl,nofun⟩
    next => cases taken; exact ⟨rfl,rfl,nofun⟩
    next =>
      split at taken
      next => cases taken; exact ⟨rfl,rfl,nofun⟩
      next => cases taken; exact ⟨rfl,rfl,nofun⟩
      next => cases taken
    next =>
      obtain ⟨-,taken⟩ := ite_none_right_eq_some.mp taken
      cases taken
      exact ⟨rfl,rfl,nofun⟩
  next => cases taken

private theorem verdict_ok {writer reader : Option Int} {complaint : List UInt8} {collected : Bool → List UInt8}
    {text : List Char} (passed : verdict writer reader complaint collected = .ok text) : writer = some 0 ∧ reader = some 0 := by
  unfold verdict at passed
  split_ifs at passed with left right
  exact ⟨not_not.mp left,not_not.mp right⟩

theorem step_kept (kept : Kept state) (taken : step pair state event = some next) : Kept next := by
  unfold step at taken
  split at taken
  next => cases taken
  next open' =>
    cases event with simp only [move] at taken
    | spawns side fails =>
      cases side with
      | writer =>
        dsimp only at taken
        split_ifs at taken
        · cases taken; trivial
        · cases taken; exact nofun
      | reader =>
        dsimp only at taken
        split_ifs at taken with here
        · cases taken; trivial
        · cases taken
          unfold Kept at kept
          rw [not_not.mp here] at kept
          exact ⟨kept,nofun⟩
    | steps side =>
      cases side with
      | writer =>
        obtain ⟨phase,reader,there⟩ := writerSteps_frame taken
        unfold Kept at kept ⊢
        rw [phase]
        cases is : state.phase with
        | starting => trivial
        | sending => exact there
        | receiving | reaping waited => rw [is] at kept; exact ⟨there,reader ▸ kept.2⟩
        | returned result => exact absurd is (open' result)
      | reader =>
        obtain ⟨phase,writer,there⟩ := readerSteps_frame taken
        unfold Kept at kept ⊢
        rw [phase]
        cases is : state.phase with
        | starting => trivial
        | sending => rw [is] at kept; exact writer ▸ kept
        | receiving | reaping waited => rw [is] at kept; exact ⟨writer ▸ kept.1,there⟩
        | returned result => exact absurd is (open' result)
    | collects stderr =>
      split_ifs at taken
      cases taken
      exact kept
    | collected =>
      split at taken
      next phase reader =>
        obtain ⟨-,taken⟩ := ite_none_right_eq_some.mp taken
        cases taken
        unfold Kept at kept
        rw [phase] at kept
        exact kept
      next => cases taken
    | polls slept =>
      split at taken
      next writer reader phase writes reads =>
        cases taken
        unfold Kept
        dsimp only
        cases said : verdict writer reader state.complaint state.collected with
        | error raised => trivial
        | ok text =>
          obtain ⟨rfl,rfl⟩ := verdict_ok said
          exact ⟨writes,reads⟩
      next phase _ =>
        split_ifs at taken
        · cases taken; trivial
        · cases taken
          unfold Kept at kept
          rw [phase] at kept
          exact kept
      next => cases taken
    | waitFails =>
      split at taken
      next => cases taken; trivial
      next => cases taken; trivial
      next => cases taken

theorem jammed_of_stuck (kept : Kept state) (stuck : Stuck pair state) : jammed pair state = true := by
  obtain ⟨unanswered,writerWaits,readerWaits,agentWaits⟩ := stuck
  cases is : state.phase with
  | starting =>
    have waits := agentWaits (.spawns .writer false) rfl
    simp [move,is] at waits
  | sending =>
    have waits := agentWaits (.spawns .reader false) rfl
    simp [move,is] at waits
  | returned result => exact absurd is (unanswered result)
  | reaping waited =>
    have waits := agentWaits (.polls 0) rfl
    simp only [move,is] at waits
    split at waits
    next => cases waits
    next => split_ifs at waits
    next others _ => exact absurd rfl (others waited)
  | receiving =>
    unfold Kept at kept
    rw [is] at kept
    have empty (stderr : Bool) : state.output stderr = [] := by
      have waits := agentWaits (.collects stderr) rfl
      by_contra filled
      simp [move,is,filled] at waits
    cases reads : state.reader with
    | absent => exact absurd reads kept.2
    | exited code =>
      have waits := agentWaits .collected rfl
      simp [move,is,reads,empty] at waits
    | running here =>
      have starved : state.stream = [] ∧ ∀ code, state.writer ≠ .exited code := by
        simp only [readerSteps,reads] at readerWaits
        split at readerWaits
        next => cases readerWaits
        next => cases readerWaits
        next =>
          split at readerWaits
          next => cases readerWaits
          next => cases readerWaits
          next empty others => exact ⟨empty,fun code gone => others code gone⟩
        next stderr byte done broken does => simp [empty,pair.room] at readerWaits
      cases writes : state.writer with
      | absent => exact absurd writes kept.1
      | exited code => exact absurd writes (starved.2 code)
      | running there =>
        unfold jammed
        rw [writes]
        simp only [writerSteps,writes,reads,starved.1,List.length_nil,pair.room,if_true] at writerWaits
        split at writerWaits
        next => cases writerWaits
        next => cases writerWaits
        next => cases writerWaits
        next does =>
          simp only [does]
          split_ifs at writerWaits with full
          exact decide_eq_true (Nat.not_lt.mp full)
        next => cases writerWaits

/-- While every message of the writer finds room in the pipe of its stderr, the three never all wait for each other,
the writer is not killed for want of a reader of it, and a success means that both have ended well. -/
theorem run_piped (ran : Machine.run (step pair) start events = some state)
    (spared : Machine.Meets (step pair) (fun state event => spares pair state event = true) start events) : Flows pair state := by
  have held : (fun state : State σ τ => Kept state ∧ jammed pair state = false) state := by
    apply run_invariant (step pair) _ _ spared ran
    · intro state event next holds admitted taken
      refine ⟨step_kept holds.1 taken,?_⟩
      unfold spares at admitted
      rw [taken] at admitted
      exact (Bool.not_eq_true' _).mp admitted
    · exact ⟨trivial,rfl⟩
  obtain ⟨kept,free⟩ := held
  constructor
  · intro stuck
    have jam := jammed_of_stuck kept stuck
    rw [free] at jam
    cases jam
  · exact fun _ => free
  · intro text passed
    unfold Kept at kept
    rw [passed] at kept
    exact kept

/-! A writer that says more than the pipe of its stderr holds. -/

def complains : Nat → Act Nat
  | 0 => .exits (some 0)
  | left + 1 => .writes true 0 left 0

def swallows : Bool → Act Bool
  | true => .reads Option.isSome
  | false => .exits (some 0)

def complaining (capacity bytes : Nat) (room : 0 < capacity) : Pair Nat Bool := ⟨complains,swallows,bytes,true,capacity,room,true⟩

theorem run_piped_silent : Flows (complaining 65536 0 (by decide))
    ⟨.returned (.ok []),.exited (some 0),.exited (some 0),[],[],fun _ => [],fun _ => []⟩ :=
  @run_piped _ _ _ _ [.spawns .writer false,.spawns .reader false,.steps .writer,.steps .reader,.steps .reader,.collected,.polls 20]
    rfl (by decide +kernel)

private def flooded (left : Nat) (complaint : List UInt8) : State Nat Bool :=
  ⟨.receiving,.running left,.running true,[],complaint,fun _ => [],fun _ => []⟩

private theorem floods {capacity bytes : Nat} {room : 0 < capacity} (count left : Nat) (complaint : List UInt8)
    (fits : complaint.length + count ≤ capacity) :
    Machine.run (step (complaining capacity bytes room)) (flooded (left + count) complaint) (List.replicate count (.steps .writer)) =
      some (flooded left (complaint ++ List.replicate count 0)) := by
  induction count generalizing complaint with
  | zero => simp
  | succ count ih =>
    have written : step (complaining capacity bytes room) (flooded (left + (count + 1)) complaint) (.steps .writer) =
        some (flooded (left + count) (complaint ++ [0])) := if_pos (by change complaint.length < capacity; omega)
    rw [List.replicate_succ,run_cons,written,bind_some,ih _ (by simp; omega)]
    simp [List.replicate_succ]

private theorem flooded_stuck {capacity bytes left : Nat} {room : 0 < capacity} {complaint : List UInt8}
    (full : capacity ≤ complaint.length) : Stuck (complaining capacity bytes room) (flooded (left + 1) complaint) := by
  constructor
  · nofun
  · exact if_neg (Nat.not_lt.mpr full)
  · rfl
  · intro event own
    cases event with
    | spawns side fails => cases side <;> rfl
    | steps side => cases own
    | collects stderr => rfl
    | collected => rfl
    | polls slept => rfl
    | waitFails => cases own

private theorem complains_finishes (input : List UInt8) (left : Nat) : Finishes complains input left := by
  induction left with
  | zero => exact .exits _ _ _ rfl
  | succ left ih => exact .writes _ _ _ _ _ _ rfl ih

private theorem swallows_finishes (input : List UInt8) : Finishes swallows input true := by
  induction input with
  | nil => exact .reads _ _ _ rfl (.exits _ _ _ rfl)
  | cons byte rest ih => exact .reads _ _ _ rfl ih

/-- Both would finish, and with one byte more than a pipe of Linux holds all three wait for ever. -/
theorem run_piped_deadlocks : ¬∀ pair : Pair Nat Bool, (∀ input, Finishes pair.writer input pair.writerStart) →
    (∀ input, Finishes pair.reader input pair.readerStart) →
    ∀ events state, Machine.run (step pair) start events = some state → Flows pair state := by
  intro flows
  have room : 0 < 65536 := by decide
  have ran : Machine.run (step (complaining 65536 65537 room)) start
      ([.spawns .writer false,.spawns .reader false] ++ List.replicate 65536 (.steps .writer)) =
        some (flooded 1 ([] ++ List.replicate 65536 0)) :=
    @run_append_some _ _ _ _ (flooded 65537 []) _ _ _ rfl (floods 65536 1 [] (Nat.le_refl _))
  apply (flows _ (fun input => complains_finishes input _) swallows_finishes _ _ ran).moves
  apply flooded_stuck
  rw [List.nil_append,List.length_replicate]

end Depsis.Agent.Piped

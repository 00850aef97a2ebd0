import Depsis.Foundation.JsString
import Depsis.Foundation.Utf8

/-! One question to the agent and its answer. What the socket hands over is made
text piece by piece and searched for the line feed that ends the answer.
-/
namespace Depsis.Agent.Exchange
open Depsis.Foundation Depsis.Foundation.Utf8 List

structure JsonReader (Value : Type*) where
  parse : List Char → Except String Value
  status : Value → Option String

inductive Outcome (Value : Type*) where
  | resolved (response : Value)
  | rejected (message : String)
  deriving DecidableEq

inductive Event where
  | data (chunk : List UInt8)
  | ended
  | failed (message : String)
  | timedOut

structure State (Value : Type*) where
  buffer : List Char
  settled : Option (Outcome Value)

variable {Value : Type*}

def settle (json : JsonReader Value) (line : List Char) : Outcome Value :=
  match json.parse line with
  | .error description => .rejected ("unparseable answer: " ++ description)
  | .ok parsed =>
    match json.status parsed with
    | none => .rejected "the answer had no status field"
    | some _ => .resolved parsed

def finish (state : State Value) (outcome : Outcome Value) : State Value :=
  match state.settled with
  | some _ => state
  | none => { state with settled := some outcome }

def step (json : JsonReader Value) (budgetMs : Nat) (state : State Value) : Event → State Value
  | .data chunk =>
    let buffer := state.buffer ++ decode chunk
    let read := { state with buffer }
    if '\n' ∈ buffer then finish read (settle json (buffer.takeWhile (· ≠ '\n'))) else read
  | .ended =>
    finish state (.rejected (if state.buffer.all JsString.isSpace then "the agent closed the connection without answering"
      else "the agent sent an answer with no terminating newline"))
  | .failed message => finish state (.rejected message)
  | .timedOut => finish state (.rejected ("no answer within " ++ toString budgetMs ++ "ms"))

def run (json : JsonReader Value) (budgetMs : Nat) (state : State Value) (events : List Event) : State Value :=
  events.foldl (step json budgetMs) state

def exchange (json : JsonReader Value) (budgetMs : Nat) (events : List Event) : Option (Outcome Value) :=
  (run json budgetMs ⟨[],none⟩ events).settled

variable (json : JsonReader Value) (budgetMs : Nat)

theorem run_append (before : State Value) (events later : List Event) :
    run json budgetMs before (events ++ later) = run json budgetMs (run json budgetMs before events) later :=
  foldl_append

variable {before : State Value}

theorem step_unread {chunk : List UInt8} (absent : '\n' ∉ before.buffer ++ decode chunk) :
    step json budgetMs before (.data chunk) = { before with buffer := before.buffer ++ decode chunk } :=
  if_neg absent

theorem step_settled {outcome : Outcome Value} (done : before.settled = some outcome) (event : Event) :
    (step json budgetMs before event).settled = some outcome := by
  cases event with
  | data chunk =>
    unfold step
    dsimp only
    split_ifs
    · simp only [finish,done]
    · exact done
  | ended | failed message | timedOut => simp only [step,finish,done]

theorem run_settled {outcome : Outcome Value} (done : before.settled = some outcome)
    (events : List Event) : (run json budgetMs before events).settled = some outcome := by
  induction events generalizing before with
  | nil => exact done
  | cons event rest ih => exact ih (step_settled json budgetMs done event)

structure Waiting (state : State Value) : Prop where
  unread : '\n' ∉ state.buffer
  unanswered : ∀ outcome ∈ state.settled, ∃ message, outcome = .rejected message

private theorem finish_waiting (waiting : Waiting before) (message : String) :
    Waiting (finish before (.rejected message)) := by
  unfold finish
  split
  · exact waiting
  · exact ⟨waiting.unread,fun outcome same => ⟨message,(Option.some.inj same).symm⟩⟩

theorem step_waiting (waiting : Waiting before) (event : Event)
    (unended : ∀ chunk, event = .data chunk → 10 ∉ chunk) : Waiting (step json budgetMs before event) := by
  cases event with
  | data chunk =>
    have absent : '\n' ∉ before.buffer ++ decode chunk := by
      intro read
      rcases mem_append.mp read with old | new
      · exact waiting.unread old
      · exact unended chunk rfl (newline_of_decode new)
    rw [step_unread json budgetMs absent]
    exact ⟨absent,waiting.unanswered⟩
  | ended | failed message | timedOut => exact finish_waiting waiting _

theorem run_waiting (waiting : Waiting before) {events : List Event}
    (unended : ∀ chunk, .data chunk ∈ events → 10 ∉ chunk) : Waiting (run json budgetMs before events) := by
  induction events generalizing before with
  | nil => exact waiting
  | cons event rest ih =>
    apply ih
    · exact step_waiting json budgetMs waiting event (fun chunk same => unended chunk (by rw [same]; exact mem_cons_self))
    · exact fun chunk member => unended chunk (mem_cons_of_mem _ member)

theorem ended_rejected {events : List Event} (unended : ∀ chunk, .data chunk ∈ events → 10 ∉ chunk) (later : List Event) :
    ∃ message, exchange json budgetMs (events ++ .ended::later) = some (.rejected message) := by
  have fresh : Waiting (⟨[],none⟩ : State Value) := ⟨not_mem_nil,nofun⟩
  have waiting := run_waiting json budgetMs fresh unended
  have rejected : ∃ message, (step json budgetMs (run json budgetMs ⟨[],none⟩ events) .ended).settled = some (.rejected message) := by
    unfold step finish
    cases done : (run json budgetMs ⟨[],none⟩ events).settled with
    | none => exact ⟨_,rfl⟩
    | some outcome =>
      obtain ⟨message,rfl⟩ := waiting.unanswered outcome done
      exact ⟨message,done⟩
  obtain ⟨message,settled⟩ := rejected
  refine ⟨message,?_⟩
  unfold exchange
  rw [run_append]
  exact run_settled json budgetMs settled later

private theorem run_data {buffer : List Char} {segments : List (List UInt8)} (unended : '\n' ∉ buffer ++ segments.flatMap decode) :
    run json budgetMs ⟨buffer,none⟩ (segments.map .data) = ⟨buffer ++ segments.flatMap decode,none⟩ := by
  induction segments generalizing buffer with
  | nil => rw [flatMap_nil,append_nil]; rfl
  | cons segment rest ih =>
    rw [flatMap_cons,← append_assoc] at unended ⊢
    have here : '\n' ∉ buffer ++ decode segment := fun member => unended (mem_append_left _ member)
    rw [← ih unended,map_cons]
    change run json budgetMs (step json budgetMs ⟨buffer,none⟩ (.data segment)) _ = _
    rw [step_unread json budgetMs here]

private theorem last_segment {segments : List (List UInt8)} {bytes : List UInt8} {last : UInt8}
    (cut : segments.flatten = bytes ++ [last]) :
    ∃ before front rest, segments = before ++ (front ++ [last])::rest ∧ before.flatten ++ front = bytes ∧ rest.flatten = [] := by
  induction segments generalizing bytes with
  | nil => exact absurd cut.symm (append_ne_nil_of_right_ne_nil _ (cons_ne_nil _ _))
  | cons segment rest ih =>
    rw [flatten_cons] at cut
    by_cases empty : rest.flatten = []
    · rw [empty,append_nil] at cut
      exact ⟨[],bytes,rest,by rw [cut]; rfl,rfl,empty⟩
    · obtain ⟨front,tail,ends⟩ : ∃ front tail, rest.flatten = front ++ [tail] :=
        ⟨_,_,(dropLast_append_getLast empty).symm⟩
      rw [ends,← append_assoc] at cut
      obtain ⟨same,final⟩ := append_inj' cut rfl
      cases final
      obtain ⟨before,middle,after,rfl,joined,nothing⟩ := ih ends
      exact ⟨segment::before,middle,after,rfl,by rw [flatten_cons,append_assoc,joined,same],nothing⟩

private theorem takeWhile_line {line : List Char} (bare : '\n' ∉ line) :
    (line ++ ['\n']).takeWhile (· ≠ '\n') = line := by
  rw [takeWhile_append_of_pos]
  · exact append_nil line
  · intro char member
    simp only [ne_eq,decide_not,Bool.not_eq_eq_eq_not,Bool.not_true,decide_eq_false_iff_not]
    rintro rfl
    exact bare member

theorem answer_read {line : List Char} (bare : '\n' ∉ line) {segments : List (List UInt8)}
    (cut : segments.flatten = encode line ++ [10]) (later : List Event) :
    ∃ read, segments.flatMap decode = read ++ ['\n'] ∧
      exchange json budgetMs (segments.map .data ++ later) = some (settle json read) := by
  obtain ⟨before,front,rest,rfl,joined,nothing⟩ := last_segment cut
  have absent : '\n' ∉ before.flatMap decode ++ decode front := by
    intro read
    have held : (10 : UInt8) ∈ encode line := by
      rw [← joined]
      rcases mem_append.mp read with old | new
      · obtain ⟨segment,member,inside⟩ := mem_flatMap.mp old
        exact mem_append_left _ (mem_flatten.mpr ⟨segment,member,newline_of_decode inside⟩)
      · exact mem_append_right _ (newline_of_decode new)
    exact bare (newline_of_encode held)
  have silent : rest.flatMap decode = [] := by
    apply flatMap_eq_nil_iff.mpr
    intro segment member
    rw [flatten_eq_nil_iff.mp nothing segment member,decode_nil]
  refine ⟨before.flatMap decode ++ decode front,?_,?_⟩
  · rw [flatMap_append,flatMap_cons,silent,decode_newline,append_nil,append_assoc]
  · have first : run json budgetMs ⟨[],none⟩ (before.map .data) = ⟨before.flatMap decode,none⟩ :=
      run_data json budgetMs (fun member => absent (mem_append_left _ member))
    unfold exchange
    rw [map_append,append_assoc,run_append,first,map_cons,cons_append]
    have settled : (step json budgetMs ⟨before.flatMap decode,none⟩ (.data (front ++ [10]))).settled =
        some (settle json (before.flatMap decode ++ decode front)) := by
      unfold step
      dsimp only
      rw [decode_newline,← append_assoc,if_pos (by simp),takeWhile_line absent]
      rfl
    exact run_settled json budgetMs settled _

def verbatim : JsonReader (List Char) := ⟨.ok,fun _ => some ""⟩

private theorem read_of_settle {read line : List Char} (same : settle verbatim read = settle verbatim line) : read = line := by
  change Outcome.resolved read = Outcome.resolved line at same
  exact Outcome.resolved.inj same

/-- An answer is read as it was sent, by any reader of JSON, just when no read of the socket ends
inside a character; a stream that ends before the line feed is always refused. -/
theorem answer_arrives (budgetMs : Nat) :
    (∀ (line : List Char) (segments : List (List UInt8)) (later : List Event), '\n' ∉ line →
      segments.flatten = encode line ++ [10] →
      ((∀ (Value : Type) (json : JsonReader Value),
          exchange json budgetMs (segments.map .data ++ later) = some (settle json line)) ↔
        ∀ segment ∈ segments, ∃ text, encode text = segment)) ∧
    ∀ (Value : Type) (json : JsonReader Value) (events later : List Event),
      (∀ chunk, .data chunk ∈ events → 10 ∉ chunk) →
      ∃ message, exchange json budgetMs (events ++ .ended::later) = some (.rejected message) := by
  refine ⟨fun line segments later bare cut => ?_,fun Value json events later unended =>
    ended_rejected json budgetMs unended later⟩
  have whole : segments.flatten = encode (line ++ ['\n']) := by rw [cut,encode_append]; rfl
  rw [← flatMap_decode_iff whole]
  constructor
  · intro exact
    obtain ⟨read,decoded,settled⟩ := answer_read verbatim budgetMs bare cut later
    rw [exact] at settled
    rw [decoded,read_of_settle (Option.some.inj settled).symm]
  · intro decoded Value json
    obtain ⟨read,same,settled⟩ := answer_read json budgetMs bare cut later
    rw [settled,append_cancel_right (same.symm.trans decoded)]

theorem answer_arrives_two_reads :
    (∀ (Value : Type) (json : JsonReader Value),
      exchange json 5000 ([.data [0x7B,0xC3,0xA7],.data [0x7D,0x0A],.ended]) = some (settle json ['{','ç','}'])) ∧
    ∃ message, exchange verbatim 5000 [.data [0x7B,0xC3],.ended] = some (.rejected message) := by
  refine ⟨fun Value json => ?_,(answer_arrives 5000).2 _ verbatim [.data [0x7B,0xC3]] [] (by simp)⟩
  have cut : [[0x7B,0xC3,0xA7],[0x7D,0x0A]].flatten = encode ['{','ç','}'] ++ [10] := by decide
  have parts : ∀ segment ∈ [[0x7B,0xC3,0xA7],[0x7D,0x0A]], ∃ text, encode text = segment := by
    intro segment member
    rcases mem_pair.mp member with rfl | rfl
    · exact ⟨['{','ç'],by decide⟩
    · exact ⟨['}','\n'],by decide⟩
  exact ((answer_arrives 5000).1 _ _ [.ended] (by decide) cut).mpr parts Value json

def statusOnly : JsonReader (List Char) where
  parse text :=
    if "\x7b\"status\":\"".toList <+: text ∧ "\"\x7d".toList <:+ text then .ok ((text.drop 11).dropLast.dropLast)
    else .error "Unexpected token"
  status status := some (String.ofList status)

/-- An answer whose only letter beyond ASCII comes in two reads is resolved, and says something else. -/
theorem cut_letter_damaged :
    encode "\x7b\"status\":\"ç\"\x7d".toList ++ [10] = encode "\x7b\"status\":\"".toList ++ [0xC3] ++ [0xA7,0x22,0x7D,0x0A] ∧
    settle statusOnly "\x7b\"status\":\"ç\"\x7d".toList = .resolved ['ç'] ∧
    exchange statusOnly 5000 [.data (encode "\x7b\"status\":\"".toList ++ [0xC3]),.data [0xA7,0x22,0x7D,0x0A]] =
      some (.resolved ['\uFFFD','\uFFFD']) := by
  decide +kernel

end Depsis.Agent.Exchange

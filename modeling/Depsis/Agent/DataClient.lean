import Depsis.Foundation.JsString
import Depsis.Foundation.Utf8
import Depsis.Agent.UploadAtomic

/-! The API's end of the data channel. Lines of JSON and the raw bytes of a download
come out of one socket, in pieces that end anywhere.
-/
namespace Depsis.Agent.DataClient
open Depsis.Foundation Depsis.Foundation.Utf8 Depsis.Agent.DataChannel List

/-- A parsed line: a reply of the agent, or anything else with its `status`. -/
inductive Reply where
  | known (reply : DataReply)
  | other (status : String)

inductive Failure where
  | unavailable (message : String)
  | outOfSpace (reason : String)
  | transferFailed (reason : String) (kind : FailureKind)
  | broken (message : String)
  deriving DecidableEq

def toError : Reply → Failure
  | .other status => .unavailable ("unexpected reply '" ++ status ++ "'")
  | .known .ready => .unavailable "unexpected reply 'ready'"
  | .known (.stored _) => .unavailable "unexpected reply 'stored'"
  | .known (.sending _) => .unavailable "unexpected reply 'sending'"
  | .known (.failed reason .outOfSpace) => .outOfSpace reason
  | .known (.failed reason kind) => .transferFailed reason kind

/-- `failure` is the message of the `AgentUnavailableError` the reader ended with. A reply handed to
a waiting caller is one that caller finds first in `queued`. -/
structure LineReader where
  buffered : List UInt8
  queued : List Reply
  stopped : Bool
  payloadAfterNextLine : Bool
  failure : Option String

def LineReader.fail (message : String) (reader : LineReader) : LineReader :=
  { reader with failure := some (reader.failure.getD message) }

def firstLine : List UInt8 → Option (List UInt8 × List UInt8)
  | [] => none
  | byte::rest => if byte = 10 then some ([],rest) else (firstLine rest).map (fun found => (byte::found.1,found.2))

variable {bytes line rest : List UInt8}

theorem firstLine_some (found : firstLine bytes = some (line,rest)) : bytes = line ++ 10::rest := by
  induction bytes generalizing line with
  | nil => cases found
  | cons byte more ih =>
    rw [firstLine] at found
    split_ifs at found with feed
    · cases found
      rw [feed,nil_append]
    · obtain ⟨⟨later,after⟩,inner,same⟩ := Option.map_eq_some_iff.mp found
      cases same
      rw [ih inner,cons_append]

theorem firstLine_append (found : firstLine bytes = some (line,rest)) (more : List UInt8) :
    firstLine (bytes ++ more) = some (line,rest ++ more) := by
  induction bytes generalizing line with
  | nil => cases found
  | cons byte bytes ih =>
    rw [firstLine] at found
    rw [cons_append,firstLine]
    split_ifs at found ⊢ with feed
    · cases found
      rfl
    · obtain ⟨⟨later,after⟩,inner,same⟩ := Option.map_eq_some_iff.mp found
      cases same
      rw [ih inner]
      rfl

def LineReader.scan (parse : List Char → Option Reply) (reader : LineReader) : LineReader :=
  if reader.stopped then reader
  else match _found : firstLine reader.buffered with
  | none => reader
  | some (line,rest) =>
    let read := { reader with buffered := rest }
    if (decode line).all JsString.isSpace then read.scan parse
    else match parse (decode line) with
    | none => read.fail ("unparseable reply: " ++ String.ofList ((decode line).take 120))
    | some reply =>
      let handed := { read with queued := read.queued ++ [reply] }
      -- the loop stops here of itself: what follows the last line is no line
      if handed.payloadAfterNextLine then { handed with stopped := true } else handed.scan parse
termination_by reader.buffered.length
decreasing_by
  all_goals
    rw [firstLine_some _found]
    simp only [length_append,length_cons]
    omega

def LineReader.onData (parse : List Char → Option Reply) (chunk : List UInt8) (reader : LineReader) : LineReader :=
  { reader with buffered := reader.buffered ++ chunk }.scan parse

def LineReader.next (reader : LineReader) : Option (Except String Reply) :=
  match reader.queued with
  | reply::_ => some (.ok reply)
  | [] => reader.failure.map .error

def LineReader.expecting : LineReader := ⟨[],[],false,true,none⟩

structure TakeExactly where
  wanted : Nat
  seen : Nat

def TakeExactly.transform (chunk : List UInt8) (exact : TakeExactly) : List UInt8 × TakeExactly :=
  let room := exact.wanted - exact.seen
  if room = 0 then ([],exact)
  else
    let take := chunk.take (min room chunk.length)
    (take,{ exact with seen := exact.seen + take.length })

inductive Phase where
  | header (reader : LineReader)
  | body (exact : TakeExactly)
  | done (outcome : Except Failure Nat)

structure Receiving where
  phase : Phase
  delivered : List UInt8

/-- What happens to the socket; `failed` also stands for its timeout and for a failing sink. -/
inductive SocketEvent where
  | data (chunk : List UInt8)
  | ended
  | failed (message : String)

/-- After `next` has answered: the header is looked at, and what followed it goes first. -/
def announced (length : Nat) (reader : LineReader) : Reply → Receiving
  | .known (.sending bytes) =>
    if bytes ≠ length then
      ⟨.done (.error (.transferFailed ("asked for " ++ toString length ++ " bytes, the agent announced " ++
        toString bytes) .refused)),[]⟩
    else
      let leftover := reader.buffered
      let exact : TakeExactly := ⟨length,0⟩
      if leftover = [] then ⟨.body exact,[]⟩
      else
        let written := exact.transform (leftover.take (min leftover.length length))
        ⟨.body written.2,written.1⟩
  | reply => ⟨.done (.error (toError reply)),[]⟩

def awaited (length : Nat) (reader : LineReader) : Receiving :=
  match reader.next with
  | none => ⟨.header reader,[]⟩
  | some (.error message) => ⟨.done (.error (.unavailable message)),[]⟩
  | some (.ok reply) => announced length reader reply

def step (parse : List Char → Option Reply) (length : Nat) (receiving : Receiving) (event : SocketEvent) : Receiving :=
  match receiving.phase,event with
  | .header reader,.data chunk => awaited length (reader.onData parse chunk)
  | .header reader,.ended => awaited length (reader.fail "the agent closed the data connection without answering")
  | .header reader,.failed message => awaited length (reader.fail message)
  | .body exact,.data chunk =>
    ⟨.body (exact.transform chunk).2,receiving.delivered ++ (exact.transform chunk).1⟩
  | .body exact,.ended =>
    { receiving with phase := .done (if exact.seen < length then
        .error (.transferFailed ("the agent sent " ++ toString exact.seen ++ " of the " ++ toString length ++
          " bytes it announced") .io)
      else .ok exact.seen) }
  | .body _,.failed message => { receiving with phase := .done (.error (.broken message)) }
  | .done _,_ => receiving

/-- `AgentDataService.receive` from the moment its request is written. -/
def receive (parse : List Char → Option Reply) (length : Nat) (events : List SocketEvent) : Receiving :=
  events.foldl (step parse length) ⟨.header .expecting,[]⟩

structure Body where
  chunks : List (List UInt8)
  failure : Option String

structure ExactLength where
  declared : Nat
  seen : Nat
  digest : List UInt8

def ExactLength.transform (chunk : List UInt8) (exact : ExactLength) : Except Failure (List UInt8) × ExactLength :=
  let seen := exact.seen + chunk.length
  if exact.declared < seen then
    (.error (.transferFailed ("the body is longer than the declared " ++ toString exact.declared ++ " bytes") .refused),
      { exact with seen })
  else (.ok chunk,{ exact with seen, digest := exact.digest ++ chunk })

def pipeline (failure : Option String) : List (List UInt8) → ExactLength → List UInt8 × ExactLength × Option Failure
  | [],exact => ([],exact,failure.map .broken)
  | chunk::rest,exact =>
    match exact.transform chunk with
    | (.error error,after) => ([],after,some error)
    | (.ok pushed,after) =>
      let later := pipeline failure rest after
      (pushed ++ later.1,later.2)

structure Sent where
  outcome : Except Failure Nat
  forwarded : List UInt8
  hashed : List UInt8

/-- `AgentDataService.send` from the moment its preamble is written; `ready` and `stored` are what the
reader answers the first and the second time. -/
def send (declared : Nat) (body : Body) (ready stored : Except String Reply) : Sent :=
  match ready with
  | .error message => ⟨.error (.unavailable message),[],[]⟩
  | .ok (.known .ready) =>
    let piped := pipeline body.failure body.chunks ⟨declared,0,[]⟩
    let outcome :=
      match piped.2.2,stored with
      | some failure,_ => .error failure
      | none,.error message => .error (.unavailable message)
      | none,.ok (.known (.stored bytes)) => .ok bytes
      | none,.ok reply => .error (toError reply)
    ⟨outcome,piped.1,piped.2.1.digest⟩
  | .ok reply => ⟨.error (toError reply),[],[]⟩

def header (bytes : List UInt8) : Option (List UInt8 × List UInt8) :=
  match _found : firstLine bytes with
  | none => none
  | some (line,rest) => if (decode line).all JsString.isSpace then header rest else some (line,rest)
termination_by bytes.length
decreasing_by
  rw [firstLine_some _found]
  simp only [length_append,length_cons]
  omega

def unended (bytes : List UInt8) : List UInt8 :=
  match _found : firstLine bytes with
  | none => bytes
  | some (line,rest) => if (decode line).all JsString.isSpace then unended rest else bytes
termination_by bytes.length
decreasing_by
  rw [firstLine_some _found]
  simp only [length_append,length_cons]
  omega

theorem header_some (found : firstLine bytes = some (line,rest)) :
    header bytes = if (decode line).all JsString.isSpace then header rest else some (line,rest) := by
  rw [header]
  split
  next none => rw [found] at none; cases none
  next other more same =>
    rw [found] at same
    cases same
    rfl

theorem unended_some (found : firstLine bytes = some (line,rest)) :
    unended bytes = if (decode line).all JsString.isSpace then unended rest else bytes := by
  rw [unended]
  split
  next none => rw [found] at none; cases none
  next other more same =>
    rw [found] at same
    cases same
    rfl

theorem header_none (none : firstLine bytes = none) : header bytes = Option.none ∧ unended bytes = bytes := by
  constructor
  · rw [header]
    split
    next => rfl
    next line rest found => rw [none] at found; cases found
  · rw [unended]
    split
    next => rfl
    next line rest found => rw [none] at found; cases found

theorem header_append (found : header bytes = some (line,rest)) (more : List UInt8) :
    header (bytes ++ more) = some (line,rest ++ more) := by
  induction bytes using header.induct with
  | case1 bytes none =>
    rw [(header_none none).1] at found
    cases found
  | case2 bytes first after inner blank ih =>
    rw [header_some inner,if_pos blank] at found
    rw [header_some (firstLine_append inner more),if_pos blank]
    exact ih found
  | case3 bytes first after inner written =>
    rw [header_some inner,if_neg written] at found
    rw [header_some (firstLine_append inner more),if_neg written]
    cases found
    rfl

theorem header_unended (absent : header bytes = none) (more : List UInt8) :
    header (unended bytes ++ more) = header (bytes ++ more) ∧ unended (unended bytes ++ more) = unended (bytes ++ more) := by
  induction bytes using header.induct with
  | case1 bytes none => rw [(header_none none).2]; exact ⟨rfl,rfl⟩
  | case2 bytes first after inner blank ih =>
    rw [header_some inner,if_pos blank] at absent
    rw [unended_some inner,if_pos blank,header_some (firstLine_append inner more),if_pos blank,
      unended_some (firstLine_append inner more),if_pos blank]
    exact ih absent
  | case3 bytes first after inner written =>
    rw [header_some inner,if_neg written] at absent
    cases absent

def LineReader.holding (bytes : List UInt8) : LineReader := ⟨bytes,[],false,true,none⟩

private theorem scan_none (parse : List Char → Option Reply) (none : firstLine bytes = none) :
    (LineReader.holding bytes).scan parse = (LineReader.holding bytes) := by
  rw [LineReader.scan,if_neg (show ¬(LineReader.holding bytes).stopped = true from Bool.false_ne_true)]
  split
  next => rfl
  next line rest found =>
    change firstLine bytes = _ at found
    rw [none] at found
    cases found

private theorem scan_some (parse : List Char → Option Reply)
    (found : firstLine bytes = some (line,rest)) :
    (LineReader.holding bytes).scan parse =
      if (decode line).all JsString.isSpace then (LineReader.holding rest).scan parse
      else match parse (decode line) with
      | none => (LineReader.holding rest).fail
          ("unparseable reply: " ++ String.ofList ((decode line).take 120))
      | some reply => ⟨rest,[reply],true,true,none⟩ := by
  rw [LineReader.scan,if_neg (show ¬(LineReader.holding bytes).stopped = true from Bool.false_ne_true)]
  split
  next none =>
    change firstLine bytes = _ at none
    rw [none] at found
    cases found
  next other more same =>
    change firstLine bytes = _ at same
    rw [found] at same
    cases same
    split_ifs
    · rfl
    · cases parse (decode line) with
      | none => rfl
      | some reply => rfl

theorem transform_take (chunk : List UInt8) (exact : TakeExactly) :
    exact.transform chunk = (chunk.take (exact.wanted - exact.seen),
      { exact with seen := exact.seen + min (exact.wanted - exact.seen) chunk.length }) := by
  unfold TakeExactly.transform
  dsimp only
  split_ifs with full
  · rw [full,Nat.zero_min,take_zero,Nat.add_zero]
  · rw [length_take,← take_take,take_length]
    congr 2
    rw [Nat.min_assoc,Nat.min_self]

def reading (parse : List Char → Option Reply) (length : Nat) (bytes : List UInt8) : Receiving :=
  match header bytes with
  | none => ⟨.header (LineReader.holding (unended bytes)),[]⟩
  | some (line,payload) =>
    match parse (decode line) with
    | none => ⟨.done (.error (.unavailable ("unparseable reply: " ++ String.ofList ((decode line).take 120)))),[]⟩
    | some (.known (.sending announced)) =>
      if announced ≠ length then
        ⟨.done (.error (.transferFailed ("asked for " ++ toString length ++ " bytes, the agent announced " ++
          toString announced) .refused)),[]⟩
      else ⟨.body ⟨length,min length payload.length⟩,payload.take length⟩
    | some reply => ⟨.done (.error (toError reply)),[]⟩

private theorem announced_reading (length : Nat) (payload : List UInt8) :
    announced length ⟨payload,[.known (.sending length)],true,true,none⟩ (.known (.sending length)) =
      ⟨.body ⟨length,min length payload.length⟩,payload.take length⟩ := by
  unfold announced
  dsimp only
  rw [if_neg (not_not.mpr rfl)]
  split_ifs with empty
  · rw [empty,take_nil,length_nil,Nat.min_zero]
  · have pushed : payload.take (min length (min payload.length length)) = payload.take length := by
      rw [Nat.min_comm payload.length length,← Nat.min_assoc,Nat.min_self,← take_take,take_length]
    rw [transform_take,Nat.sub_zero,Nat.zero_add,length_take,take_take]
    dsimp only
    rw [pushed]
    congr 2
    congr 1
    omega

section

variable (parse : List Char → Option Reply)
include parse

theorem awaited_scan (length : Nat) (bytes : List UInt8) :
    awaited length ((LineReader.holding bytes).scan parse) = reading parse length bytes := by
  induction bytes using header.induct with
  | case1 bytes none =>
    rw [scan_none parse none,reading,(header_none none).1]
    dsimp only
    rw [(header_none none).2]
    rfl
  | case2 bytes first after inner blank ih =>
    rw [scan_some parse inner,if_pos blank,ih,reading,reading,header_some inner,if_pos blank,unended_some inner,if_pos blank]
  | case3 bytes first after inner written =>
    rw [scan_some parse inner,if_neg written,reading,header_some inner,if_neg written]
    dsimp only
    cases parse (decode first) with
    | none => rfl
    | some reply =>
      cases reply with
      | other status => rfl
      | known answer =>
        cases answer with
        | ready => rfl
        | stored bytes => rfl
        | failed reason kind => rfl
        | sending bytes =>
          change announced length ⟨after,[.known (.sending bytes)],true,true,none⟩ (.known (.sending bytes)) = _
          by_cases same : bytes = length
          · subst same
            rw [announced_reading]
            dsimp only
            rw [if_neg (not_not.mpr rfl)]
          · unfold announced
            dsimp only
            rw [if_pos same,if_pos same]

theorem step_reading (length : Nat) (bytes chunk : List UInt8) :
    step parse length (reading parse length bytes) (.data chunk) = reading parse length (bytes ++ chunk) := by
  cases found : header bytes with
  | none =>
    obtain ⟨heads,rests⟩ := header_unended found chunk
    have waiting : reading parse length bytes = ⟨.header (LineReader.holding (unended bytes)),[]⟩ := by
      rw [reading,found]
    have same : reading parse length (unended bytes ++ chunk) = reading parse length (bytes ++ chunk) := by
      rw [reading,heads,rests]
      rfl
    rw [waiting,← same]
    exact awaited_scan parse length (unended bytes ++ chunk)
  | some split =>
    obtain ⟨line,payload⟩ := split
    rw [reading,reading,found,header_append found]
    dsimp only
    cases parse (decode line) with
    | none => rfl
    | some reply =>
      cases reply with
      | other status => rfl
      | known answer =>
        cases answer with
        | ready => rfl
        | stored bytes => rfl
        | failed reason kind => rfl
        | sending bytes =>
          dsimp only
          split_ifs with differs
          · rfl
          · change (⟨.body _,_⟩ : Receiving) = _
            rw [transform_take]
            dsimp only
            congr 2
            · congr 1
              rw [length_append]
              omega
            · rw [take_append]
              congr 2
              omega

theorem receive_reading (length : Nat) (segments : List (List UInt8)) :
    receive parse length (segments.map .data) = reading parse length segments.flatten := by
  have whole (bytes : List UInt8) :
      (segments.map SocketEvent.data).foldl (step parse length) (reading parse length bytes) =
        reading parse length (bytes ++ segments.flatten) := by
    induction segments generalizing bytes with
    | nil => rw [flatten_nil,append_nil]; rfl
    | cons segment rest ih =>
      rw [map_cons,foldl_cons,step_reading,ih,flatten_cons,append_assoc]
  have start : reading parse length [] = ⟨.header .expecting,[]⟩ := by
    rw [← awaited_scan,scan_none parse rfl]
    rfl
  rw [receive,← start,whole,nil_append]

theorem reading_cases (length : Nat) (bytes : List UInt8) :
    (∃ line payload, header bytes = some (line,payload) ∧ parse (decode line) = some (.known (.sending length)) ∧
      reading parse length bytes = ⟨.body ⟨length,min length payload.length⟩,payload.take length⟩) ∨
    (∀ line payload, header bytes = some (line,payload) → parse (decode line) ≠ some (.known (.sending length))) ∧
      ((∃ held, reading parse length bytes = ⟨.header (.holding held),[]⟩) ∨
        ∃ failure, reading parse length bytes = ⟨.done (.error failure),[]⟩) := by
  unfold reading
  cases found : header bytes with
  | none => exact .inr ⟨nofun,.inl ⟨_,rfl⟩⟩
  | some split =>
    obtain ⟨line,payload⟩ := split
    have only {reply : Option Reply} (read : parse (decode line) = reply) (differs : reply ≠ some (.known (.sending length))) :
        ∀ other more, some (line,payload) = some (other,more) → parse (decode other) ≠ some (.known (.sending length)) := by
      intro other more same
      cases same
      rwa [read]
    dsimp only
    cases read : parse (decode line) with
    | none => exact .inr ⟨only read nofun,.inr ⟨_,rfl⟩⟩
    | some reply =>
      cases reply with
      | other status => exact .inr ⟨only read nofun,.inr ⟨_,rfl⟩⟩
      | known answer =>
        cases answer with
        | ready | stored bytes | failed reason kind => exact .inr ⟨only read nofun,.inr ⟨_,rfl⟩⟩
        | sending bytes =>
          dsimp only
          split_ifs with differs
          · refine .inr ⟨only read (fun same => ?_),.inr ⟨_,rfl⟩⟩
            cases same
            exact differs rfl
          · have same := not_not.mp differs
            subst same
            exact .inl ⟨line,payload,rfl,read,rfl⟩

private theorem receive_event (length : Nat) (segments : List (List UInt8)) (event : SocketEvent) :
    receive parse length (segments.map .data ++ [event]) = step parse length (reading parse length segments.flatten) event := by
  rw [← receive_reading,receive,receive,foldl_append]
  rfl

theorem receive_ended (length : Nat) (segments : List (List UInt8)) :
    (∃ line payload, header segments.flatten = some (line,payload) ∧ parse (decode line) = some (.known (.sending length)) ∧
      length ≤ payload.length ∧
      receive parse length (segments.map .data ++ [.ended]) = ⟨.done (.ok length),payload.take length⟩) ∨
    (∀ line payload, header segments.flatten = some (line,payload) → parse (decode line) = some (.known (.sending length)) →
      payload.length < length) ∧
      ∃ failure delivered, receive parse length (segments.map .data ++ [.ended]) = ⟨.done (.error failure),delivered⟩ ∧
        (delivered = [] ∨ delivered.length < length ∧ ∃ line, header segments.flatten = some (line,delivered)) := by
  rw [receive_event]
  rcases reading_cases parse length segments.flatten with ⟨line,payload,found,announced,stands⟩ | ⟨absent,⟨held,stands⟩ | ⟨failure,stands⟩⟩
  · rw [stands]
    by_cases enough : length ≤ payload.length
    · refine .inl ⟨line,payload,found,announced,enough,?_⟩
      unfold step
      dsimp only
      rw [Nat.min_eq_left enough,if_neg (lt_irrefl length)]
    · have less := not_le.mp enough
      refine .inr ⟨fun other more same _ => ?_,
        .transferFailed ("the agent sent " ++ toString payload.length ++ " of the " ++ toString length ++ " bytes it announced") .io,
        payload,?_,.inr ⟨less,line,found⟩⟩
      · rw [found] at same
        cases same
        exact less
      · unfold step
        dsimp only
        rw [Nat.min_eq_right less.le,take_of_length_le less.le,if_pos less]
  · rw [stands]
    exact .inr ⟨fun line payload found announced => absurd announced (absent line payload found),_,[],rfl,.inl rfl⟩
  · rw [stands]
    exact .inr ⟨fun line payload found announced => absurd announced (absent line payload found),failure,[],rfl,.inl rfl⟩

theorem receive_failed (length : Nat) (segments : List (List UInt8)) (message : String) :
    ∃ failure delivered, receive parse length (segments.map .data ++ [.failed message]) = ⟨.done (.error failure),delivered⟩ ∧
      (delivered = [] ∨ ∃ line payload, header segments.flatten = some (line,payload) ∧ delivered = payload.take length) := by
  rw [receive_event]
  rcases reading_cases parse length segments.flatten with ⟨line,payload,found,-,stands⟩ | ⟨-,⟨held,stands⟩ | ⟨failure,stands⟩⟩
  · rw [stands]
    exact ⟨.broken message,_,rfl,.inr ⟨line,payload,found,rfl⟩⟩
  · rw [stands]
    exact ⟨_,[],rfl,.inl rfl⟩
  · rw [stands]
    exact ⟨failure,[],rfl,.inl rfl⟩

end

/-! What an upload forwards, and what the agent has of it. -/

def CutThenMore (declared : Nat) (chunks : List (List UInt8)) : Prop :=
  ∃ front back, chunks = front ++ back ∧ front.flatten.length = declared ∧ back.flatten ≠ []

theorem pipeline_spec (failure : Option String) (chunks : List (List UInt8)) {exact : ExactLength} (bound : exact.seen ≤ exact.declared) :
    (pipeline failure chunks exact).1 <+: chunks.flatten ∧
    exact.seen + (pipeline failure chunks exact).1.length ≤ exact.declared ∧
    (pipeline failure chunks exact).2.1.digest = exact.digest ++ (pipeline failure chunks exact).1 ∧
    ∀ reason kind, (pipeline failure chunks exact).2.2 = some (.transferFailed reason kind) →
      ∃ front back, chunks = front ++ back ∧ (pipeline failure chunks exact).1 = front.flatten ∧ back.flatten ≠ [] := by
  induction chunks generalizing exact with
  | nil =>
    refine ⟨prefix_rfl,bound,(append_nil _).symm,fun reason kind told => ?_⟩
    cases failure with
    | none => cases told
    | some message => cases told
  | cons chunk rest ih =>
    unfold pipeline ExactLength.transform
    dsimp only
    split_ifs with more
    · refine ⟨List.nil_prefix,bound,(append_nil _).symm,fun reason kind _ => ⟨[],chunk::rest,rfl,rfl,?_⟩⟩
      intro empty
      have none : chunk = [] := (append_eq_nil_iff.mp empty).1
      rw [none,length_nil] at more
      omega
    · have fits := not_lt.mp more
      obtain ⟨front,short,hashed,cut⟩ := @ih ⟨exact.declared,exact.seen + chunk.length,exact.digest ++ chunk⟩ fits
      dsimp only at short hashed ⊢
      refine ⟨prefix_append_right_inj chunk |>.mpr front,?_,?_,fun reason kind told => ?_⟩
      · rw [length_append]
        omega
      · rw [hashed,append_assoc]
      · obtain ⟨before,after,same,forwarded,left⟩ := cut reason kind told
        exact ⟨chunk::before,after,by rw [same]; rfl,by rw [forwarded]; rfl,left⟩

end Depsis.Agent.DataClient

import Depsis.Agent.Requests
import Depsis.Agent.UploadAtomic

/-! What the agent answers depends on the first line alone, but for what came behind the newline
in the same read and for how long the text of all of it is.
-/
namespace Depsis.Agent.Requests

open Depsis.Foundation Depsis.Foundation.Streams Depsis.Foundation.Json DataChannel Envelope List Bool

structure Smooth (wire : Wire) : Prop where
  prompt : ∀ at' ∈ wire.elapsed, at' < IO_TIMEOUT
  armed : ∀ arm ∈ wire.arms, arm = none
  pieces : ∀ arrival ∈ wire.inbound, arrival = .interrupted ∨ ∃ piece, arrival = .data piece ∧ piece ≠ []
  sends : ∀ outcome ∈ wire.outbound.outcomes, outcome = .whole
  flushes : ∀ flush ∈ wire.flushes, flush = none

def gathered (buf : List UInt8) (arrivals : List (Arrival IoError)) : List UInt8 :=
  let room := MAX_REQUEST_BYTES - buf.length
  if _full : room = 0 then buf
  else
    let after := (Streams.read (min room CHUNK) arrivals).2
    match _reading : (Streams.read (min room CHUNK) arrivals).1 with
    | .bytes [] | .failed _ => buf
    | .interrupted => gathered buf after
    | .bytes (first::more) => if 10 ∈ first::more then buf ++ first::more else gathered (buf ++ first::more) after
termination_by weight arrivals
decreasing_by
  all_goals
    refine read_weight (by unfold CHUNK; omega) ?_
    rw [_reading]
    simp

inductive Outcome where
  | nothing
  | tooLarge
  | malformed
  | request (requestJson correlationId reason : List Char)
  deriving DecidableEq

def outcomeOf : Option Answer → Outcome
  | none => .nothing
  | some (.refused _) => .tooLarge
  | some (.failed _) => .malformed
  | some (.handled requestJson correlationId reason) => .request requestJson correlationId reason

def firstLine (stream : List UInt8) : List UInt8 := stream.takeWhile (fun byte => byte != 10)

def behind (bytes : List UInt8) : List Char := Utf8.decode (bytes.dropWhile (fun byte => byte != 10)).tail

variable (representable : List Char → Bool) (explain : List Char → String) (reencode : Value → List Char)

def envelopeOf (bytes : List UInt8) : Except String (List Char × List Char × List Char) :=
  splitEnvelope representable explain reencode (Text.trimEnd (Utf8.decode bytes))

def meant : Except String (List Char × List Char × List Char) → Outcome
  | .error _ => .malformed
  | .ok (correlationId,reason,requestJson) => .request requestJson correlationId reason

def calledFor (stream : List UInt8) : Outcome :=
  if stream = [] then .nothing
  else if MAX_REQUEST_BYTES ≤ (firstLine stream).length then .tooLarge
  else meant (envelopeOf representable explain reencode (firstLine stream))

/-- What was read makes no difference to the line: it is too long, or all of it is short enough and
nothing but blanks came behind the line, or the line is no request with or without it.
-/
def Harmless (line read : List UInt8) : Prop :=
  MAX_REQUEST_BYTES ≤ line.length ∨
    ((Utf8.encode (Utf8.decode read)).length < MAX_REQUEST_BYTES ∧
      ((behind read).all Text.whitespace = true ∨
        ((envelopeOf representable explain reencode line).isOk = false ∧ (envelopeOf representable explain reencode read).isOk = false)))

variable {representable explain reencode} {wire : Wire}

private theorem Smooth.now (smooth : Smooth wire) :
    wire.now.1 < IO_TIMEOUT ∧ wire.now.2.armRead.1 = none ∧ Smooth wire.now.2.armRead.2 := by
  obtain ⟨prompt,armed,pieces,sends,flushes⟩ := smooth
  refine ⟨?_,?_,?_⟩
  · unfold Wire.now
    cases times : wire.elapsed with
    | nil =>
      change 0 < IO_TIMEOUT
      decide
    | cons first others => exact prompt first (by rw [times]; exact mem_cons_self)
  · unfold Wire.armRead Wire.now
    dsimp only
    cases answers : wire.arms with
    | nil => rfl
    | cons first others => exact armed first (by rw [answers]; exact mem_cons_self)
  · exact ⟨fun at' member => prompt at' (mem_of_mem_tail member),fun arm member => armed arm (mem_of_mem_tail member),
      pieces,sends,flushes⟩

private theorem Smooth.read (smooth : Smooth wire) (window : Nat) :
    Smooth (wire.read window).2 ∧ (∀ error, (wire.read window).1 ≠ .failed error) ∧
      ((wire.read window).1 = .bytes [] → 0 < window → received wire.inbound = []) := by
  obtain ⟨prompt,armed,pieces,sends,flushes⟩ := smooth
  unfold Wire.read
  cases script : wire.inbound with
  | nil =>
    exact ⟨⟨prompt,armed,fun _ member => absurd member not_mem_nil,sends,flushes⟩,by rintro _ ⟨⟩,fun _ _ => rfl⟩
  | cons arrival others =>
    rw [script] at pieces
    obtain ⟨first,later⟩ := forall_mem_cons.mp pieces
    rcases first with rfl | ⟨piece,rfl,filled⟩
    · exact ⟨⟨prompt,armed,later,sends,flushes⟩,by rintro _ ⟨⟩,by rintro ⟨⟩⟩
    · rw [Streams.read]
      split
      · exact ⟨⟨prompt,armed,later,sends,flushes⟩,by rintro _ ⟨⟩,fun same _ => absurd (Reading.bytes.inj same) filled⟩
      · next longer =>
        have left : piece.drop window ≠ [] := fun none => longer (drop_eq_nil_iff.mp none)
        refine ⟨⟨prompt,armed,forall_mem_cons.mpr ⟨.inr ⟨_,rfl,left⟩,later⟩,sends,flushes⟩,by rintro _ ⟨⟩,?_⟩
        intro same room
        rcases take_eq_nil_iff.mp (Reading.bytes.inj same) with none | none
        · omega
        · exact absurd none filled

private structure Front (whole got : List UInt8) : Prop where
  front : got <+: whole
  capped : got.length ≤ MAX_REQUEST_BYTES
  ended : 10 ∈ got ∨ got.length = MAX_REQUEST_BYTES ∨ got = whole

private theorem gathered_step (buf : List UInt8) (arrivals : List (Arrival IoError)) (space : ¬MAX_REQUEST_BYTES - buf.length = 0) :
    gathered buf arrivals = match (Streams.read (min (MAX_REQUEST_BYTES - buf.length) CHUNK) arrivals).1 with
      | .bytes [] | .failed _ => buf
      | .interrupted => gathered buf (Streams.read (min (MAX_REQUEST_BYTES - buf.length) CHUNK) arrivals).2
      | .bytes (first::more) =>
        if 10 ∈ first::more then buf ++ first::more
        else gathered (buf ++ first::more) (Streams.read (min (MAX_REQUEST_BYTES - buf.length) CHUNK) arrivals).2 := by
  rw [gathered,dif_neg space]
  split <;> simp_all

private theorem readLoop_smooth (buf : List UInt8) (wire : Wire) (smooth : Smooth wire) (room : buf.length ≤ MAX_REQUEST_BYTES) :
    (readLoop buf wire).1 = .ok (gathered buf wire.inbound) ∧ Smooth (readLoop buf wire).2 ∧
      Front (buf ++ received wire.inbound) (gathered buf wire.inbound) := by
  fun_induction readLoop buf wire with
  | case1 buf wire timed late => exact absurd smooth.now.1 (Nat.not_lt.mpr late)
  | case2 buf wire timed early error failed =>
    rw [smooth.now.2.1] at failed
    cases failed
  | case3 buf wire timed early armed space full =>
    rw [gathered,dif_pos full]
    exact ⟨rfl,smooth.now.2.2,⟨prefix_append _ _,room,.inr (.inl (by omega))⟩⟩
  | case4 buf wire timed early armed space full after reading =>
    have nothing := (smooth.now.2.2.read (min space CHUNK)).2.2 reading (by unfold CHUNK; omega)
    change received wire.inbound = [] at nothing
    have left := (smooth.now.2.2.read (min space CHUNK)).1
    change (Streams.read (min space CHUNK) wire.inbound).1 = _ at reading
    rw [gathered_step buf wire.inbound full,reading,nothing,append_nil]
    exact ⟨rfl,left,⟨prefix_refl _,room,.inr (.inr rfl)⟩⟩
  | case5 buf wire timed early armed space full after reading ih =>
    obtain ⟨got,left,front⟩ := ih (smooth.now.2.2.read _).1 room
    have same : received wire.inbound = received after.inbound := interrupted_received timed.armRead.2 reading
    change (Streams.read (min space CHUNK) wire.inbound).1 = _ at reading
    rw [gathered_step buf wire.inbound full,reading,same]
    exact ⟨got,left,front⟩
  | case6 buf wire timed early armed space full after error failed =>
    exact absurd failed ((smooth.now.2.2.read _).2.1 error)
  | case7 buf wire timed early armed space full after first more reading newline =>
    have arrived : received wire.inbound = first::more ++ received after.inbound := chunk_received timed.armRead.2 reading
    have bounded := read_chunk_length (min space CHUNK) timed.armRead.2.inbound
    have left := (smooth.now.2.2.read (min space CHUNK)).1
    change (timed.armRead.2.read (min space CHUNK)).1.chunk.length ≤ _ at bounded
    rw [reading] at bounded
    change (first::more).length ≤ _ at bounded
    change (Streams.read (min space CHUNK) wire.inbound).1 = _ at reading
    rw [gathered_step buf wire.inbound full,reading]
    dsimp only
    rw [if_pos newline,arrived]
    refine ⟨rfl,left,⟨⟨received after.inbound,by rw [append_assoc]⟩,?_,.inl (mem_append_right _ newline)⟩⟩
    rw [length_append]
    omega
  | case8 buf wire timed early armed space full after first more reading bare ih =>
    have arrived : received wire.inbound = first::more ++ received after.inbound := chunk_received timed.armRead.2 reading
    have bounded := read_chunk_length (min space CHUNK) timed.armRead.2.inbound
    change (timed.armRead.2.read (min space CHUNK)).1.chunk.length ≤ _ at bounded
    rw [reading] at bounded
    change (first::more).length ≤ _ at bounded
    obtain ⟨got,left,front⟩ := ih (smooth.now.2.2.read _).1 (by rw [length_append]; omega)
    change (Streams.read (min space CHUNK) wire.inbound).1 = _ at reading
    rw [gathered_step buf wire.inbound full,reading]
    dsimp only
    rw [if_neg bare,arrived,← append_assoc]
    exact ⟨got,left,front⟩

private theorem writeAll_smooth (smooth : Smooth wire) (data : List UInt8) :
    (wire.writeAll data).1 = none ∧ Smooth (wire.writeAll data).2 := by
  obtain ⟨prompt,armed,pieces,sends,flushes⟩ := smooth
  have each : (wire.outbound.writeAll data).1 = none ∧ ∀ outcome ∈ (wire.outbound.writeAll data).2.outcomes, outcome = .whole := by
    unfold Sink.writeAll
    split
    · exact ⟨rfl,sends⟩
    split
    · exact ⟨rfl,sends⟩
    · next rest script =>
      rw [script] at sends
      exact ⟨rfl,(forall_mem_cons.mp sends).2⟩
    · next count error rest script =>
      rw [script] at sends
      exact absurd (forall_mem_cons.mp sends).1 nofun
  exact ⟨each.1,prompt,armed,pieces,each.2,flushes⟩

private theorem respond_smooth (render : Answer → List UInt8) (answer : Answer) (smooth : Smooth wire) :
    (respond render answer wire).1 = none := by
  obtain ⟨wrote,left⟩ := writeAll_smooth smooth (render answer ++ [10])
  have flushed : (wire.writeAll (render answer ++ [10])).2.flush.1 = none := by
    unfold Wire.flush
    cases script : (wire.writeAll (render answer ++ [10])).2.flushes with
    | nil => rfl
    | cons first others => exact left.flushes first (by rw [script]; exact mem_cons_self)
  unfold respond
  dsimp only
  rw [wrote]
  dsimp only
  rw [flushed]

private theorem serveOne_smooth (render : Answer → List UInt8) (smooth : Smooth wire) :
    (serveOne representable explain reencode render wire).1 =
      .ok (answerTo representable explain reencode (Utf8.decode (gathered [] wire.inbound))) ∧
    Front (received wire.inbound) (gathered [] wire.inbound) := by
  obtain ⟨got,left,front⟩ := readLoop_smooth [] wire smooth (Nat.zero_le _)
  refine ⟨?_,front⟩
  have line : (readRequestLine wire).1 = .ok (Utf8.decode (gathered [] wire.inbound)) := by
    unfold readRequestLine
    rw [got]
    rfl
  unfold serveOne
  rw [line]
  dsimp only
  cases answerTo representable explain reencode (Utf8.decode (gathered [] wire.inbound)) with
  | none => rfl
  | some answer =>
    have sent : (respond render answer (readRequestLine wire).2).1 = none := respond_smooth render answer left
    dsimp only
    rw [sent]

private theorem firstLine_of {line rest : List UInt8} (clean : 10 ∉ line) : firstLine (line ++ 10::rest) = line :=
  preambleBytes_append clean

private theorem firstLine_bare {bytes : List UInt8} (clean : 10 ∉ bytes) : firstLine bytes = bytes := by
  refine takeWhile_eq_self_iff.mpr ?_
  intro byte mem
  exact bne_iff_ne.mpr (fun same : byte = 10 => clean (same ▸ mem))

private theorem split_line {bytes : List UInt8} (newline : 10 ∈ bytes) :
    ∃ line rest, bytes = line ++ 10::rest ∧ 10 ∉ line := by
  obtain ⟨line,rest,same,clean⟩ := eq_append_cons_of_mem newline
  exact ⟨line,rest,same,clean⟩

private theorem front_cases {whole got : List UInt8} (front : Front whole got) :
    (MAX_REQUEST_BYTES ≤ (firstLine whole).length ∧ MAX_REQUEST_BYTES ≤ got.length) ∨
      ((firstLine whole).length < MAX_REQUEST_BYTES ∧
        ((∃ rest, got = firstLine whole ++ 10::rest ∧ 10 ∉ firstLine whole) ∨
          (got = firstLine whole ∧ got = whole ∧ 10 ∉ got))) := by
  obtain ⟨⟨more,same⟩,capped,ended⟩ := front
  by_cases newline : 10 ∈ got
  · obtain ⟨line,rest,rfl,clean⟩ := split_line newline
    have first : firstLine whole = line := by
      rw [← same,append_assoc,cons_append,firstLine_of clean]
    rw [first]
    rw [length_append,length_cons] at capped
    exact .inr ⟨by omega,.inl ⟨rest,rfl,clean⟩⟩
  · rcases ended with mem | full | rfl
    · exact absurd mem newline
    · have long : got.length ≤ (firstLine whole).length := by
        have kept : firstLine whole = got ++ firstLine more := by
          rw [← same]
          unfold firstLine
          refine takeWhile_append_of_pos ?_
          intro byte mem
          exact bne_iff_ne.mpr (fun same : byte = 10 => newline (same ▸ mem))
        rw [kept,length_append]
        omega
      exact .inl ⟨by omega,by omega⟩
    · rw [firstLine_bare newline]
      by_cases long : MAX_REQUEST_BYTES ≤ got.length
      · exact .inl ⟨long,long⟩
      · exact .inr ⟨by omega,.inr ⟨rfl,rfl,newline⟩⟩

private theorem trimEnd_append {back : List Char} (front : List Char) (blank : back.all Text.whitespace = true) :
    Text.trimEnd (front ++ back) = Text.trimEnd front := by
  unfold Text.trimEnd
  rw [reverse_append,dropWhile_append_of_pos]
  intro char mem
  exact all_eq_true.mp blank char (mem_reverse.mp mem)

private theorem trimEnd_split (text : List Char) : ∃ blanks, text = Text.trimEnd text ++ blanks ∧ blanks.all Text.whitespace = true := by
  refine ⟨(text.reverse.takeWhile Text.whitespace).reverse,?_,?_⟩
  · unfold Text.trimEnd
    rw [← reverse_append,takeWhile_append_dropWhile,reverse_reverse]
  · exact all_eq_true.mpr (fun char mem => mem_takeWhile_imp (mem_reverse.mp mem))

private theorem trimEnd_solid {back : List Char} (front : List Char) (solid : back.all Text.whitespace = false) :
    ∃ more last, Text.trimEnd (front ++ back) = front ++ (more ++ [last]) ∧ Text.whitespace last = false := by
  unfold Text.trimEnd
  have some' : back.reverse.dropWhile Text.whitespace ≠ [] := by
    intro none
    rw [dropWhile_eq_nil_iff] at none
    refine absurd (all_eq_true.mpr (fun char mem => none char (mem_reverse.mpr mem))) ?_
    rw [solid]
    exact false_ne_true
  obtain ⟨last,more,same⟩ := exists_cons_of_ne_nil some'
  have dropped : (front ++ back).reverse.dropWhile Text.whitespace = last::more ++ front.reverse := by
    rw [reverse_append,dropWhile_append,same]
    rfl
  have stops : Text.whitespace last = false := by
    have head := head?_dropWhile_not Text.whitespace back.reverse
    rw [same] at head
    exact head
  exact ⟨more.reverse,last,by rw [dropped]; simp,stops⟩

private theorem blank_whitespace {char : Char} (solid : Text.whitespace char = false) : isBlank char = false := by
  cases blank : isBlank char with
  | false => rfl
  | true =>
    simp only [isBlank,or_eq_true,decide_eq_true_eq] at blank
    rcases blank with ((rfl | rfl) | rfl) | rfl <;> cases solid

private theorem split_object {text : List Char} (accepted : (splitEnvelope representable explain reencode text).isOk = true) :
    ∃ fields, read representable text = some (.object fields) := by
  unfold splitEnvelope fromStr at accepted
  cases got : read representable text with
  | none =>
    rw [got] at accepted
    cases accepted
  | some value =>
    cases value with
    | object fields => exact ⟨fields,rfl⟩
    | _ =>
      rw [got] at accepted
      cases accepted

private theorem accepted_alone {line rest : List UInt8}
    (accepted : (envelopeOf representable explain reencode line).isOk = true)
    (solid : (Utf8.decode rest).all Text.whitespace = false) :
    (envelopeOf representable explain reencode (line ++ 10::rest)).isOk = false := by
  obtain ⟨fields,got⟩ := split_object accepted
  obtain ⟨blanks,whole,_⟩ := trimEnd_split (Utf8.decode line)
  have more : ('\n'::Utf8.decode rest).all Text.whitespace = false := by
    rw [all_cons,solid,Bool.and_false]
  obtain ⟨later,last,trimmed,stops⟩ := trimEnd_solid (Utf8.decode line) more
  have longer := read_append representable got (blanks ++ (later ++ [last]))
  rw [← append_assoc,← whole,← trimmed,← Utf8.decode_line,all_append,all_append] at longer
  simp only [all_cons,blank_whitespace stops,Bool.false_and,Bool.and_false,Bool.false_eq_true,if_false] at longer
  unfold envelopeOf splitEnvelope fromStr
  rw [longer]
  rfl

private theorem decode_some {bytes : List UInt8} (some' : bytes ≠ []) : Utf8.decode bytes ≠ [] := by
  intro none
  have size := Utf8.length_le_encode_decode bytes
  rw [none] at size
  exact some' (length_eq_zero_iff.mp (Nat.le_zero.mp size))

private theorem outcome_large {got : List UInt8} (large : MAX_REQUEST_BYTES ≤ (Utf8.encode (Utf8.decode got)).length) :
    outcomeOf (answerTo representable explain reencode (Utf8.decode got)) = .tooLarge := by
  have some' : Utf8.decode got ≠ [] := by
    intro none
    rw [none] at large
    exact absurd large (by decide)
  rw [answerTo,if_neg some',if_pos large]
  rfl

private theorem outcome_small {got : List UInt8} (some' : got ≠ [])
    (small : (Utf8.encode (Utf8.decode got)).length < MAX_REQUEST_BYTES) :
    outcomeOf (answerTo representable explain reencode (Utf8.decode got)) =
      meant (envelopeOf representable explain reencode got) := by
  rw [answerTo,if_neg (decode_some some'),if_neg (Nat.not_le.mpr small),envelopeOf]
  cases splitEnvelope representable explain reencode (Text.trimEnd (Utf8.decode got)) with
  | error why => rfl
  | ok parts => rfl

private theorem meant_large (result : Except String (List Char × List Char × List Char)) : Outcome.tooLarge ≠ meant result := by
  intro same
  cases result <;> cases same

private theorem meant_refused {result : Except String (List Char × List Char × List Char)} (refused : result.isOk = false) :
    meant result = .malformed := by
  cases result with
  | error why => rfl
  | ok parts => cases refused

private theorem meant_accepted {result : Except String (List Char × List Char × List Char)} (accepted : result.isOk = true) :
    meant result ≠ .malformed := by
  cases result with
  | error why => cases accepted
  | ok parts => exact nofun

private theorem outcome_line {line rest : List UInt8} (short : line.length < MAX_REQUEST_BYTES) (clean : 10 ∉ line) :
    outcomeOf (answerTo representable explain reencode (Utf8.decode (line ++ 10::rest))) =
        meant (envelopeOf representable explain reencode line) ↔
      Harmless representable explain reencode line (line ++ 10::rest) := by
  have later : behind (line ++ 10::rest) = Utf8.decode rest := by
    unfold behind
    rw [dropWhile_append_of_pos (fun byte mem => bne_iff_ne.mpr (fun same : byte = 10 => clean (same ▸ mem))),
      dropWhile_cons_of_neg (by decide)]
    rfl
  unfold Harmless
  rw [later]
  by_cases large : MAX_REQUEST_BYTES ≤ (Utf8.encode (Utf8.decode (line ++ 10::rest))).length
  · rw [outcome_large large]
    refine ⟨fun same => absurd same (meant_large _),?_⟩
    rintro (long | ⟨small,_⟩)
    · omega
    · omega
  have small := Nat.not_le.mp large
  rw [outcome_small (by simp) small]
  cases blank : (Utf8.decode rest).all Text.whitespace with
  | true =>
    have same : envelopeOf representable explain reencode (line ++ 10::rest) = envelopeOf representable explain reencode line := by
      have blanks : ('\n'::Utf8.decode rest).all Text.whitespace = true := by rw [all_cons,blank]; rfl
      rw [envelopeOf,Utf8.decode_line,trimEnd_append _ blanks,envelopeOf]
    rw [same]
    exact ⟨fun _ => .inr ⟨small,.inl rfl⟩,fun _ => rfl⟩
  | false =>
    cases accepted : (envelopeOf representable explain reencode line).isOk with
    | true =>
      rw [meant_refused (accepted_alone accepted blank)]
      refine ⟨fun same => absurd same.symm (meant_accepted accepted),?_⟩
      rintro (long | ⟨_,none | ⟨none,_⟩⟩)
      · omega
      · cases none
      · cases none
    | false =>
      rw [meant_refused accepted]
      cases other : (envelopeOf representable explain reencode (line ++ 10::rest)).isOk with
      | true =>
        refine ⟨fun same => absurd same (meant_accepted other),?_⟩
        rintro (long | ⟨_,none | ⟨_,none⟩⟩)
        · omega
        · cases none
        · cases none
      | false => exact ⟨fun _ => .inr ⟨small,.inr ⟨rfl,rfl⟩⟩,fun _ => meant_refused other⟩

private theorem outcome_bare {line : List UInt8} (short : line.length < MAX_REQUEST_BYTES) (clean : 10 ∉ line) (some' : line ≠ []) :
    outcomeOf (answerTo representable explain reencode (Utf8.decode line)) = meant (envelopeOf representable explain reencode line) ↔
      Harmless representable explain reencode line line := by
  have later : behind line = [] := by
    unfold behind
    rw [dropWhile_eq_nil_iff.mpr (fun byte mem => bne_iff_ne.mpr (fun same : byte = 10 => clean (same ▸ mem)))]
    rfl
  unfold Harmless
  rw [later]
  by_cases large : MAX_REQUEST_BYTES ≤ (Utf8.encode (Utf8.decode line)).length
  · rw [outcome_large large]
    refine ⟨fun same => absurd same (meant_large _),?_⟩
    rintro (long | ⟨small,_⟩)
    · omega
    · omega
  have small := Nat.not_le.mp large
  rw [outcome_small some' small]
  exact ⟨fun _ => .inr ⟨small,.inl rfl⟩,fun _ => rfl⟩

private theorem answered_as_line (representable : List Char → Bool) (explain : List Char → String) (reencode : Value → List Char)
    (render : Answer → List UInt8) (smooth : Smooth wire) :
    (serveOne representable explain reencode render wire).1.map outcomeOf =
        .ok (calledFor representable explain reencode (received wire.inbound)) ↔
      Harmless representable explain reencode (firstLine (received wire.inbound)) (gathered [] wire.inbound) := by
  obtain ⟨served,front⟩ := serveOne_smooth render smooth
  rw [served]
  generalize received wire.inbound = whole at front
  generalize gathered [] wire.inbound = got at front
  change Except.ok _ = _ ↔ _
  rw [Except.ok.injEq]
  unfold calledFor
  rcases front_cases front with ⟨long,full⟩ | ⟨short,⟨rest,same,clean⟩ | ⟨same,ended,clean⟩⟩
  · have some' : whole ≠ [] := by
      rintro rfl
      exact absurd long (by decide)
    rw [if_neg some',if_pos long,outcome_large (Nat.le_trans full (Utf8.length_le_encode_decode got))]
    exact ⟨fun _ => .inl long,fun _ => rfl⟩
  · have some' : whole ≠ [] := by
      rintro rfl
      have none := prefix_nil.mp front.front
      rw [same] at none
      exact absurd none (by simp)
    rw [if_neg some',if_neg (Nat.not_le.mpr short),same]
    exact outcome_line short clean
  · by_cases none : whole = []
    · rw [if_pos none,← same,ended,none]
      exact ⟨fun _ => .inr ⟨by decide,.inl rfl⟩,fun _ => rfl⟩
    · rw [if_neg none,if_neg (Nat.not_le.mpr short),← same]
      rw [← same] at short
      exact outcome_bare short clean (by rw [ended]; exact none)

/-- The first line alone decides the answer just where what was read with it is harmless. -/
theorem answered_by_first_line (representable : List Char → Bool) (explain : List Char → String) (reencode : Value → List Char)
    (render : Answer → List UInt8) (wire : Wire) (smooth : Smooth wire) :
    (serveOne representable explain reencode render wire).1.map outcomeOf =
        .ok (calledFor representable explain reencode (received wire.inbound)) ↔
      Harmless representable explain reencode (firstLine (received wire.inbound)) (gathered [] wire.inbound) :=
  answered_as_line representable explain reencode render smooth

theorem answered_by_first_line_alone :
    (serveOne (fun _ => true) (fun _ => "") (fun _ => []) (fun _ => []) ⟨[.data [123,125,10]],[],[],⟨[],[]⟩,[]⟩).1.map outcomeOf =
        .ok (calledFor (fun _ => true) (fun _ => "") (fun _ => []) [123,125,10]) ↔
      Harmless (fun _ => true) (fun _ => "") (fun _ => []) (firstLine [123,125,10]) (gathered [] [.data [123,125,10]]) :=
  answered_by_first_line (fun _ => true) (fun _ => "") (fun _ => []) (fun _ => []) ⟨[.data [123,125,10]],[],[],⟨[],[]⟩,[]⟩
    ⟨(fun _ member => absurd member not_mem_nil),(fun _ member => absurd member not_mem_nil),
      forall_mem_cons.mpr ⟨.inr ⟨_,rfl,cons_ne_nil _ _⟩,fun _ member => absurd member not_mem_nil⟩,
      (fun _ member => absurd member not_mem_nil),fun _ member => absurd member not_mem_nil⟩

def request : List Char := "\x7b\"correlation_id\":\"a\",\"reason\":\"b\",\"request\":null\x7d".toList

def crowded : List UInt8 := Utf8.encode request ++ 10::[120]

private theorem request_accepted : (envelopeOf (fun _ => true) (fun _ => "") (fun _ => []) (Utf8.encode request)).isOk = true := by
  rw [envelopeOf,Utf8.decode_encode]
  decide +kernel

private theorem request_one_line : 10 ∉ Utf8.encode request := by
  intro mem
  have newline := Utf8.newline_of_encode mem
  exact absurd newline (by decide +kernel)

private theorem crowded_gathered : gathered [] [.data crowded] = crowded := by
  have length : crowded.length ≤ 8192 := by decide +kernel
  have newline : 10 ∈ crowded := mem_append_right _ mem_cons_self
  have read : Streams.read (min (MAX_REQUEST_BYTES - ([] : List UInt8).length) CHUNK) [(.data crowded : Arrival IoError)] = (.bytes crowded,[]) := by
    rw [Streams.read]
    exact if_pos length
  rw [gathered_step [] _ (by decide),read]
  cases same : crowded with
  | nil => rfl
  | cons first more =>
    rw [same] at newline
    exact if_pos newline

/-- One byte behind the newline, in the same read, and the request is refused. -/
theorem crowded_request_refused :
    ¬(serveOne (fun _ => true) (fun _ => "") (fun _ => []) (fun _ => []) ⟨[.data crowded],[],[],⟨[],[]⟩,[]⟩).1.map outcomeOf =
      .ok (calledFor (fun _ => true) (fun _ => "") (fun _ => []) crowded) := by
  intro same
  have smooth : Smooth ⟨[.data crowded],[],[],⟨[],[]⟩,[]⟩ :=
    ⟨(fun _ member => absurd member not_mem_nil),(fun _ member => absurd member not_mem_nil),
      forall_mem_cons.mpr ⟨.inr ⟨_,rfl,by simp [crowded]⟩,fun _ member => absurd member not_mem_nil⟩,
      (fun _ member => absurd member not_mem_nil),fun _ member => absurd member not_mem_nil⟩
  have harmless := (answered_as_line (fun _ => true) (fun _ => "") (fun _ => []) (fun _ => []) smooth).mp (by
    change _ = Except.ok (calledFor _ _ _ (crowded ++ []))
    rw [append_nil]
    exact same)
  change Harmless _ _ _ (firstLine (crowded ++ [])) (gathered [] [.data crowded]) at harmless
  rw [append_nil,crowded_gathered,crowded,firstLine_of request_one_line] at harmless
  rcases harmless with long | ⟨_,blank | ⟨refused,_⟩⟩
  · exact absurd long (by decide +kernel)
  · exact absurd blank (by decide +kernel)
  · rw [request_accepted] at refused
    cases refused

end Depsis.Agent.Requests

import Depsis.Agent.UploadAtomic

/-! Reading a preamble from a stream that arrives in pieces: a line the cap refuses in one
cut of the stream is taken in another.
-/
namespace Depsis.Agent.Preambles

open Depsis.Foundation Depsis.Foundation.Streams DataChannel List

/-- The deadline is not reached, nothing fails, and every read hands over at least a byte and at
most a buffer. -/
structure Fair (wire : Wire) : Prop where
  prompt : ∀ at' ∈ wire.elapsed, at' < PREAMBLE_BUDGET
  armed : ∀ arm ∈ wire.arms, arm = none
  pieces : ∀ arrival ∈ wire.inbound, arrival = .interrupted ∨
    ∃ piece, arrival = .data piece ∧ piece ≠ [] ∧ piece.length ≤ MAX_PREAMBLE_BYTES

structure FirstLine (stream front later : List UInt8) : Prop where
  split : stream = front ++ 10::later
  clean : 10 ∉ front

def textOf (front : List UInt8) : Option String := String.fromUTF8? ⟨front.toArray⟩

/-- Reading a stream has one answer, which hands on every byte, and takes just the short lines. -/
structure Readable (stream : List UInt8) : Prop where
  same : ∀ wire other, Fair wire → Fair other → received wire.inbound = stream → received other.inbound = stream →
    ∀ line leftover, (readPreamble wire).1 = .ok (line,leftover) →
      ∃ leftover', (readPreamble other).1 = .ok (line,leftover')
  whole : ∀ wire, Fair wire → received wire.inbound = stream → ∀ line leftover,
    (readPreamble wire).1 = .ok (line,leftover) →
      ∃ front, textOf front = some line ∧ stream = front ++ 10::(leftover ++ received (readPreamble wire).2.inbound)
  short : ∀ wire, Fair wire → received wire.inbound = stream →
    ((∃ line leftover, (readPreamble wire).1 = .ok (line,leftover)) ↔
      ∃ front later, FirstLine stream front later ∧ (textOf front).isSome = true ∧ front.length < MAX_PREAMBLE_BYTES)

variable {wire : Wire} {stream front later : List UInt8}

private theorem Fair.armRead (fair : Fair wire) : wire.now.1 < PREAMBLE_BUDGET ∧ wire.now.2.armRead.1 = none := by
  constructor
  · unfold Wire.now
    cases times : wire.elapsed with
    | nil => exact Nat.lt_of_lt_of_le Nat.zero_lt_one (by decide : 1 ≤ PREAMBLE_BUDGET)
    | cons first rest => exact fair.prompt first (by rw [times]; exact mem_cons_self)
  · unfold Wire.armRead Wire.now
    dsimp only
    cases answers : wire.arms with
    | nil => rfl
    | cons first rest => exact fair.armed first (by rw [answers]; exact mem_cons_self)

private theorem Fair.read (fair : Fair wire) : Fair (wire.now.2.armRead.2.read MAX_PREAMBLE_BYTES).2 ∧
    (∀ error, (wire.now.2.armRead.2.read MAX_PREAMBLE_BYTES).1 ≠ .failed error) ∧
    ((wire.now.2.armRead.2.read MAX_PREAMBLE_BYTES).1 = .bytes [] → received wire.inbound = []) := by
  obtain ⟨prompt,armed,pieces⟩ := fair
  have rest (inbound : List (Arrival IoError)) (fewer : ∀ arrival ∈ inbound, arrival ∈ wire.inbound) :
      Fair { wire with inbound := inbound, arms := wire.arms.tail, elapsed := wire.elapsed.tail } :=
    ⟨fun at' member => prompt at' (mem_of_mem_tail member),fun arm member => armed arm (mem_of_mem_tail member),
      fun arrival member => pieces arrival (fewer arrival member)⟩
  unfold Wire.read Wire.armRead Wire.now
  dsimp only
  cases script : wire.inbound with
  | nil => exact ⟨rest [] (by rintro _ ⟨⟩),by rintro _ ⟨⟩,fun _ => rfl⟩
  | cons arrival others =>
    have fewer : ∀ arrival ∈ others, arrival ∈ wire.inbound := by
      intro other member
      rw [script]
      exact mem_cons_of_mem _ member
    rcases pieces arrival (by rw [script]; exact mem_cons_self) with rfl | ⟨piece,rfl,filled,fits⟩
    · exact ⟨rest others fewer,by rintro _ ⟨⟩,by rintro ⟨⟩⟩
    · rw [Streams.read,if_pos fits]
      exact ⟨rest others fewer,by rintro _ ⟨⟩,fun same => absurd (Reading.bytes.inj same) filled⟩

private theorem FirstLine.same {front' later' : List UInt8} (line : FirstLine stream front later) (other : FirstLine stream front' later') :
    front = front' ∧ later = later' := by
  have fronts : front = front' := by
    rw [← preambleBytes_append line.clean,← line.split,other.split,preambleBytes_append other.clean]
  subst fronts
  have rest := line.split.symm.trans other.split
  exact ⟨rfl,(List.cons.inj (append_cancel_left rest)).2⟩

theorem preambleLoop_fair (buf : List UInt8) (wire : Wire) (fair : Fair wire) (small : buf.length < MAX_PREAMBLE_BYTES)
    (bare : 10 ∉ buf) : match (preambleLoop buf wire).1 with
    | .ok (line,_) => ∃ front later, FirstLine (buf ++ received wire.inbound) front later ∧ textOf front = some line ∧
        front.length ≤ 2 * MAX_PREAMBLE_BYTES - 2
    | .error _ => ∀ front later, FirstLine (buf ++ received wire.inbound) front later →
        MAX_PREAMBLE_BYTES ≤ front.length ∨ textOf front = none := by
  fun_induction preambleLoop buf wire with
  | case1 buf wire timed late => exact absurd fair.armRead.1 (Nat.not_lt.mpr late)
  | case2 buf wire timed early error failed =>
    rw [fair.armRead.2] at failed
    cases failed
  | case3 buf wire timed early armed rest reading =>
    intro front later line
    have nothing := fair.read.2.2 reading
    have whole := line.split
    rw [nothing,append_nil] at whole
    exact absurd (whole ▸ mem_append_right _ mem_cons_self) bare
  | case4 buf wire timed early armed rest reading ih =>
    have same : received wire.inbound = received rest.inbound := interrupted_received timed.armRead.2 reading
    rw [same]
    exact ih fair.read.1 small bare
  | case5 buf wire timed early armed rest error failed => exact absurd failed (fair.read.2.1 error)
  | case6 buf wire timed early armed rest first more reading data newline found text decoded =>
    have arrived : received wire.inbound = data ++ received rest.inbound :=
      chunk_received timed.armRead.2 reading
    obtain ⟨split,clean⟩ := split_at_newline found
    refine ⟨buf ++ data.take newline,data.drop (newline + 1) ++ received rest.inbound,⟨?_,?_⟩,decoded,?_⟩
    · rw [arrived]
      nth_rewrite 1 [split]
      simp
    · exact fun member => (mem_append.mp member).elim bare clean
    · have bounded := read_chunk_length MAX_PREAMBLE_BYTES timed.armRead.2.inbound
      change (timed.armRead.2.read MAX_PREAMBLE_BYTES).1.chunk.length ≤ _ at bounded
      rw [reading] at bounded
      have cut : data.length = (data.take newline).length + ((data.drop (newline + 1)).length + 1) := by
        nth_rewrite 1 [split]
        rw [length_append]
        rfl
      change data.length ≤ MAX_PREAMBLE_BYTES at bounded
      rw [length_append]
      omega
  | case7 buf wire timed early armed rest first more reading data newline found undecoded =>
    have arrived : received wire.inbound = data ++ received rest.inbound :=
      chunk_received timed.armRead.2 reading
    obtain ⟨split,clean⟩ := split_at_newline found
    have own : FirstLine (buf ++ received wire.inbound) (buf ++ data.take newline)
        (data.drop (newline + 1) ++ received rest.inbound) := by
      refine ⟨?_,fun member => (mem_append.mp member).elim bare clean⟩
      rw [arrived]
      nth_rewrite 1 [split]
      simp
    intro front later line
    rw [(line.same own).1]
    exact .inr undecoded
  | case8 buf wire timed early armed rest first more reading data missing full =>
    have arrived : received wire.inbound = data ++ received rest.inbound :=
      chunk_received timed.armRead.2 reading
    intro front later line
    refine .inl (Nat.le_trans full ?_)
    have whole := line.split
    rw [arrived,← append_assoc] at whole
    by_contra short
    have inside : 10 ∈ buf ++ data := by
      have place := congrArg (fun bytes : List UInt8 => bytes[front.length]?) whole
      rw [getElem?_append_left (Nat.lt_of_not_le short),getElem?_append_right (Nat.le_refl _),Nat.sub_self] at place
      exact mem_of_getElem? place
    exact (mem_append.mp inside).elim bare (no_newline missing)
  | case9 buf wire timed early armed rest first more reading data missing short ih =>
    have arrived : received wire.inbound = data ++ received rest.inbound :=
      chunk_received timed.armRead.2 reading
    have more := ih fair.read.1 (Nat.lt_of_not_le short)
      (fun member => (mem_append.mp member).elim bare (no_newline missing))
    rwa [append_assoc,← arrived] at more

private theorem readPreamble_fair (fair : Fair wire) (arrives : received wire.inbound = stream) :
    match (readPreamble wire).1 with
    | .ok (line,_) => ∃ front later, FirstLine stream front later ∧ textOf front = some line ∧
        front.length ≤ 2 * MAX_PREAMBLE_BYTES - 2
    | .error _ => ∀ front later, FirstLine stream front later → MAX_PREAMBLE_BYTES ≤ front.length ∨ textOf front = none := by
  have read := preambleLoop_fair [] wire fair (by decide) (by simp)
  rwa [nil_append,arrives] at read

def Borderline (stream : List UInt8) : Prop :=
  ∃ front later, FirstLine stream front later ∧ (textOf front).isSome = true ∧ MAX_PREAMBLE_BYTES ≤ front.length ∧
    front.length ≤ 2 * MAX_PREAMBLE_BYTES - 2

def lateNewline (front later : List UInt8) : Wire where
  inbound := .data (front.take (MAX_PREAMBLE_BYTES - 1))::.data (front.drop (MAX_PREAMBLE_BYTES - 1) ++ [10])::
    later.map (fun byte => .data [byte])
  arms := []
  elapsed := []
  outbound := ⟨[],[]⟩
  flushes := []

theorem received_bytes (later : List UInt8) : received (later.map (fun byte => (.data [byte] : Arrival IoError))) = later := by
  induction later with
  | nil => rfl
  | cons byte rest ih =>
    rw [map_cons,received,ih]
    rfl

theorem lateNewline_received (front later : List UInt8) : received (lateNewline front later).inbound = front ++ 10::later := by
  change front.take _ ++ ((front.drop _ ++ [10]) ++ received (later.map _)) = _
  rw [received_bytes,← append_assoc,← append_assoc,take_append_drop,append_assoc]
  rfl

theorem lateNewline_fair (long : MAX_PREAMBLE_BYTES ≤ front.length) (fits : front.length ≤ 2 * MAX_PREAMBLE_BYTES - 2) :
    Fair (lateNewline front later) := by
  have cap : MAX_PREAMBLE_BYTES = 256 := rfl
  refine ⟨nofun,nofun,fun arrival member => .inr ?_⟩
  rcases mem_cons.mp member with rfl | member
  · refine ⟨_,rfl,fun empty => ?_,?_⟩
    · have none' := congrArg List.length empty
      rw [length_take,length_nil] at none'
      omega
    · rw [length_take]
      omega
  rcases mem_cons.mp member with rfl | member
  · refine ⟨_,rfl,by simp,?_⟩
    rw [length_append,length_drop,length_singleton]
    omega
  · obtain ⟨byte,-,rfl⟩ := mem_map.mp member
    exact ⟨[byte],rfl,by simp,Nat.le_of_lt (by decide : 1 < MAX_PREAMBLE_BYTES)⟩

theorem preambleLoop_piece {buf piece : List UInt8} {rest : List (Arrival IoError)} (fair : Fair wire)
    (next : wire.inbound = .data piece::rest) :
    (10 ∉ piece → (buf ++ piece).length < MAX_PREAMBLE_BYTES →
      (preambleLoop buf wire).1 = (preambleLoop (buf ++ piece)
        { wire with inbound := rest, arms := wire.arms.tail, elapsed := wire.elapsed.tail }).1) ∧
    ∀ front line, piece = front ++ [10] → 10 ∉ front → textOf (buf ++ front) = some line →
      (preambleLoop buf wire).1 = .ok (line,[]) := by
  have reading : (wire.now.2.armRead.2.read MAX_PREAMBLE_BYTES).1 = .bytes piece ∧
      (wire.now.2.armRead.2.read MAX_PREAMBLE_BYTES).2 =
        { wire with inbound := rest, arms := wire.arms.tail, elapsed := wire.elapsed.tail } := by
    rcases fair.pieces (.data piece) (by rw [next]; exact mem_cons_self) with same | ⟨other,same,-,fits⟩
    · cases same
    · cases same
      unfold Wire.read Wire.armRead Wire.now
      dsimp only
      rw [next,Streams.read,if_pos fits]
      exact ⟨rfl,rfl⟩
  have filled : piece ≠ [] := by
    rcases fair.pieces (.data piece) (by rw [next]; exact mem_cons_self) with same | ⟨other,same,filled,-⟩
    · cases same
    · cases same
      exact filled
  have ends {front : List UInt8} (clean : 10 ∉ front) :
      (front ++ [10]).findIdx? (fun byte => byte == 10) = some front.length := by
    rw [findIdx?_append,findIdx?_eq_none_iff.mpr]
    · exact congrArg some (Nat.zero_add front.length)
    · intro byte member
      exact beq_eq_false_iff_ne.mpr (fun same => clean (same ▸ member))
  fun_cases preambleLoop buf wire with
  | case1 timed late => exact absurd fair.armRead.1 (Nat.not_lt.mpr late)
  | case2 timed early error failed =>
    rw [fair.armRead.2] at failed
    cases failed
  | case3 timed early armed after empty => exact absurd (Reading.bytes.inj (reading.1.symm.trans empty)) filled
  | case4 timed early armed after interrupted => cases reading.1.symm.trans interrupted
  | case5 timed early armed after error failed => cases reading.1.symm.trans failed
  | case6 timed early armed after first more found data newline at' text decoded =>
    have same : piece = data := Reading.bytes.inj (reading.1.symm.trans found)
    refine ⟨fun absent => ?_,fun front line ended clean known => ?_⟩
    · obtain ⟨whole,-⟩ := split_at_newline at'
      exact absurd (same ▸ whole ▸ mem_append_right _ mem_cons_self) absent
    · have place := ends clean
      rw [← ended,same,at'] at place
      cases place
      rw [← same,ended,take_left] at decoded
      rw [← same,ended]
      cases known.symm.trans decoded
      simp
  | case7 timed early armed after first more found data newline at' undecoded =>
    have same : piece = data := Reading.bytes.inj (reading.1.symm.trans found)
    refine ⟨fun absent => ?_,fun front line ended clean known => ?_⟩
    · obtain ⟨whole,-⟩ := split_at_newline at'
      exact absurd (same ▸ whole ▸ mem_append_right _ mem_cons_self) absent
    · have place := ends clean
      rw [← ended,same,at'] at place
      cases place
      rw [← same,ended,take_left] at undecoded
      cases known.symm.trans undecoded
  | case8 timed early armed after first more found data missing full =>
    have same : piece = data := Reading.bytes.inj (reading.1.symm.trans found)
    refine ⟨fun _ short => absurd (same ▸ full) (Nat.not_le.mpr short),fun front line ended _ _ => ?_⟩
    exact absurd (same ▸ ended ▸ mem_append_right _ mem_cons_self) (no_newline missing)
  | case9 timed early armed after first more found data missing short =>
    have same : piece = data := Reading.bytes.inj (reading.1.symm.trans found)
    refine ⟨fun _ _ => ?_,fun front line ended _ _ => ?_⟩
    · rw [same,← reading.2]
    · exact absurd (same ▸ ended ▸ mem_append_right _ mem_cons_self) (no_newline missing)

theorem lateNewline_accepted {line : String} (long : MAX_PREAMBLE_BYTES ≤ front.length)
    (fits : front.length ≤ 2 * MAX_PREAMBLE_BYTES - 2) (clean : 10 ∉ front) (decoded : textOf front = some line) :
    (readPreamble (lateNewline front later)).1 = .ok (line,[]) := by
  have cap : MAX_PREAMBLE_BYTES = 256 := rfl
  have fair := @lateNewline_fair front later long fits
  have first := (@preambleLoop_piece (lateNewline front later) [] _ _ fair rfl).1
    (fun member => clean (mem_of_mem_take member)) (by
      rw [nil_append,length_take]
      omega)
  have rest : Fair { lateNewline front later with
      inbound := (lateNewline front later).inbound.tail
      arms := []
      elapsed := [] } :=
    ⟨nofun,nofun,
      fun arrival member => fair.pieces arrival (mem_of_mem_tail member)⟩
  rw [readPreamble,first,nil_append]
  refine (preambleLoop_piece rest rfl).2 _ line rfl (fun member => clean (mem_of_mem_drop member)) ?_
  rw [take_append_drop]
  exact decoded

/-- The answer to a stream is one, and as the cap says, just when no text of the lengths a second
read can still complete stands in the preamble's place. -/
theorem preamble_uncut (stream : List UInt8) : Readable stream ↔ ¬Borderline stream := by
  constructor
  · rintro readable ⟨front,later,line,isText,long,fits⟩
    obtain ⟨text,decoded⟩ := Option.isSome_iff_exists.mp isText
    have arrives : received (lateNewline front later).inbound = stream := (lateNewline_received front later).trans line.split.symm
    obtain ⟨front',later',line',-,short⟩ := (readable.short _ (lateNewline_fair long fits) arrives).mp
      ⟨text,[],lateNewline_accepted long fits line.clean decoded⟩
    rw [(line.same line').1] at long
    exact absurd long (Nat.not_le.mpr short)
  · intro plain
    have exact' (wire : Wire) (fair : Fair wire) (arrives : received wire.inbound = stream) :
        (∃ line leftover, (readPreamble wire).1 = .ok (line,leftover)) ↔
          ∃ front later, FirstLine stream front later ∧ (textOf front).isSome = true ∧ front.length < MAX_PREAMBLE_BYTES := by
      have read := readPreamble_fair fair arrives
      constructor
      · rintro ⟨line,leftover,accepted⟩
        rw [accepted] at read
        obtain ⟨front,later,cut,decoded,fits⟩ := read
        have isText : (textOf front).isSome = true := by rw [decoded]; rfl
        refine ⟨front,later,cut,isText,?_⟩
        by_contra long
        exact plain ⟨front,later,cut,isText,Nat.le_of_not_lt long,fits⟩
      · rintro ⟨front,later,cut,isText,short⟩
        cases answer : (readPreamble wire).1 with
        | ok accepted => exact ⟨accepted.1,accepted.2,rfl⟩
        | error refused =>
          rw [answer] at read
          rcases read front later cut with long | undecoded
          · exact absurd long (Nat.not_le.mpr short)
          · rw [undecoded] at isText
            cases isText
    refine ⟨fun wire other fair fair' arrives arrives' line leftover accepted => ?_,
      fun wire fair arrives line leftover accepted => ?_,exact'⟩
    · obtain ⟨line',leftover',accepted'⟩ := (exact' other fair' arrives').mpr
        ((exact' wire fair arrives).mp ⟨line,leftover,accepted⟩)
      refine ⟨leftover',?_⟩
      have read := readPreamble_fair fair arrives
      have read' := readPreamble_fair fair' arrives'
      rw [accepted] at read
      rw [accepted'] at read' ⊢
      obtain ⟨front,later,cut,decoded,-⟩ := read
      obtain ⟨front',later',cut',decoded',-⟩ := read'
      rw [(cut'.same cut).1,decoded] at decoded'
      cases decoded'
      rfl
    · have taken : preambleLoop [] wire = (.ok (line,leftover),(readPreamble wire).2) := Prod.ext accepted rfl
      obtain ⟨front,whole,-,decoded⟩ := preambleLoop_accepted [] wire taken
      exact ⟨front,decoded,arrives ▸ whole⟩

private theorem letters (count : Nat) : (textOf (List.replicate count 97)).isSome = true := by
  have written : (List.replicate count 'a').flatMap String.utf8EncodeChar = List.replicate count 97 := by
    induction count with
    | zero => rfl
    | succ count ih =>
      rw [replicate_succ,flatMap_cons,ih,replicate_succ]
      rfl
  have valid : (⟨(List.replicate count 97).toArray⟩ : ByteArray).IsValidUTF8 := by
    refine ⟨List.replicate count 'a',?_⟩
    rw [List.utf8Encode,written]
    apply ByteArray.ext
    rw [data_toByteArray]
  rw [textOf,String.fromUTF8?,dif_pos valid]
  rfl

def wordy : List UInt8 := List.replicate 300 97

theorem wordy_refused : ¬∀ stream, Readable stream := by
  intro readable
  have size : wordy.length = 300 := length_replicate
  have long : MAX_PREAMBLE_BYTES ≤ wordy.length := size ▸ by decide
  have fits : wordy.length ≤ 2 * MAX_PREAMBLE_BYTES - 2 := size ▸ by decide
  have clean : 10 ∉ wordy := fun member => absurd (eq_of_mem_replicate member) (by decide)
  have isText : (textOf wordy).isSome = true := letters 300
  obtain ⟨text,decoded⟩ := Option.isSome_iff_exists.mp isText
  obtain ⟨front,later,line,-,short⟩ := ((readable (wordy ++ [10])).short (lateNewline wordy []) (lateNewline_fair long fits)
    (lateNewline_received wordy [])).mp ⟨text,[],lateNewline_accepted long fits clean decoded⟩
  rw [← ((⟨rfl,clean⟩ : FirstLine (wordy ++ [10]) wordy []).same line).1] at short
  exact absurd long (Nat.not_le.mpr short)

end Depsis.Agent.Preambles

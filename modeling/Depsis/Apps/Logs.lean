import Depsis.Foundation.Bytes
import Depsis.Foundation.Utf8

/-! The log of a container as the API reads it. libpod puts eight bytes before every chunk: the
stream, three zeros and the length, the most significant byte first.
-/
namespace Depsis.Apps.Logs

open Depsis.Foundation Bytes Utf8 List

inductive RangeError
  | outOfRange
  deriving DecidableEq

def framed (raw : List UInt8) (offset : Nat) : Except RangeError Bool :=
  match raw.drop offset with
  | streamType::first::second::third::_ =>
    .ok (decide ((streamType = 0 ∨ streamType = 1 ∨ streamType = 2) ∧ first = 0 ∧ second = 0 ∧ third = 0))
  | _ => .error .outOfRange

def readUInt32BE (raw : List UInt8) (offset : Nat) : Except RangeError Nat :=
  if offset + 4 ≤ raw.length then .ok (number (slice raw offset (offset + 4)).reverse) else .error .outOfRange

def demultiplexFrom (raw : List UInt8) (offset : Nat) : Except RangeError (List Char) :=
  if _inside : offset < raw.length then
    if raw.length - offset < 8 then .ok (decode (raw.drop offset))
    else
      match framed raw offset with
      | .error error => .error error
      | .ok false => .ok (decode (raw.drop offset))
      | .ok true =>
        match readUInt32BE raw (offset + 4) with
        | .error error => .error error
        | .ok length =>
          let start := offset + 8
          let stop := min (start + length) raw.length
          (decode (slice raw start stop) ++ ·) <$> demultiplexFrom raw (if length = 0 then start else stop)
  else .ok []
termination_by raw.length - offset
decreasing_by
  split <;> omega

def demultiplex (raw : List UInt8) : Except RangeError (List Char) := demultiplexFrom raw 0

structure Frame where
  streamType : Fin 3
  payload : List UInt8
  fits : payload.length < 2 ^ 32

def Frame.bytes (frame : Frame) : List UInt8 :=
  [UInt8.ofNat frame.streamType,0,0,0] ++ (little 4 frame.payload.length).reverse ++ frame.payload

def Framed (raw : List UInt8) : Prop := ∃ (streamType : Fin 3) (length rest : List UInt8),
  length.length = 4 ∧ raw = [UInt8.ofNat streamType,0,0,0] ++ length ++ rest

variable {raw : List UInt8} {offset : Nat}

private theorem framed_total (enough : ¬raw.length - offset < 8) : ∃ answer, framed raw offset = .ok answer := by
  have size : (raw.drop offset).length = raw.length - offset := length_drop
  unfold framed
  split
  · exact ⟨_,rfl⟩
  next short =>
    match left : raw.drop offset with
    | first::second::third::fourth::rest => exact absurd left (short first second third fourth rest)
    | [] | [_] | [_,_] | [_,_,_] =>
      rw [left] at size
      simp only [length_cons,length_nil] at size
      omega

private theorem readUInt32BE_total (enough : ¬raw.length - offset < 8) : ∃ length, readUInt32BE raw (offset + 4) = .ok length := by
  unfold readUInt32BE
  rw [if_pos (by omega)]
  exact ⟨_,rfl⟩

theorem demultiplexFrom_total (raw : List UInt8) (offset : Nat) : ∃ text, demultiplexFrom raw offset = .ok text := by
  induction left : raw.length - offset using Nat.strongRecOn generalizing offset with
  | _ left' ih =>
    subst left
    rw [demultiplexFrom]
    split
    next inside =>
      split
      next => exact ⟨_,rfl⟩
      next enough =>
        obtain ⟨answer,judged⟩ := framed_total enough
        obtain ⟨length,read⟩ := readUInt32BE_total enough
        rw [judged,read]
        cases answer with
        | false => exact ⟨_,rfl⟩
        | true =>
          obtain ⟨text,later⟩ := ih _ (by split <;> omega) (if length = 0 then offset + 8 else min (offset + 8 + length) raw.length) rfl
          dsimp only
          rw [later]
          exact ⟨_,rfl⟩
    next => exact ⟨_,rfl⟩

theorem demultiplex_plain (plain : ¬Framed raw) : demultiplex raw = .ok (decode raw) := by
  rw [demultiplex,demultiplexFrom,drop_zero]
  split
  next inside =>
    split
    next => rfl
    next enough =>
      obtain ⟨answer,judged⟩ := framed_total enough
      rw [judged]
      cases answer with
      | false => rfl
      | true =>
        exfalso
        apply plain
        unfold framed at judged
        rw [drop_zero] at judged
        split at judged
        next streamType first second third rest =>
          obtain ⟨stream,rfl,rfl,rfl⟩ := of_decide_eq_true (Except.ok.inj judged)
          refine ⟨⟨streamType.toNat,?_⟩,rest.take 4,rest.drop 4,?_,?_⟩
          · rcases stream with rfl | rfl | rfl <;> decide
          · simp only [length_cons] at enough
            rw [length_take]
            omega
          · simp
        next => cases judged
  next outside =>
    have empty : raw = [] := eq_nil_of_length_eq_zero (by omega)
    rw [empty,decode_nil]

private theorem demultiplexFrom_frame {frame : Frame} {rest : List UInt8} (here : raw.drop offset = frame.bytes ++ rest) :
    demultiplexFrom raw offset = (decode frame.payload ++ ·) <$> demultiplexFrom raw (offset + 8 + frame.payload.length) := by
  have size := congrArg List.length here
  simp only [Frame.bytes,length_drop,length_append,length_cons,length_nil,length_reverse,length_little] at size
  have judged : framed raw offset = .ok true := by
    rw [framed,here]
    have known : ∀ streamType : Fin 3, UInt8.ofNat streamType = 0 ∨ UInt8.ofNat streamType = 1 ∨ UInt8.ofNat streamType = 2 := by decide
    exact congrArg Except.ok (decide_eq_true ⟨known _,rfl,rfl,rfl⟩)
  have lies : Lies raw offset (frame.bytes ++ rest) :=
    ⟨raw.take offset,[],by rw [← here,append_nil,take_append_drop],by rw [length_take]; omega⟩
  rw [Frame.bytes] at lies
  have length : Lies raw (offset + 4) (little 4 frame.payload.length).reverse := lies.left.left.right
  have payload := lies.left.right
  have read : readUInt32BE raw (offset + 4) = .ok frame.payload.length := by
    have cut := length.slice_eq
    rw [length_reverse,length_little] at cut
    rw [readUInt32BE,if_pos (by omega),cut,reverse_reverse,number_little (by simpa using frame.fits)]
  rw [length_append,length_reverse,length_little] at payload
  have cut : slice raw (offset + 8) (offset + 8 + frame.payload.length) = frame.payload := payload.slice_eq
  rw [demultiplexFrom,dif_pos (by omega),if_neg (by omega),judged,read]
  dsimp only
  rw [Nat.min_eq_left (by omega),cut]
  split
  next empty => rw [empty,Nat.add_zero]
  next => rfl

private theorem demultiplexFrom_frames (frames : List Frame) (here : raw.drop offset = frames.flatMap Frame.bytes) :
    demultiplexFrom raw offset = .ok (frames.flatMap (fun frame => decode frame.payload)) := by
  induction frames generalizing offset with
  | nil =>
    rw [demultiplexFrom,dif_neg (by have := drop_eq_nil_iff.mp here; omega)]
    rfl
  | cons frame frames ih =>
    rw [flatMap_cons] at here
    have later : raw.drop (offset + 8 + frame.payload.length) = frames.flatMap Frame.bytes := by
      rw [Nat.add_assoc,← drop_drop,here]
      apply drop_left'
      simp [Frame.bytes]
      omega
    rw [demultiplexFrom_frame here,ih later]
    rfl

/-- Frames are read as their payloads together just when no payload ends inside a character; every buffer is read
within its bounds, and one without a header as it stands. -/
theorem demultiplex_exact (frames : List Frame) (raw : List UInt8) :
    (demultiplex (frames.flatMap Frame.bytes) = .ok (decode (frames.flatMap Frame.payload)) ↔ Utf8.Whole (frames.map Frame.payload)) ∧
    (∃ text, demultiplex raw = .ok text) ∧ (¬Framed raw → demultiplex raw = .ok (decode raw)) := by
  refine ⟨?_,demultiplexFrom_total raw 0,demultiplex_plain⟩
  rw [demultiplex,demultiplexFrom_frames frames rfl,← flatMap_decode,Except.ok.injEq,flatMap_map,flatMap_def]
  rfl

theorem demultiplex_cuts : ¬∀ frames : List Frame,
    demultiplex (frames.flatMap Frame.bytes) = .ok (decode (frames.flatMap Frame.payload)) := by
  intro whole
  have read := (demultiplexFrom_frames [⟨1,[0xC3],by decide⟩,⟨1,[0xA9],by decide⟩] rfl).symm.trans (whole _)
  exact absurd read (by decide +kernel)

end Depsis.Apps.Logs

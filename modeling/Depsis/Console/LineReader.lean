import Depsis.Console.Protocol
import Depsis.Foundation.Streams
import Depsis.Foundation.Text

/-! The console's line reader: lines come out of a stream as they went in, however it was cut.
-/
namespace Depsis.Console.LineReader
open Depsis.Foundation Depsis.Foundation.Streams Protocol List

inductive Expiry where
  | idle
  | maxAge

inductive ReadError where
  | wouldBlock
  | timedOut
  | other (display : String)

/-- What arrives, what the deadlines say before each read, and what arming the timeout says;
exhausted scripts say nothing.
-/
structure Wire where
  inbound : List (Arrival ReadError)
  budgets : List (Option Expiry)
  arms : List (Option String)

inductive Incoming where
  | line (text : List Char)
  | eof
  | expired (expiry : Expiry)
  | tooLong

def CHUNK : Nat := 8192

structure Next where
  result : Except String Incoming
  pending : List UInt8
  wire : Wire

def Wire.read (wire : Wire) : Reading ReadError × Wire :=
  ((Streams.read CHUNK wire.inbound).1,⟨(Streams.read CHUNK wire.inbound).2,wire.budgets.tail,wire.arms.tail⟩)

def next (pending : List UInt8) (wire : Wire) : Next :=
  match pending.findIdx? (fun byte => byte == 10) with
  | some at' => ⟨.ok (.line (Text.trimEnd (Utf8.decode (pending.take (at' + 1))))),pending.drop (at' + 1),wire⟩
  | none =>
    if MAX_LINE_BYTES < pending.length then ⟨.ok .tooLong,pending,wire⟩
    else
      match wire.budgets.head?.join with
      | some expiry => ⟨.ok (.expired expiry),pending,wire⟩
      | none =>
        match wire.arms.head?.join with
        | some error => ⟨.error error,pending,wire⟩
        | none =>
          match _reading : wire.read.1 with
          | .bytes [] => ⟨.ok .eof,pending,wire.read.2⟩
          | .bytes (first::more) => next (pending ++ first::more) wire.read.2
          | .interrupted => next pending wire.read.2
          | .failed .wouldBlock => next pending wire.read.2
          | .failed .timedOut => next pending wire.read.2
          | .failed (.other display) => ⟨.error display,pending,wire.read.2⟩
termination_by weight wire.inbound
decreasing_by
  all_goals
    refine read_weight (by decide) ?_
    change wire.read.1 ≠ _
    rw [_reading]
    simp

def calls : Nat → List UInt8 → Wire → List (Except String Incoming)
  | 0,_,_ => []
  | count + 1,pending,wire => (next pending wire).result::calls count (next pending wire).pending (next pending wire).wire

/-- No deadline passes and no read fails for good; every read but the last brings something. -/
structure InTime (wire : Wire) : Prop where
  budgets : ∀ budget ∈ wire.budgets, budget = none
  arms : ∀ arm ∈ wire.arms, arm = none
  pieces : ∀ arrival ∈ wire.inbound, arrival = .interrupted ∨ arrival = .failed .wouldBlock ∨ arrival = .failed .timedOut ∨
    ∃ piece, arrival = .data piece ∧ piece ≠ []

variable {wire : Wire}

private theorem head_none {α : Type} {answers : List (Option α)} (each : ∀ answer ∈ answers, answer = none) : answers.head?.join = none := by
  cases answers with
  | nil => rfl
  | cons first rest => exact each first mem_cons_self

private theorem InTime.read (inTime : InTime wire) : InTime wire.read.2 ∧
    received wire.inbound = wire.read.1.chunk ++ received wire.read.2.inbound ∧ (∀ display, wire.read.1 ≠ .failed (.other display)) ∧
      (wire.read.1 = .bytes [] → received wire.inbound = []) := by
  obtain ⟨budgets,arms,pieces⟩ := inTime
  have rest (inbound : List (Arrival ReadError)) (each : ∀ arrival ∈ inbound, arrival = .interrupted ∨ arrival = .failed .wouldBlock ∨
      arrival = .failed .timedOut ∨ ∃ piece, arrival = .data piece ∧ piece ≠ []) :
      InTime ⟨inbound,wire.budgets.tail,wire.arms.tail⟩ :=
    ⟨fun budget mem => budgets budget (mem_of_mem_tail mem),fun arm mem => arms arm (mem_of_mem_tail mem),each⟩
  have split := read_received CHUNK wire.inbound
  unfold Wire.read
  dsimp only
  cases script : wire.inbound with
  | nil => exact ⟨rest [] (fun _ mem => absurd mem not_mem_nil),rfl,by rintro _ ⟨⟩,fun _ => rfl⟩
  | cons arrival others =>
    rw [script] at pieces split
    obtain ⟨first,later⟩ := forall_mem_cons.mp pieces
    rcases first with rfl | rfl | rfl | ⟨piece,rfl,filled⟩
    · exact ⟨rest others later,split,by rintro _ ⟨⟩,by rintro ⟨⟩⟩
    · exact ⟨rest others later,split,by rintro _ ⟨⟩,by rintro ⟨⟩⟩
    · exact ⟨rest others later,split,by rintro _ ⟨⟩,by rintro ⟨⟩⟩
    · refine ⟨?_,split,?_,?_⟩
      · rw [Streams.read]
        split
        · exact rest others later
        · next longer =>
          have left : piece.drop CHUNK ≠ [] := fun none => longer (drop_eq_nil_iff.mp none)
          exact rest _ (forall_mem_cons.mpr ⟨.inr (.inr (.inr ⟨_,rfl,left⟩)),later⟩)
      · rw [Streams.read]
        split <;> rintro _ ⟨⟩
      · intro same
        rw [Streams.read] at same
        split at same
        · exact absurd (Reading.bytes.inj same) filled
        · rcases take_eq_nil_iff.mp (Reading.bytes.inj same) with none | none
          · cases none
          · exact absurd none filled

private theorem cut_line {pending received' line rest : List UInt8} {at' : Nat} (whole : pending ++ received' = line ++ 10::rest)
    (clean : 10 ∉ line) (found : pending.findIdx? (fun byte => byte == 10) = some at') :
    pending.take (at' + 1) = line ++ [10] ∧ pending.drop (at' + 1) ++ received' = rest := by
  obtain ⟨bound,here,before⟩ := findIdx?_eq_some_iff_getElem.mp found
  have newline : pending[at'] = 10 := by simpa using here
  have split : pending = pending.take at' ++ 10::pending.drop (at' + 1) := by
    rw [← newline,getElem_cons_drop,take_append_drop]
  have none : 10 ∉ pending.take at' := by
    intro mem
    obtain ⟨index,inside,same⟩ := mem_iff_getElem.mp mem
    rw [length_take] at inside
    rw [getElem_take] at same
    exact before index (by omega) (by simp [same])
  have parted : pending.take at' ++ 10::(pending.drop (at' + 1) ++ received') = line ++ 10::rest := by
    rw [← whole]
    nth_rewrite 3 [split]
    simp
  have fronts : pending.take at' = line ∧ pending.drop (at' + 1) ++ received' = rest := by
    have splits := congrArg (fun bytes => (bytes.takeWhile (fun byte => byte != 10),bytes.dropWhile (fun byte => byte != 10))) parted
    have stop {front back : List UInt8} (clean : 10 ∉ front) : (front ++ 10::back).takeWhile (fun byte => byte != 10) = front ∧
        (front ++ 10::back).dropWhile (fun byte => byte != 10) = 10::back := by
      have each : ∀ byte ∈ front, (byte != 10) = true := fun byte mem => bne_iff_ne.mpr (fun same : byte = 10 => clean (same ▸ mem))
      rw [takeWhile_append_of_pos each,dropWhile_append_of_pos each]
      simp
    simp only [(stop none).1,(stop none).2,(stop clean).1,(stop clean).2,Prod.mk.injEq,List.cons.injEq,true_and] at splits
    exact splits
  refine ⟨?_,fronts.2⟩
  rw [← fronts.1,take_add_one,getElem?_eq_getElem bound,newline]
  rfl

private theorem no_newline {pending : List UInt8} (missing : pending.findIdx? (fun byte => byte == 10) = none) : 10 ∉ pending := by
  intro mem
  have none := findIdx?_eq_none_iff.mp missing 10 mem
  simp at none

private theorem pending_short {pending received' line rest : List UInt8} (whole : pending ++ received' = line ++ 10::rest)
    (missing : 10 ∉ pending) : pending.length ≤ line.length := by
  rcases append_eq_append_iff.mp whole with ⟨more,rfl,_⟩ | ⟨more,rfl,back⟩
  · rw [length_append]
    omega
  · cases more with
    | nil => rw [append_nil]
    | cons first more =>
      cases (List.cons.inj back).1
      exact absurd (mem_append_right line mem_cons_self) missing

theorem next_line (pending : List UInt8) (wire : Wire) {line rest : List UInt8} (inTime : InTime wire) (clean : 10 ∉ line)
    (short : line.length ≤ MAX_LINE_BYTES) (whole : pending ++ received wire.inbound = line ++ 10::rest) :
    (next pending wire).result = .ok (.line (Text.trimEnd (Utf8.decode (line ++ [10])))) ∧ InTime (next pending wire).wire ∧
      (next pending wire).pending ++ received (next pending wire).wire.inbound = rest := by
  fun_induction next pending wire with
  | case1 pending wire at' found =>
    obtain ⟨taken,left⟩ := cut_line whole clean found
    rw [taken]
    exact ⟨rfl,inTime,left⟩
  | case2 pending wire missing long =>
    have short := pending_short whole (no_newline missing)
    omega
  | case3 pending wire missing fits expiry spent =>
    rw [head_none inTime.budgets] at spent
    cases spent
  | case4 pending wire missing fits timely error failed =>
    rw [head_none inTime.arms] at failed
    cases failed
  | case5 pending wire missing fits timely armed reading =>
    rw [inTime.read.2.2.2 reading,append_nil] at whole
    exact absurd (by rw [whole]; exact mem_append_right _ mem_cons_self) (no_newline missing)
  | case6 pending wire missing fits timely armed first more reading ih =>
    obtain ⟨left,split,_,_⟩ := inTime.read
    rw [reading] at split
    refine ih left ?_
    rw [append_assoc]
    exact (congrArg (pending ++ ·) split.symm).trans whole
  | case7 pending wire missing fits timely armed reading ih
  | case8 pending wire missing fits timely armed reading ih
  | case9 pending wire missing fits timely armed reading ih =>
    obtain ⟨left,split,_,_⟩ := inTime.read
    rw [reading] at split
    exact ih left ((congrArg (pending ++ ·) split.symm).trans whole)
  | case10 pending wire missing fits timely armed display failed => exact absurd failed (inTime.read.2.2.1 display)

theorem next_eof (pending : List UInt8) (wire : Wire) (inTime : InTime wire) (whole : pending ++ received wire.inbound = []) :
    (next pending wire).result = .ok .eof := by
  fun_induction next pending wire with
  | case1 pending wire at' found =>
    rw [(append_eq_nil_iff.mp whole).1] at found
    cases found
  | case2 pending wire missing long =>
    rw [(append_eq_nil_iff.mp whole).1] at long
    exact absurd long (by decide)
  | case3 pending wire missing fits expiry spent =>
    rw [head_none inTime.budgets] at spent
    cases spent
  | case4 pending wire missing fits timely error failed =>
    rw [head_none inTime.arms] at failed
    cases failed
  | case5 pending wire missing fits timely armed reading => rfl
  | case6 pending wire missing fits timely armed first more reading ih =>
    obtain ⟨left,split,_,_⟩ := inTime.read
    rw [reading,(append_eq_nil_iff.mp whole).2] at split
    cases split
  | case7 pending wire missing fits timely armed reading ih
  | case8 pending wire missing fits timely armed reading ih
  | case9 pending wire missing fits timely armed reading ih =>
    obtain ⟨left,split,_,_⟩ := inTime.read
    rw [reading] at split
    exact ih left ((congrArg (pending ++ ·) split.symm).trans whole)
  | case10 pending wire missing fits timely armed display failed => exact absurd failed (inTime.read.2.2.1 display)

structure OneLine (text : List Char) : Prop where
  single : '\n' ∉ text
  ended : Text.trimEnd text = text
  short : (Utf8.encode text).length ≤ MAX_LINE_BYTES

def written (texts : List (List Char)) : List UInt8 := texts.flatMap (fun text => Utf8.encode text ++ [10])

private theorem trimEnd_newline (text : List Char) : Text.trimEnd (text ++ ['\n']) = Text.trimEnd text := by
  unfold Text.trimEnd
  rw [reverse_append]
  rfl

theorem calls_written (texts : List (List Char)) (each : ∀ text ∈ texts, OneLine text) (pending : List UInt8) (wire : Wire)
    (inTime : InTime wire) (stream : pending ++ received wire.inbound = written texts) :
    calls (texts.length + 1) pending wire = texts.map (fun text => .ok (.line text)) ++ [.ok .eof] := by
  induction texts generalizing pending wire with
  | nil =>
    rw [length_nil,calls,calls,next_eof pending wire inTime stream]
    rfl
  | cons text texts ih =>
    obtain ⟨first,later⟩ := forall_mem_cons.mp each
    have clean : 10 ∉ Utf8.encode text := fun mem => first.single (Utf8.newline_of_encode mem)
    have whole : pending ++ received wire.inbound = Utf8.encode text ++ 10::written texts := by
      rw [stream,written,flatMap_cons,append_assoc]
      rfl
    obtain ⟨result,left,rest⟩ := next_line pending wire inTime clean first.short whole
    rw [Utf8.decode_newline,Utf8.decode_encode,trimEnd_newline,first.ended] at result
    rw [length_cons,calls,result,ih later _ _ left rest]
    rfl

end Depsis.Console.LineReader

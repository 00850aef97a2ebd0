import Depsis.Auth.NtHash
import Depsis.Foundation.Rfc1320

/-! The fused loop does the operations of the three rounds: its four variables hold the registers
in the order the next operation names them in.
-/
namespace Depsis.Auth.NtHash
open Depsis.Foundation Rfc1320 List

def turn (round : Nat) : Order :=
  match round % 4 with
  | 0 => .ABCD
  | 1 => .DABC
  | 2 => .CDAB
  | _ => .BCDA

def operation (round : Nat) : Operation := ⟨turn round,ORDER.getD round 0,SHIFTS.getD round 0⟩

structure Holds (order : Order) (state : State) (registers : Registers) : Prop where
  a : JsNumber.bits state.a = registers order.registers.1
  b : JsNumber.bits state.b = registers order.registers.2.1
  c : JsNumber.bits state.c = registers order.registers.2.2.1
  d : JsNumber.bits state.d = registers order.registers.2.2.2

structure Mixes (f : BitVec 32 → BitVec 32 → BitVec 32 → BitVec 32) (constant : BitVec 32) (round : Nat) : Prop where
  function : ∀ state, JsNumber.bits (mix round state).1 = f (JsNumber.bits state.b) (JsNumber.bits state.c) (JsNumber.bits state.d)
  constant : ∀ state, JsNumber.bits (mix round state).2 = constant

variable {f : BitVec 32 → BitVec 32 → BitVec 32 → BitVec 32} {round : Nat} {state : State}

theorem mixes_first (early : round < 16) : Mixes F 0 round := by
  constructor
  · intro state
    rw [mix,if_pos early]
    simp only [JsNumber.bits_or,JsNumber.bits_and,JsNumber.bits_not,F]
  · intro state
    rw [mix,if_pos early]
    rfl

theorem mixes_second (late : 16 ≤ round) (early : round < 32) : Mixes G 0x5a827999 round := by
  constructor
  · intro state
    rw [mix,if_neg (by omega),if_pos early]
    simp only [JsNumber.bits_or,JsNumber.bits_and,G]
  · intro state
    rw [mix,if_neg (by omega),if_pos early]
    rfl

theorem mixes_third (late : 32 ≤ round) : Mixes H 0x6ed9eba1 round := by
  constructor
  · intro state
    rw [mix,if_neg (by omega),if_neg (by omega)]
    simp only [JsNumber.bits_xor,H]
  · intro state
    rw [mix,if_neg (by omega),if_neg (by omega)]
    rfl

theorem bits_rotl (x : Int) {n : Nat} (some' : 0 < n) (most : n < 32) :
    JsNumber.bits (rotl x n) = (JsNumber.bits x).rotateLeft n := by
  rw [rotl,JsNumber.unsigned_zero,JsNumber.bits_toNat,JsNumber.bits_or,JsNumber.bits_shiftLeft,JsNumber.bits_unsigned,
    BitVec.rotateLeft_def]
  have kept : (32 - n) % 32 = 32 - n % 32 := by omega
  rw [kept]

theorem shift_rotates (within : round < 48) : 0 < SHIFTS.getD round 0 ∧ SHIFTS.getD round 0 < 32 := by
  have all : ∀ place : Fin 48, 0 < SHIFTS.getD place 0 ∧ SHIFTS.getD place 0 < 32 := by decide
  exact all ⟨round,within⟩

theorem word_within (within : round < 48) : ORDER.getD round 0 < 16 := by
  have all : ∀ place : Fin 48, ORDER.getD place 0 < 16 := by decide
  exact all ⟨round,within⟩

theorem bits_step (x : List Int) (state : State) (within : round < 48)
    {constant : BitVec 32} (mixes : Mixes f constant round) :
    JsNumber.bits (step x state round).b =
      (JsNumber.bits state.a + f (JsNumber.bits state.b) (JsNumber.bits state.c) (JsNumber.bits state.d)
        + JsNumber.bits (x.getD (ORDER.getD round 0) 0) + constant).rotateLeft (SHIFTS.getD round 0) := by
  obtain ⟨least,most⟩ := shift_rotates within
  change JsNumber.bits (rotl (JsNumber.unsigned (state.a + (mix round state).1 + x.getD (ORDER.getD round 0) 0
    + (mix round state).2) 0) (SHIFTS.getD round 0)) = _
  rw [bits_rotl _ least most,JsNumber.unsigned_zero,JsNumber.bits_toNat,JsNumber.bits_add,JsNumber.bits_add,
    JsNumber.bits_add,mixes.function,mixes.constant]

theorem turn_next (round : Nat) :
    (turn (round + 1)).registers =
      ((turn round).registers.2.2.2,(turn round).registers.1,(turn round).registers.2.1,(turn round).registers.2.2.1) := by
  have cases : round % 4 = 0 ∧ (round + 1) % 4 = 1 ∨ round % 4 = 1 ∧ (round + 1) % 4 = 2
      ∨ round % 4 = 2 ∧ (round + 1) % 4 = 3 ∨ round % 4 = 3 ∧ (round + 1) % 4 = 0 := by omega
  rcases cases with ⟨now,next⟩ | ⟨now,next⟩ | ⟨now,next⟩ | ⟨now,next⟩
  all_goals simp only [turn,now,next,Order.registers]

theorem first_apart (order : Order) :
    order.registers.2.1 ≠ order.registers.1 ∧ order.registers.2.2.1 ≠ order.registers.1
      ∧ order.registers.2.2.2 ≠ order.registers.1 := by
  cases order <;> decide

theorem step_holds {x : List Int} {X : Nat → BitVec 32} (same : ∀ k, k < 16 → JsNumber.bits (x.getD k 0) = X k)
    {registers : Registers} (within : round < 48)
    {constant : BitVec 32} (mixes : Mixes f constant round)
    (holds : Holds (turn round) state registers) :
    Holds (turn (round + 1)) (step x state round) (Operation.apply f constant X registers (operation round)) := by
  have written := bits_step x state within mixes
  rw [holds.a,holds.b,holds.c,holds.d,same _ (word_within within)] at written
  obtain ⟨b,c,d⟩ := first_apart (turn round)
  have kept : ∀ register, register ≠ (turn round).registers.1 →
      Operation.apply f constant X registers (operation round) register = registers register := by
    intro register other
    exact Function.update_of_ne other _ _
  constructor
  · rw [turn_next,kept _ d]
    exact holds.d
  · rw [turn_next,written]
    exact (Function.update_self (turn round).registers.1 _ registers).symm
  · rw [turn_next,kept _ b]
    exact holds.b
  · rw [turn_next,kept _ c]
    exact holds.c

theorem steps_hold {x : List Int} {X : Nat → BitVec 32} (same : ∀ k, k < 16 → JsNumber.bits (x.getD k 0) = X k)
    {constant : BitVec 32} (count start : Nat)
    (within : start + count ≤ 48) (mixes : ∀ round, start ≤ round → round < start + count → Mixes f constant round)
    {registers : Registers} (holds : Holds (turn start) state registers) :
    Holds (turn (start + count)) ((List.range' start count).foldl (step x) state)
      (((List.range' start count).map operation).foldl (Operation.apply f constant X) registers) := by
  induction count generalizing start state registers with
  | zero => exact holds
  | succ count ih =>
    rw [range'_succ,foldl_cons,map_cons,foldl_cons]
    have first := step_holds same (by omega) (mixes start (by omega) (by omega)) holds
    have rest := ih (start + 1) (by omega) (fun round low high => mixes round (by omega) (by omega)) first
    rw [show start + 1 + count = start + (count + 1) by omega] at rest
    exact rest

theorem round1_table : round1 = (List.range' 0 16).map operation := rfl

theorem round2_table : round2 = (List.range' 16 16).map operation := rfl

theorem round3_table : round3 = (List.range' 32 16).map operation := rfl

theorem rounds_hold {x : List Int} {X : Nat → BitVec 32} (same : ∀ k, k < 16 → JsNumber.bits (x.getD k 0) = X k)
    {registers : Registers} (holds : Holds .ABCD state registers) :
    Holds .ABCD ((List.range 48).foldl (step x) state) (rounds X registers) := by
  have split : List.range 48 = List.range' 0 16 ++ List.range' 16 16 ++ List.range' 32 16 := by decide
  rw [split,foldl_append,foldl_append,rounds,round1_table,round2_table,round3_table]
  have first := steps_hold same 16 0 (by omega) (fun round _ high => mixes_first (by omega)) holds
  have second := steps_hold same 16 16 (by omega) (fun round low high => mixes_second low (by omega)) first
  exact steps_hold same 16 32 (by omega) (fun round low high => mixes_third low) second

structure Unsigned (state : State) : Prop where
  a : 0 ≤ state.a ∧ state.a < 4294967296
  b : 0 ≤ state.b ∧ state.b < 4294967296
  c : 0 ≤ state.c ∧ state.c < 4294967296
  d : 0 ≤ state.d ∧ state.d < 4294967296

theorem unsigned_range (number : Int) : 0 ≤ JsNumber.unsigned number 0 ∧ JsNumber.unsigned number 0 < 4294967296 := by
  rw [JsNumber.unsigned_zero]
  have most := (JsNumber.bits number).isLt
  omega

theorem initial_unsigned : Unsigned initial := by
  constructor <;> decide

theorem step_unsigned (x : List Int) (round : Nat) (unsigned : Unsigned state) :
    Unsigned (step x state round) := ⟨unsigned.d,unsigned_range _,unsigned.b,unsigned.c⟩

theorem steps_unsigned (x : List Int) (rounds : List Nat) (unsigned : Unsigned state) :
    Unsigned (rounds.foldl (step x) state) := by
  induction rounds generalizing state with
  | nil => exact unsigned
  | cons round rest ih => exact ih (step_unsigned x round unsigned)

theorem blocks_unsigned (padded : List UInt8) (offsets : List Nat) (unsigned : Unsigned state) :
    Unsigned (offsets.foldl (block padded) state) := by
  induction offsets generalizing state with
  | nil => exact unsigned
  | cons offset rest ih => exact ih ⟨unsigned_range _,unsigned_range _,unsigned_range _,unsigned_range _⟩

theorem word_range (padded : List UInt8) (offset k : Nat) :
    0 ≤ (wordsAt padded offset).getD k 0 ∧ (wordsAt padded offset).getD k 0 < 4294967296 := by
  by_cases within : k < 16
  · have read : (wordsAt padded offset).getD k 0 = getUint32 padded (offset + k * 4) := by
      rw [wordsAt,getD_eq_getElem?_getD,getElem?_map,getElem?_range within]
      rfl
    have size : (Bytes.slice padded (offset + k * 4) (offset + k * 4 + 4)).length ≤ 4 := by
      rw [Bytes.slice,length_drop,length_take]
      omega
    have most := Bytes.number_lt (Bytes.slice padded (offset + k * 4) (offset + k * 4 + 4))
    have bound := Nat.pow_le_pow_right (show 0 < 256 by decide) size
    rw [read,getUint32]
    omega
  · have none' : (wordsAt padded offset).getD k 0 = 0 := by
      rw [getD_eq_getElem?_getD,getElem?_eq_none (by rw [wordsAt,length_map,length_range]; omega)]
      rfl
    rw [none']
    decide

theorem mix_range (round : Nat) (state : State) :
    (-2147483648 ≤ (mix round state).1 ∧ (mix round state).1 < 2147483648)
      ∧ 0 ≤ (mix round state).2 ∧ (mix round state).2 < 2147483648 := by
  constructor
  · unfold mix
    split
    · exact JsNumber.toInt_range _
    · split
      all_goals exact JsNumber.toInt_range _
  · have constant : (mix round state).2 = 0 ∨ (mix round state).2 = 0x5a827999 ∨ (mix round state).2 = 0x6ed9eba1 := by
      unfold mix
      split
      · exact .inl rfl
      · split
        · exact .inr (.inl rfl)
        · exact .inr (.inr rfl)
    omega

theorem sums_exact (padded : List UInt8) (before : List Nat) (offset round : Nat) :
    let x := wordsAt padded offset
    let state := (List.range round).foldl (step x) (before.foldl (block padded) initial)
    let word := x.getD (ORDER.getD round 0) 0
    JsNumber.Exact (state.a + (mix round state).1) ∧ JsNumber.Exact (state.a + (mix round state).1 + word)
      ∧ JsNumber.Exact (state.a + (mix round state).1 + word + (mix round state).2) := by
  dsimp only
  have a := (steps_unsigned (wordsAt padded offset) (List.range round) (blocks_unsigned padded before initial_unsigned)).a
  have word := word_range padded offset (ORDER.getD round 0)
  obtain ⟨f,k⟩ := mix_range round ((List.range round).foldl (step (wordsAt padded offset)) (before.foldl (block padded) initial))
  refine ⟨?_,?_,?_⟩
  all_goals
    unfold JsNumber.Exact
    constructor <;> omega

end Depsis.Auth.NtHash

import Depsis.Auth.NtHashRounds

/-! The hash of the code is the hash of the definition for every message that the padding has a
length for.
-/
namespace Depsis.Auth.NtHash
open Depsis.Foundation Bytes Rfc1320 List

def filled (length : Nat) : Nat := ((length + 8) / 64 + 1) * 64

theorem paddedLength_eq (length : Nat) :
    paddedLength length = (JsNumber.bits (((JsNumber.bits ((length : Int) + 8)).toInt / 64 + 1) * 64)).toInt := by
  rw [paddedLength,JsNumber.shiftLeft_eq,JsNumber.shiftRight_eq]
  rfl

theorem paddedLength_small {length : Nat} (small : length + 72 < 2147483648) : paddedLength length = (filled length : Int) := by
  have sum : (JsNumber.bits ((length : Int) + 8)).toInt = (length : Int) + 8 := JsNumber.bits_small (by omega) (by omega)
  rw [paddedLength_eq,sum,JsNumber.bits_small (by omega) (by omega),filled]
  omega

theorem paddedLength_large {length : Nat} (large : 2147483648 ≤ length + 72) :
    paddedLength length < 0 ∨ (paddedLength length).toNat < length := by
  rw [paddedLength_eq]
  obtain ⟨turns,wrapped⟩ := JsNumber.bits_wrapped ((length : Int) + 8)
  obtain ⟨least,most⟩ := JsNumber.toInt_range (JsNumber.bits ((length : Int) + 8))
  generalize (JsNumber.bits ((length : Int) + 8)).toInt = low at wrapped least most ⊢
  obtain ⟨more,size⟩ := JsNumber.bits_wrapped ((low / 64 + 1) * 64)
  obtain ⟨floor,ceiling⟩ := JsNumber.toInt_range (JsNumber.bits ((low / 64 + 1) * 64))
  generalize (JsNumber.bits ((low / 64 + 1) * 64)).toInt = whole at size floor ceiling ⊢
  omega

variable {message : List UInt8}

theorem pad_large (large : 2147483648 ≤ message.length + 72) : pad message = none := by
  unfold pad
  dsimp only
  split
  · rfl
  · next positive =>
    rcases paddedLength_large large with negative | short
    · exact absurd negative positive
    · rw [if_pos short]

theorem zeros_eq (length : Nat) : filled length = length + 1 + zeros length + 8 := by
  unfold filled zeros
  omega

theorem little_eq (width value : Nat) :
    little width value = (List.range width).map (fun place => UInt8.ofNat (value / 256 ^ place % 256)) := by
  induction width generalizing value with
  | zero => rfl
  | succ width ih =>
    rw [little,ih,range_succ_eq_map,map_cons,map_map]
    congr 1
    · rw [Nat.pow_zero,Nat.div_one]
    · apply map_congr_left
      intro place _
      rw [Function.comp_apply,Nat.pow_succ,Nat.mul_comm,← Nat.div_div_eq_div_mul]

theorem pad_small (small : message.length + 72 < 2147483648) :
    pad message = some (Rfc1320.pad message) := by
  have size := zeros_eq message.length
  have bytes : little 8 (message.length * 8 % 2 ^ 64) = lengthBytes message.length := little_eq _ _
  unfold pad
  dsimp only
  rw [paddedLength_small small,if_neg (by omega),Int.toNat_natCast,if_neg (by omega)]
  have first : (message ++ List.replicate (filled message.length - message.length) 0).set message.length 0x80
      = (message ++ 0x80::List.replicate (zeros message.length) 0) ++ List.replicate 8 0 := by
    have apart : filled message.length - message.length = (zeros message.length + 8) + 1 := by omega
    rw [apart,replicate_succ,set_append_right _ _ (Nat.le_refl _),Nat.sub_self,set_cons_zero,
      append_assoc,cons_append,replicate_append_replicate]
  have front : (message ++ 0x80::List.replicate (zeros message.length) (0 : UInt8)).length = filled message.length - 8 := by
    rw [length_append,length_cons,length_replicate]
    omega
  rw [first,length_append,length_replicate,Nat.add_sub_cancel,if_neg (by omega),setLittle,
    take_left,drop_of_length_le (by simp; omega),bytes,append_nil]
  rfl

theorem length_pad (message : List UInt8) : (Rfc1320.pad message).length = filled message.length := by
  rw [zeros_eq,Rfc1320.pad,length_append,length_append,length_cons,length_replicate,lengthBytes,
    length_map,length_range]
  omega

theorem append_number (a b c d : UInt8) :
    d.toBitVec ++ c.toBitVec ++ b.toBitVec ++ a.toBitVec = JsNumber.bits (number [a,b,c,d] : Int) := by
  apply BitVec.eq_of_toNat_eq
  have first := a.toNat_lt
  have second := b.toNat_lt
  have third := c.toNat_lt
  have fourth := d.toNat_lt
  rw [JsNumber.bits,BitVec.ofInt_natCast,BitVec.toNat_ofNat]
  simp only [BitVec.toNat_append,UInt8.toNat_toBitVec,number]
  rw [← Nat.shiftLeft_add_eq_or_of_lt (by simpa using first),← Nat.shiftLeft_add_eq_or_of_lt (by simpa using second),
    ← Nat.shiftLeft_add_eq_or_of_lt (by simpa using third)]
  simp only [Nat.shiftLeft_eq]
  omega

theorem length_words (bytes : List UInt8) : (words bytes).length = bytes.length / 4 := by
  fun_induction words bytes with
  | case1 a b c d rest ih =>
    simp only [length_cons,ih]
    omega
  | case2 bytes short =>
    match bytes, short with
    | [],_ => rfl
    | [_],_ => simp
    | [_,_],_ => simp
    | [_,_,_],_ => simp
    | a::b::c::d::rest,short => exact absurd rfl (short a b c d rest)

theorem word_at (bytes : List UInt8) (place : Nat) (fits : place * 4 + 4 ≤ bytes.length) :
    (words bytes).getD place 0 = JsNumber.bits (getUint32 bytes (place * 4)) := by
  induction place generalizing bytes with
  | zero =>
    match bytes, fits with
    | a::b::c::d::rest,_ =>
      rw [words,getD_cons_zero,append_number]
      rfl
  | succ place ih =>
    match bytes, fits with
    | a::b::c::d::rest,fits =>
      rw [words,getD_cons_succ,ih rest (by simp only [length_cons] at fits; omega)]
      have same : slice (a::b::c::d::rest) ((place + 1) * 4) ((place + 1) * 4 + 4) = slice rest (place * 4) (place * 4 + 4) := by
        rw [show (place + 1) * 4 = place * 4 + 4 by omega]
        rfl
      rw [getUint32,getUint32,same]

theorem block_words (padded : List UInt8) (index : Nat) (fits : index * 64 + 64 ≤ padded.length) {k : Nat} (within : k < 16) :
    JsNumber.bits ((wordsAt padded (index * 64)).getD k 0) = (words padded).getD (index * 16 + k) 0 := by
  have read : (wordsAt padded (index * 64)).getD k 0 = getUint32 padded (index * 64 + k * 4) := by
    rw [wordsAt,getD_eq_getElem?_getD,getElem?_map,getElem?_range within]
    rfl
  rw [read,word_at padded (index * 16 + k) (by omega),show (index * 16 + k) * 4 = index * 64 + k * 4 by omega]

theorem initial_holds : Holds .ABCD initial Rfc1320.initial := by
  constructor <;> rfl

theorem block_holds (padded : List UInt8) (index : Nat) (fits : index * 64 + 64 ≤ padded.length)
    {state : State} {registers : Registers} (holds : Holds .ABCD state registers) :
    Holds .ABCD (block padded state (index * 64))
      (Rfc1320.block registers (fun k => (words padded).getD (index * 16 + k) 0)) := by
  have after := rounds_hold (fun k within => block_words padded index fits within) holds
  have sum : ∀ first second : Int, JsNumber.bits (JsNumber.unsigned (first + second) 0) = JsNumber.bits first + JsNumber.bits second := by
    intro first second
    rw [JsNumber.unsigned_zero,JsNumber.bits_toNat,JsNumber.bits_add]
  constructor
  · exact (sum _ _).trans (congrArg₂ (· + ·) after.a holds.a)
  · exact (sum _ _).trans (congrArg₂ (· + ·) after.b holds.b)
  · exact (sum _ _).trans (congrArg₂ (· + ·) after.c holds.c)
  · exact (sum _ _).trans (congrArg₂ (· + ·) after.d holds.d)

theorem blocks_hold (padded : List UInt8) (indexes : List Nat) (fit : ∀ index ∈ indexes, index * 64 + 64 ≤ padded.length)
    {state : State} {registers : Registers} (holds : Holds .ABCD state registers) :
    Holds .ABCD ((indexes.map (fun index => index * 64)).foldl (block padded) state)
      (indexes.foldl (fun registers index => Rfc1320.block registers (fun k => (words padded).getD (index * 16 + k) 0)) registers) := by
  induction indexes generalizing state registers with
  | nil => exact holds
  | cons index rest ih =>
    rw [map_cons,foldl_cons,foldl_cons]
    have one := block_holds padded index (fit index mem_cons_self) holds
    exact ih (fun other inside => fit other (mem_cons_of_mem _ inside)) one

theorem offsets_pad (message : List UInt8) :
    offsets (Rfc1320.pad message).length = (List.range ((words (Rfc1320.pad message)).length / 16)).map (fun index => index * 64) := by
  have same : ((Rfc1320.pad message).length + 63) / 64 = (words (Rfc1320.pad message)).length / 16 := by
    rw [length_words,length_pad,filled]
    omega
  rw [offsets,same]

theorem message_holds (message : List UInt8) :
    Holds .ABCD ((offsets (Rfc1320.pad message).length).foldl (block (Rfc1320.pad message)) initial)
      (blocks (words (Rfc1320.pad message))) := by
  rw [offsets_pad]
  apply blocks_hold _ _ _ initial_holds
  intro index inside
  have within := mem_range.mp inside
  rw [length_words] at within
  omega

theorem little_word (word : BitVec 32) : little 4 word.toNat = bytes word := by
  have byte : ∀ place : Nat, UInt8.ofNat (word.toNat / 2 ^ place % 256) = ⟨word.extractLsb' place 8⟩ := by
    intro place
    apply congrArg UInt8.ofBitVec
    apply BitVec.eq_of_toNat_eq
    rw [BitVec.toNat_ofNat,BitVec.extractLsb'_toNat,Nat.shiftRight_eq_div_pow,Nat.mod_mod_of_dvd _ (Nat.dvd_refl _)]
  simp only [little,bytes]
  rw [← byte 0,← byte 8,← byte 16,← byte 24]
  simp only [Nat.div_div_eq_div_mul,Nat.pow_zero,Nat.div_one,Nat.reducePow,Nat.reduceMul]

theorem md4_of_pad {padded : List UInt8} (padding : pad message = some padded) {registers : Registers}
    (holds : Holds .ABCD ((offsets padded.length).foldl (block padded) initial) registers) :
    md4 message = some (bytes (registers .A) ++ bytes (registers .B) ++ bytes (registers .C) ++ bytes (registers .D)) := by
  rw [md4,padding,Option.map_some]
  dsimp only
  rw [holds.a,holds.b,holds.c,holds.d]
  simp only [setLittle,little_word,Order.registers]
  rfl

theorem md4_small (small : message.length + 72 < 2147483648) : md4 message = some (digest message) :=
  md4_of_pad (pad_small small) (message_holds message)

theorem md4_large (large : 2147483648 ≤ message.length + 72) : md4 message = none := by
  rw [md4,pad_large large]
  rfl

/-- The code computes the hash of the definition exactly for messages 72 bytes short of two to the power 31. -/
theorem md4_refines (message : List UInt8) : md4 message = some (digest message) ↔ message.length + 72 < 2147483648 := by
  constructor
  · intro equal
    by_cases small : message.length + 72 < 2147483648
    · exact small
    · rw [md4_large (by omega)] at equal
      exact absurd equal.symm (Option.some_ne_none _)
  · exact md4_small

/-- For a message that the power 61 of two allows and the padding does not, the code throws. -/
theorem large_message_throws :
    let message : List UInt8 := List.replicate 2147483576 0
    message.length < 2305843009213693952 ∧ md4 message ≠ some (digest message) := by
  refine ⟨?_,?_⟩
  · rw [length_replicate]
    decide
  · rw [md4_large (by rw [length_replicate])]
    exact (Option.some_ne_none _).symm

end Depsis.Auth.NtHash

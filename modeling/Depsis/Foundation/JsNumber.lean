import Mathlib.Algebra.GroupWithZero.Nat
import Mathlib.Data.Int.Basic

/-! Whole numbers as JavaScript computes with them: sums are exact as long as a double holds them,
and the bit operations cut their operands to 32 bits.
-/
namespace Depsis.Foundation.JsNumber

/-- `ToInt32` and `ToUint32` take the same 32 bits. -/
def bits (number : Int) : BitVec 32 := BitVec.ofInt 32 number

def and (first second : Int) : Int := (bits first &&& bits second).toInt

def or (first second : Int) : Int := (bits first ||| bits second).toInt

def xor (first second : Int) : Int := (bits first ^^^ bits second).toInt

def not (number : Int) : Int := (~~~bits number).toInt

def shiftLeft (number : Int) (count : Nat) : Int := (bits number <<< (count % 32)).toInt

def shiftRight (number : Int) (count : Nat) : Int := ((bits number).sshiftRight (count % 32)).toInt

def unsigned (number : Int) (count : Nat) : Int := ((bits number >>> (count % 32)).toNat : Int)

def Exact (number : Int) : Prop := -9007199254740992 ≤ number ∧ number ≤ 9007199254740992

@[simp] theorem bits_toInt (word : BitVec 32) : bits word.toInt = word := BitVec.ofInt_toInt

@[simp] theorem bits_toNat (word : BitVec 32) : bits (word.toNat : Int) = word := by
  rw [bits,BitVec.ofInt_natCast,BitVec.ofNat_toNat,BitVec.setWidth_eq]

theorem bits_add (first second : Int) : bits (first + second) = bits first + bits second := BitVec.ofInt_add first second

theorem unsigned_zero (number : Int) : unsigned number 0 = ((bits number).toNat : Int) := rfl

theorem toInt_range (word : BitVec 32) : -2147483648 ≤ word.toInt ∧ word.toInt < 2147483648 :=
  ⟨BitVec.le_toInt word,BitVec.toInt_lt⟩

theorem bits_small {number : Int} (least : -2147483648 ≤ number) (most : number < 2147483648) :
    (bits number).toInt = number := by
  rw [bits,BitVec.toInt_ofInt]
  exact Int.bmod_eq_of_le (by omega) (by omega)

theorem bits_wrapped (number : Int) : ∃ turns : Int, number = (bits number).toInt + 4294967296 * turns := by
  rw [bits,BitVec.toInt_ofInt]
  refine ⟨number.bdiv 4294967296,?_⟩
  rw [Int.add_comm]
  exact (Int.bdiv_add_bmod number 4294967296).symm

@[simp] theorem bits_and (first second : Int) : bits (and first second) = bits first &&& bits second := bits_toInt _

@[simp] theorem bits_or (first second : Int) : bits (or first second) = bits first ||| bits second := bits_toInt _

@[simp] theorem bits_xor (first second : Int) : bits (xor first second) = bits first ^^^ bits second := bits_toInt _

@[simp] theorem bits_not (number : Int) : bits (not number) = ~~~bits number := bits_toInt _

@[simp] theorem bits_shiftLeft (number : Int) (count : Nat) : bits (shiftLeft number count) = bits number <<< (count % 32) :=
  bits_toInt _

@[simp] theorem bits_unsigned (number : Int) (count : Nat) : bits (unsigned number count) = bits number >>> (count % 32) :=
  bits_toNat _

theorem shiftRight_eq (number : Int) (count : Nat) :
    shiftRight number count = (bits number).toInt / ((2 ^ (count % 32) : Nat) : Int) := by
  rw [shiftRight,BitVec.toInt_sshiftRight,Int.shiftRight_eq_div_pow]

theorem shiftLeft_eq (number : Int) (count : Nat) :
    shiftLeft number count = (bits (number * ((2 ^ (count % 32) : Nat) : Int))).toInt := by
  have product : bits (number * ((2 ^ (count % 32) : Nat) : Int)) = bits number <<< (count % 32) := by
    rw [BitVec.shiftLeft_eq_mul_twoPow]
    rw [bits,BitVec.ofInt_mul]
    congr 1
    rw [BitVec.ofInt_natCast]
    apply BitVec.eq_of_toNat_eq
    rw [BitVec.toNat_ofNat,BitVec.toNat_twoPow]
  rw [product]
  rfl

end Depsis.Foundation.JsNumber

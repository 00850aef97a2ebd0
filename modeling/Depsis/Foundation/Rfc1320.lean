import Mathlib.Algebra.GroupWithZero.Nat
import Mathlib.Data.List.Basic

/-! MD4 as RFC 1320 defines it, on words of 32 bits.
-/
namespace Depsis.Foundation.Rfc1320

/-! Padding: a bit, zeros up to 56 of 64, and the length in bits. -/

def zeros (length : Nat) : Nat := (119 - length % 64) % 64

def lengthBytes (length : Nat) : List UInt8 :=
  (List.range 8).map (fun place => UInt8.ofNat (length * 8 % 2 ^ 64 / 256 ^ place % 256))

def pad (message : List UInt8) : List UInt8 :=
  message ++ 0x80::List.replicate (zeros message.length) 0 ++ lengthBytes message.length

def words : List UInt8 → List (BitVec 32)
  | a::b::c::d::rest => (d.toBitVec ++ c.toBitVec ++ b.toBitVec ++ a.toBitVec)::words rest
  | _ => []

def F (x y z : BitVec 32) : BitVec 32 := (x &&& y) ||| (~~~x &&& z)

def G (x y z : BitVec 32) : BitVec 32 := (x &&& y) ||| (x &&& z) ||| (y &&& z)

def H (x y z : BitVec 32) : BitVec 32 := x ^^^ y ^^^ z

inductive Register where
  | A
  | B
  | C
  | D
  deriving DecidableEq

abbrev Registers := Register → BitVec 32

def initial : Registers
  | .A => 0x67452301
  | .B => 0xefcdab89
  | .C => 0x98badcfe
  | .D => 0x10325476

inductive Order where
  | ABCD
  | DABC
  | CDAB
  | BCDA

def Order.registers : Order → Register × Register × Register × Register
  | .ABCD => (.A,.B,.C,.D)
  | .DABC => (.D,.A,.B,.C)
  | .CDAB => (.C,.D,.A,.B)
  | .BCDA => (.B,.C,.D,.A)

/-- One operation `[abcd k s]`: `a = (a + f(b,c,d) + X[k] + constant) <<< s`. -/
structure Operation where
  order : Order
  k : Nat
  s : Nat

def Operation.apply (f : BitVec 32 → BitVec 32 → BitVec 32 → BitVec 32) (constant : BitVec 32) (X : Nat → BitVec 32)
    (registers : Registers) (operation : Operation) : Registers :=
  let (a,b,c,d) := operation.order.registers
  Function.update registers a
    ((registers a + f (registers b) (registers c) (registers d) + X operation.k + constant).rotateLeft operation.s)

def round1 : List Operation :=
  [⟨.ABCD,0,3⟩,⟨.DABC,1,7⟩,⟨.CDAB,2,11⟩,⟨.BCDA,3,19⟩,
   ⟨.ABCD,4,3⟩,⟨.DABC,5,7⟩,⟨.CDAB,6,11⟩,⟨.BCDA,7,19⟩,
   ⟨.ABCD,8,3⟩,⟨.DABC,9,7⟩,⟨.CDAB,10,11⟩,⟨.BCDA,11,19⟩,
   ⟨.ABCD,12,3⟩,⟨.DABC,13,7⟩,⟨.CDAB,14,11⟩,⟨.BCDA,15,19⟩]

def round2 : List Operation :=
  [⟨.ABCD,0,3⟩,⟨.DABC,4,5⟩,⟨.CDAB,8,9⟩,⟨.BCDA,12,13⟩,
   ⟨.ABCD,1,3⟩,⟨.DABC,5,5⟩,⟨.CDAB,9,9⟩,⟨.BCDA,13,13⟩,
   ⟨.ABCD,2,3⟩,⟨.DABC,6,5⟩,⟨.CDAB,10,9⟩,⟨.BCDA,14,13⟩,
   ⟨.ABCD,3,3⟩,⟨.DABC,7,5⟩,⟨.CDAB,11,9⟩,⟨.BCDA,15,13⟩]

def round3 : List Operation :=
  [⟨.ABCD,0,3⟩,⟨.DABC,8,9⟩,⟨.CDAB,4,11⟩,⟨.BCDA,12,15⟩,
   ⟨.ABCD,2,3⟩,⟨.DABC,10,9⟩,⟨.CDAB,6,11⟩,⟨.BCDA,14,15⟩,
   ⟨.ABCD,1,3⟩,⟨.DABC,9,9⟩,⟨.CDAB,5,11⟩,⟨.BCDA,13,15⟩,
   ⟨.ABCD,3,3⟩,⟨.DABC,11,9⟩,⟨.CDAB,7,11⟩,⟨.BCDA,15,15⟩]

def rounds (X : Nat → BitVec 32) (registers : Registers) : Registers :=
  round3.foldl (Operation.apply H 0x6ed9eba1 X)
    (round2.foldl (Operation.apply G 0x5a827999 X) (round1.foldl (Operation.apply F 0 X) registers))

def block (registers : Registers) (X : Nat → BitVec 32) : Registers :=
  fun register => rounds X registers register + registers register

def blocks (M : List (BitVec 32)) : Registers :=
  (List.range (M.length / 16)).foldl (fun registers i => block registers (fun j => M.getD (i * 16 + j) 0)) initial

def bytes (word : BitVec 32) : List UInt8 :=
  [⟨word.extractLsb' 0 8⟩,⟨word.extractLsb' 8 8⟩,⟨word.extractLsb' 16 8⟩,⟨word.extractLsb' 24 8⟩]

def digest (message : List UInt8) : List UInt8 :=
  let registers := blocks (words (pad message))
  bytes (registers .A) ++ bytes (registers .B) ++ bytes (registers .C) ++ bytes (registers .D)

end Depsis.Foundation.Rfc1320

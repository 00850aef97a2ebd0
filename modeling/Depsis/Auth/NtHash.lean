import Depsis.Foundation.Bytes
import Depsis.Foundation.JsNumber

/-! The MD4 of the NT hash, in the numbers of JavaScript.
-/
namespace Depsis.Auth.NtHash
open Depsis.Foundation Bytes

def SHIFTS : List Nat :=
  [3,7,11,19,3,7,11,19,3,7,11,19,3,7,11,19,3,5,9,13,3,5,9,13,3,5,9,13,3,5,9,13,3,9,11,15,3,9,11,15,3,9,11,15,3,9,11,15]

def ORDER : List Nat :=
  [0,1,2,3,4,5,6,7,8,9,10,11,12,13,14,15,0,4,8,12,1,5,9,13,2,6,10,14,3,7,11,15,0,8,4,12,2,10,6,14,1,9,5,13,3,11,7,15]

def rotl (x : Int) (n : Nat) : Int :=
  JsNumber.unsigned (JsNumber.or (JsNumber.shiftLeft x n) (JsNumber.unsigned x (32 - n))) 0

def setLittle (bytes : List UInt8) (place width value : Nat) : List UInt8 :=
  bytes.take place ++ little width value ++ bytes.drop (place + width)

def getUint32 (bytes : List UInt8) (place : Nat) : Int := (number (slice bytes place (place + 4)) : Int)

def paddedLength (length : Nat) : Int :=
  JsNumber.shiftLeft (JsNumber.shiftRight ((length : Int) + 8) 6 + 1) 6

/-- A 0x80 byte, zeroes, then the length in bits; nothing where an array is too short and a
`RangeError` is thrown.
-/
def pad (message : List UInt8) : Option (List UInt8) :=
  let bitLength := message.length * 8 % 2 ^ 64
  let size := paddedLength message.length
  if size < 0 then none
  else if size.toNat < message.length then none
  else
    let padded := (message ++ List.replicate (size.toNat - message.length) 0).set message.length 0x80
    if padded.length < 8 then none else some (setLittle padded (padded.length - 8) 8 bitLength)

structure State where
  a : Int
  b : Int
  c : Int
  d : Int

def initial : State := ⟨0x67452301,0xefcdab89,0x98badcfe,0x10325476⟩

def mix (round : Nat) (state : State) : Int × Int :=
  if round < 16 then
    (JsNumber.or (JsNumber.and state.b state.c) (JsNumber.and (JsNumber.not state.b) state.d),0)
  else if round < 32 then
    (JsNumber.or (JsNumber.or (JsNumber.and state.b state.c) (JsNumber.and state.b state.d)) (JsNumber.and state.c state.d),0x5a827999)
  else (JsNumber.xor (JsNumber.xor state.b state.c) state.d,0x6ed9eba1)

def step (x : List Int) (state : State) (round : Nat) : State :=
  let f := (mix round state).1
  let k := (mix round state).2
  let word := x.getD (ORDER.getD round 0) 0
  let shift := SHIFTS.getD round 0
  let next := rotl (JsNumber.unsigned (state.a + f + word + k) 0) shift
  ⟨state.d,next,state.b,state.c⟩

def wordsAt (padded : List UInt8) (offset : Nat) : List Int := (List.range 16).map (fun i => getUint32 padded (offset + i * 4))

def block (padded : List UInt8) (state : State) (offset : Nat) : State :=
  let after := (List.range 48).foldl (step (wordsAt padded offset)) state
  ⟨JsNumber.unsigned (after.a + state.a) 0,JsNumber.unsigned (after.b + state.b) 0,
    JsNumber.unsigned (after.c + state.c) 0,JsNumber.unsigned (after.d + state.d) 0⟩

def offsets (length : Nat) : List Nat := (List.range ((length + 63) / 64)).map (fun index => index * 64)

def md4 (message : List UInt8) : Option (List UInt8) :=
  (pad message).map (fun padded =>
    let state := (offsets padded.length).foldl (block padded) initial
    let out := List.replicate 16 0
    setLittle (setLittle (setLittle (setLittle out 0 4 (JsNumber.bits state.a).toNat) 4 4 (JsNumber.bits state.b).toNat)
      8 4 (JsNumber.bits state.c).toNat) 12 4 (JsNumber.bits state.d).toNat)

end Depsis.Auth.NtHash

import Depsis.Foundation.Bytes

/-! The thumbnail a photograph carries in its metadata, taken out without decoding anything. Every
read is counted as a fault when it leaves the buffer.
-/
namespace Depsis.Files.ExifThumbnail
open Depsis.Foundation.Bytes

structure EmbeddedThumbnail where
  bytes : List UInt8
  orientation : Nat
deriving DecidableEq

inductive Fault where
  | outside
  | unfinished
deriving DecidableEq

def SOI : UInt8 := 0xd8
def APP1 : UInt8 := 0xe1
def SOS : UInt8 := 0xda

def MAX_THUMBNAIL : Nat := 256 * 1024

def EXIF : List UInt8 := [0x45,0x78,0x69,0x66,0,0]

def index (buffer : List UInt8) (place : Nat) : Except Fault UInt8 :=
  match buffer[place]? with
  | some byte => .ok byte
  | none => .error .outside

def numberIn (isLittle : Bool) (bytes : List UInt8) : Nat := number (if isLittle then bytes else bytes.reverse)

def readUInt (isLittle : Bool) (width : Nat) (buffer : List UInt8) (place : Nat) : Except Fault Nat :=
  if place + width ≤ buffer.length then .ok (numberIn isLittle (slice buffer place (place + width))) else .error .outside

def unsigned (isLittle : Bool) (width : Nat) (tiff : List UInt8) (place : Nat) : Except Fault (Option Nat) :=
  if place + width > tiff.length then .ok none else some <$> readUInt isLittle width tiff place

def u16 (isLittle : Bool) (tiff : List UInt8) (place : Nat) : Except Fault (Option Nat) := unsigned isLittle 2 tiff place

def u32 (isLittle : Bool) (tiff : List UInt8) (place : Nat) : Except Fault (Option Nat) := unsigned isLittle 4 tiff place

def tagLoop (isLittle : Bool) (tiff : List UInt8) (ifd tag : Nat) : Nat → Nat → Except Fault (Option Nat)
  | 0,_ => .ok none
  | left + 1,i => do
    let place := ifd + 2 + i * 12
    if (← u16 isLittle tiff place) ≠ some tag then
      tagLoop isLittle tiff ifd tag left (i + 1)
    else
      let type ← u16 isLittle tiff (place + 2)
      let values ← u32 isLittle tiff (place + 4)
      if values ≠ some 1 then .ok none
      else if type = some 3 then u16 isLittle tiff (place + 8)
      else if type = some 4 then u32 isLittle tiff (place + 8)
      else .ok none

def tagValue (isLittle : Bool) (tiff : List UInt8) (ifd tag : Nat) : Except Fault (Option Nat) := do
  match ← u16 isLittle tiff ifd with
  | none => .ok none
  | some count =>
    if count > 4096 then .ok none
    else if ifd + 2 + count * 12 > tiff.length then .ok none
    else tagLoop isLittle tiff ifd tag count 0

def thumbnailAt (isLittle : Bool) (tiff : List UInt8) (orientation ifd1 : Nat) : Except Fault (Option EmbeddedThumbnail) := do
  match ← tagValue isLittle tiff ifd1 0x0201,← tagValue isLittle tiff ifd1 0x0202 with
  | some offset,some length =>
    if length = 0 ∨ length > MAX_THUMBNAIL then .ok none
    else if offset + length > tiff.length then .ok none
    else
      let bytes := slice tiff offset (offset + length)
      if bytes.length < 2 then .ok none
      else if (← index bytes 0) ≠ 0xff then .ok none
      else if (← index bytes 1) ≠ SOI then .ok none
      else .ok (some ⟨bytes,if 1 ≤ orientation ∧ orientation ≤ 8 then orientation else 1⟩)
  | _,_ => .ok none

def directories (isLittle : Bool) (tiff : List UInt8) : Except Fault (Option EmbeddedThumbnail) := do
  if (← u16 isLittle tiff 2) ≠ some 0x2a then .ok none
  else
    match ← u32 isLittle tiff 4 with
    | none => .ok none
    | some ifd0 =>
      if ifd0 < 8 then .ok none
      else
        let orientation := (← tagValue isLittle tiff ifd0 0x0112).getD 1
        match ← u16 isLittle tiff ifd0 with
        | none => .ok none
        | some count0 =>
          match ← u32 isLittle tiff (ifd0 + 2 + count0 * 12) with
          | none => .ok none
          | some ifd1 => if ifd1 = 0 ∨ ifd1 < 8 then .ok none else thumbnailAt isLittle tiff orientation ifd1

def byteOrder (tiff : List UInt8) : Option Bool :=
  if slice tiff 0 2 = [0x49,0x49] then some true
  else if slice tiff 0 2 = [0x4d,0x4d] then some false
  else none

def fromExif (tiff : List UInt8) : Except Fault (Option EmbeddedThumbnail) :=
  if tiff.length < 8 then .ok none
  else
    match byteOrder tiff with
    | none => .ok none
    | some isLittle => directories isLittle tiff

def segments (buffer : List UInt8) : Nat → Nat → Except Fault (Option EmbeddedThumbnail)
  | 0,place => if place + 4 ≤ buffer.length then .error .unfinished else .ok none
  | fuel + 1,place =>
    if place + 4 ≤ buffer.length then do
      if (← index buffer place) ≠ 0xff then .ok none
      else
        let marker ← index buffer (place + 1)
        if marker = 0xff then segments buffer fuel (place + 1)
        else if marker = SOS then .ok none
        else
          let length ← readUInt false 2 buffer (place + 2)
          let start := place + 4
          let stop := place + 2 + length
          if length < 2 then .ok none
          else if stop > buffer.length then .ok none
          else if marker = APP1 ∧ slice buffer start (start + 6) = EXIF then fromExif (slice buffer (start + 6) stop)
          else segments buffer fuel stop
    else .ok none

def embeddedThumbnail (buffer : List UInt8) : Except Fault (Option EmbeddedThumbnail) := do
  if buffer.length < 4 then .ok none
  else if (← index buffer 0) ≠ 0xff then .ok none
  else if (← index buffer 1) ≠ SOI then .ok none
  else segments buffer buffer.length 2

end Depsis.Files.ExifThumbnail

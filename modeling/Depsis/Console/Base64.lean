import Depsis.Foundation.Utf8

/-! The console's base64: what it writes it reads back, and it reads nothing but the standard
alphabet in whole groups with their padding.
-/
namespace Depsis.Console.Base64
open Depsis.Foundation List Option

def ALPHABET : List Char :=
  "ABCDEFGHIJKLMNOPQRSTUVWXYZabcdefghijklmnopqrstuvwxyz0123456789+/".toList

def symbol (index : Nat) : Char := ALPHABET.getD index 'A'

def chunks3 : List UInt8 → List (List UInt8)
  | a::b::c::rest => [a,b,c]::chunks3 rest
  | [] => []
  | rest => [rest]

def encodeChunk (chunk : List UInt8) : List Char :=
  let b0 := (chunk.getD 0 0).toNat
  let b1 := (chunk.getD 1 0).toNat
  let b2 := (chunk.getD 2 0).toNat
  let packed := b0 <<< 16 ||| b1 <<< 8 ||| b2
  [symbol (packed >>> 18 &&& 63),symbol (packed >>> 12 &&& 63),
    if 1 < chunk.length then symbol (packed >>> 6 &&& 63) else '=',
    if 2 < chunk.length then symbol (packed &&& 63) else '=']

def base64Encode (input : List UInt8) : List Char := (chunks3 input).flatMap encodeChunk

def valueOf (byte : UInt8) : Option Nat :=
  if 65 ≤ byte ∧ byte ≤ 90 then some (byte.toNat - 65)
  else if 97 ≤ byte ∧ byte ≤ 122 then some (byte.toNat - 97 + 26)
  else if 48 ≤ byte ∧ byte ≤ 57 then some (byte.toNat - 48 + 52)
  else if byte = 43 then some 62
  else if byte = 47 then some 63
  else none

def chunks4 : List UInt8 → List (List UInt8)
  | a::b::c::d::rest => [a,b,c,d]::chunks4 rest
  | [] => []
  | rest => [rest]

def take (final : Bool) (state : Nat × Nat) (byte : UInt8 × Nat) : Option (Nat × Nat) :=
  if byte.1 = 61 then
    if !final || byte.2 < 2 then none else some (state.1 <<< 6,state.2 + 1)
  else if 0 < state.2 then none
  else (valueOf byte.1).map (fun value => (state.1 <<< 6 ||| value,state.2))

def decodeChunk (final : Bool) (chunk : List UInt8) : Option (List UInt8) :=
  (chunk.zipIdx.foldlM (take final) (0,0)).map (fun state =>
    [UInt8.ofNat (state.1 >>> 16 &&& 0xff)] ++
      (if state.2 < 2 then [UInt8.ofNat (state.1 >>> 8 &&& 0xff)] else []) ++
      (if state.2 < 1 then [UInt8.ofNat (state.1 &&& 0xff)] else []))

def decodeChunks : List (List UInt8) → Option (List UInt8)
  | [] => some []
  | chunk::rest => do
    let out ← decodeChunk rest.isEmpty chunk
    let later ← decodeChunks rest
    some (out ++ later)

def base64Decode (input : List Char) : Option (List UInt8) :=
  let bytes := Utf8.encode input
  if bytes.length % 4 = 0 then decodeChunks (chunks4 bytes) else none

def byteOf (value : Nat) : UInt8 := UInt8.ofNat (symbol value).toNat

private theorem symbol_byte : ∀ value < 64, String.utf8EncodeChar (symbol value) = [byteOf value] ∧
    valueOf (byteOf value) = some value ∧ byteOf value ≠ 61 ∧ symbol value ∈ ALPHABET := by decide +kernel

private theorem valueOf_byte : ∀ number < 256, ∀ value, valueOf (UInt8.ofNat number) = some value →
    value < 64 ∧ byteOf value = UInt8.ofNat number := by
  intro number few value found
  have each : ∀ number < 256, (valueOf (UInt8.ofNat number)).all (fun value => value < 64 && byteOf value = UInt8.ofNat number) = true := by
    decide +kernel
  have one := each number few
  rw [found] at one
  simpa using one

theorem valueOf_some {byte : UInt8} {value : Nat} (found : valueOf byte = some value) : value < 64 ∧ byte = byteOf value := by
  have same : UInt8.ofNat byte.toNat = byte := UInt8.ofNat_toNat
  have read := valueOf_byte byte.toNat byte.toNat_lt value (by rw [same]; exact found)
  rw [same] at read
  exact ⟨read.1,read.2.symm⟩

private theorem pack3 (a b c : UInt8) : a.toNat <<< 16 ||| b.toNat <<< 8 ||| c.toNat = a.toNat * 65536 + b.toNat * 256 + c.toNat := by
  have small : c.toNat < 2 ^ 8 := c.toNat_lt
  have low : b.toNat <<< 8 + c.toNat < 2 ^ 16 := by
    have := b.toNat_lt
    rw [Nat.shiftLeft_eq]
    omega
  rw [Nat.or_assoc,← Nat.shiftLeft_add_eq_or_of_lt small,← Nat.shiftLeft_add_eq_or_of_lt low,Nat.shiftLeft_eq,Nat.shiftLeft_eq]
  omega

private theorem pack2 {front value : Nat} (small : value < 64) : front <<< 6 ||| value = front * 64 + value := by
  have few : value < 2 ^ 6 := small
  rw [← Nat.shiftLeft_add_eq_or_of_lt few,Nat.shiftLeft_eq]

private theorem mask6 (number : Nat) : number &&& 63 = number % 64 := Nat.and_two_pow_sub_one_eq_mod number 6

private theorem mask8 (number : Nat) : number &&& 0xff = number % 256 := Nat.and_two_pow_sub_one_eq_mod number 8

def symbols (number : Nat) : List Nat := [number / 262144 % 64,number / 4096 % 64,number / 64 % 64,number % 64]

private theorem encode3 (a b c : UInt8) :
    encodeChunk [a,b,c] = (symbols (a.toNat * 65536 + b.toNat * 256 + c.toNat)).map symbol := by
  unfold encodeChunk
  simp only [getD_cons_zero,getD_cons_succ,pack3,mask6,Nat.shiftRight_eq_div_pow]
  rfl

private theorem encode2 (a b : UInt8) :
    encodeChunk [a,b] = ((symbols (a.toNat * 65536 + b.toNat * 256)).take 3).map symbol ++ ['='] := by
  unfold encodeChunk
  have packed : a.toNat <<< 16 ||| b.toNat <<< 8 ||| (0 : UInt8).toNat = a.toNat * 65536 + b.toNat * 256 := by
    rw [pack3,UInt8.toNat_zero,Nat.add_zero]
  simp only [getD_cons_zero,getD_cons_succ,getD_nil,packed,mask6,Nat.shiftRight_eq_div_pow]
  rfl

private theorem encode1 (a : UInt8) :
    encodeChunk [a] = ((symbols (a.toNat * 65536)).take 2).map symbol ++ ['=','='] := by
  unfold encodeChunk
  have packed : a.toNat <<< 16 ||| (0 : UInt8).toNat <<< 8 ||| (0 : UInt8).toNat = a.toNat * 65536 := by
    rw [pack3,UInt8.toNat_zero,Nat.zero_mul,Nat.add_zero]
  simp only [getD_cons_zero,getD_cons_succ,getD_nil,packed,mask6,Nat.shiftRight_eq_div_pow]
  rfl

def bytesOf (number : Nat) : List UInt8 := [UInt8.ofNat (number / 65536),UInt8.ofNat (number / 256),UInt8.ofNat number]

private theorem take_value {final : Bool} {front offset value : Nat} {byte : UInt8} (found : valueOf byte = some value) :
    take final (front,0) (byte,offset) = some (front * 64 + value,0) := by
  have few := valueOf_some found
  have other : byte ≠ 61 := by
    rw [few.2]
    exact (symbol_byte value few.1).2.2.1
  rw [take,if_neg other,if_neg (Nat.lt_irrefl 0),found,map_some,pack2 few.1]

private theorem ofNat_mod (number : Nat) : UInt8.ofNat (number % 256) = UInt8.ofNat number := by
  rw [← UInt8.toNat_inj,UInt8.toNat_ofNat',UInt8.toNat_ofNat',Nat.mod_mod]

private theorem decode4 {final : Bool} {a b c d : UInt8} {va vb vc vd : Nat} (first : valueOf a = some va) (second : valueOf b = some vb)
    (third : valueOf c = some vc) (fourth : valueOf d = some vd) :
    decodeChunk final [a,b,c,d] = some (bytesOf (((va * 64 + vb) * 64 + vc) * 64 + vd)) := by
  unfold decodeChunk
  simp only [zipIdx_cons,zipIdx_nil,foldlM_cons,foldlM_nil,take_value first,take_value second,take_value third,
    take_value fourth,Option.bind_eq_bind,Option.bind_some,Option.pure_def,Option.map_some,mask8,Nat.shiftRight_eq_div_pow,ofNat_mod,
    Nat.zero_mul,Nat.zero_add]
  rfl

private theorem decode3 {a b c : UInt8} {va vb vc : Nat} (first : valueOf a = some va) (second : valueOf b = some vb)
    (third : valueOf c = some vc) :
    decodeChunk true [a,b,c,61] = some ((bytesOf (((va * 64 + vb) * 64 + vc) * 64)).take 2) := by
  unfold decodeChunk
  have pad (front : Nat) : take true (front,0) (61,3) = some (front * 64,1) := by
    rw [take,if_pos rfl,if_neg (by decide),Nat.shiftLeft_eq]
  simp only [zipIdx_cons,zipIdx_nil,foldlM_cons,foldlM_nil,take_value first,take_value second,take_value third,
    Option.bind_eq_bind,Option.bind_some,Option.pure_def,Option.map_some,mask8,Nat.shiftRight_eq_div_pow,ofNat_mod,
    Nat.zero_mul,Nat.zero_add,pad]
  rfl

private theorem decode2 {a b : UInt8} {va vb : Nat} (first : valueOf a = some va) (second : valueOf b = some vb) :
    decodeChunk true [a,b,61,61] = some ((bytesOf (((va * 64 + vb) * 64) * 64)).take 1) := by
  unfold decodeChunk
  have pad (front : Nat) : take true (front,0) (61,2) = some (front * 64,1) := by
    rw [take,if_pos rfl,if_neg (by decide),Nat.shiftLeft_eq]
  have more (front : Nat) : take true (front,1) (61,3) = some (front * 64,2) := by
    rw [take,if_pos rfl,if_neg (by decide),Nat.shiftLeft_eq]
  simp only [zipIdx_cons,zipIdx_nil,foldlM_cons,foldlM_nil,take_value first,take_value second,
    Option.bind_eq_bind,Option.bind_some,Option.pure_def,Option.map_some,mask8,Nat.shiftRight_eq_div_pow,ofNat_mod,
    Nat.zero_mul,Nat.zero_add,pad,more]
  rfl

private inductive Chunk : Bool → List UInt8 → List UInt8 → Prop
  | whole {final : Bool} {a b c d : UInt8} {va vb vc vd : Nat} (first : valueOf a = some va) (second : valueOf b = some vb)
      (third : valueOf c = some vc) (fourth : valueOf d = some vd) :
      Chunk final [a,b,c,d] (bytesOf (((va * 64 + vb) * 64 + vc) * 64 + vd))
  | one {a b c : UInt8} {va vb vc : Nat} (first : valueOf a = some va) (second : valueOf b = some vb)
      (third : valueOf c = some vc) : Chunk true [a,b,c,61] ((bytesOf (((va * 64 + vb) * 64 + vc) * 64)).take 2)
  | two {a b : UInt8} {va vb : Nat} (first : valueOf a = some va) (second : valueOf b = some vb) :
      Chunk true [a,b,61,61] ((bytesOf (((va * 64 + vb) * 64) * 64)).take 1)

private theorem take_some {final : Bool} {state after : Nat × Nat} {byte : UInt8} {offset : Nat}
    (taken : take final state (byte,offset) = some after) :
    (state.2 = 0 ∧ after.2 = 0 ∧ ∃ value, valueOf byte = some value) ∨
      (byte = 61 ∧ final = true ∧ 2 ≤ offset ∧ after.2 = state.2 + 1) := by
  unfold take at taken
  split at taken
  · next pad =>
    split at taken
    · cases taken
    · next allowed =>
      cases taken
      simp only [Bool.or_eq_true,Bool.not_eq_true',decide_eq_true_eq,not_or,Bool.not_eq_false] at allowed
      exact .inr ⟨pad,allowed.1,by omega,rfl⟩
  · split at taken
    · cases taken
    · obtain ⟨value,found,rfl⟩ := map_eq_some_iff.mp taken
      exact .inl ⟨by omega,by omega,value,found⟩

private theorem decodeChunk_some {final : Bool} {a b c d : UInt8} {out : List UInt8}
    (decoded : decodeChunk final [a,b,c,d] = some out) : Chunk final [a,b,c,d] out := by
  have kept := decoded
  obtain ⟨state,folded,-⟩ := map_eq_some_iff.mp decoded
  simp only [zipIdx_cons,zipIdx_nil,foldlM_cons,foldlM_nil] at folded
  obtain ⟨s1,t1,folded⟩ := bind_eq_some_iff.mp folded
  obtain ⟨s2,t2,folded⟩ := bind_eq_some_iff.mp folded
  obtain ⟨s3,t3,folded⟩ := bind_eq_some_iff.mp folded
  obtain ⟨s4,t4,folded⟩ := bind_eq_some_iff.mp folded
  rcases take_some t1 with ⟨_,p1,va,first⟩ | ⟨_,_,early,_⟩
  swap
  · omega
  rcases take_some t2 with ⟨_,p2,vb,second⟩ | ⟨_,_,early,_⟩
  swap
  · omega
  rcases take_some t3 with ⟨_,p3,vc,third⟩ | ⟨rfl,rfl,_,p3⟩
  · rcases take_some t4 with ⟨_,_,vd,fourth⟩ | ⟨rfl,rfl,_,_⟩
    · rw [decode4 first second third fourth] at kept
      cases kept
      exact .whole first second third fourth
    · rw [decode3 first second third] at kept
      cases kept
      exact .one first second third
  · rcases take_some t4 with ⟨padded,_,_⟩ | ⟨rfl,_,_,_⟩
    · omega
    · rw [decode2 first second] at kept
      cases kept
      exact .two first second

private theorem encode_symbols {values : List Nat} (few : ∀ value ∈ values, value < 64) (rest : List Char) :
    Utf8.encode (values.map symbol ++ rest) = values.map byteOf ++ Utf8.encode rest := by
  induction values with
  | nil => rfl
  | cons value values ih =>
    obtain ⟨first,later⟩ := forall_mem_cons.mp few
    rw [map_cons,cons_append,Utf8.encode_cons,(symbol_byte value first).1,ih later]
    rfl

private theorem encode_pads (pads : Nat) : Utf8.encode (List.replicate pads '=') = List.replicate pads 61 := by
  induction pads with
  | zero => rfl
  | succ pads ih =>
    rw [replicate_succ,Utf8.encode_cons,ih,replicate_succ]
    rfl

private theorem symbols_few (number : Nat) : ∀ value ∈ symbols number, value < 64 := by
  intro value mem
  simp only [symbols,mem_cons,not_mem_nil,or_false] at mem
  omega

private theorem byte_eq {number : Nat} (byte : UInt8) (same : number % 256 = byte.toNat) : UInt8.ofNat number = byte := by
  rw [← UInt8.toNat_inj,UInt8.toNat_ofNat']
  exact same

private theorem value_of {value : Nat} (few : value < 64) : valueOf (byteOf value) = some value := (symbol_byte value few).2.1

private theorem decode_chunks (bytes : List UInt8) :
    decodeChunks (chunks4 (Utf8.encode (base64Encode bytes))) = some bytes ∧ (Utf8.encode (base64Encode bytes)).length % 4 = 0 := by
  induction bytes using chunks3.induct with
  | case1 a b c rest ih =>
    have small : a.toNat < 256 ∧ b.toNat < 256 ∧ c.toNat < 256 := ⟨a.toNat_lt,b.toNat_lt,c.toNat_lt⟩
    have split : base64Encode (a::b::c::rest) = encodeChunk [a,b,c] ++ base64Encode rest := rfl
    generalize number : a.toNat * 65536 + b.toNat * 256 + c.toNat = n
    rw [split,encode3,encode_symbols (symbols_few _),number]
    have back : ((n / 262144 % 64 * 64 + n / 4096 % 64) * 64 + n / 64 % 64) * 64 + n % 64 = n := by omega
    have out : bytesOf n = [a,b,c] := by
      rw [bytesOf,byte_eq a (by omega),byte_eq b (by omega),byte_eq c (by omega)]
    change decodeChunks ([byteOf _,byteOf _,byteOf _,byteOf _]::chunks4 (Utf8.encode (base64Encode rest))) = _ ∧ _
    refine ⟨?_,?_⟩
    · rw [decodeChunks,decode4 (value_of (Nat.mod_lt _ (by decide))) (value_of (Nat.mod_lt _ (by decide)))
        (value_of (Nat.mod_lt _ (by decide))) (value_of (Nat.mod_lt _ (by decide))),back,out,ih.1]
      rfl
    · rw [length_append]
      change (4 + _) % 4 = 0
      omega
  | case2 => exact ⟨rfl,rfl⟩
  | case3 rest more some' =>
    match rest with
    | [] => exact absurd rfl some'
    | [a] =>
      have small := a.toNat_lt
      have split : base64Encode [a] = encodeChunk [a] := append_nil _
      generalize number : a.toNat * 65536 = n
      rw [split,encode1,encode_symbols (fun value mem => symbols_few _ value (mem_of_mem_take mem)),number]
      have back : ((n / 262144 % 64 * 64 + n / 4096 % 64) * 64) * 64 = n := by omega
      have out : (bytesOf n).take 1 = [a] := by
        rw [bytesOf,byte_eq a (by omega)]
        rfl
      change decodeChunks ([byteOf _,byteOf _,61,61]::chunks4 []) = _ ∧ 4 % 4 = 0
      rw [decodeChunks,chunks4,isEmpty_nil,decode2 (value_of (Nat.mod_lt _ (by decide))) (value_of (Nat.mod_lt _ (by decide))),
        back,out]
      exact ⟨rfl,rfl⟩
    | [a,b] =>
      have small : a.toNat < 256 ∧ b.toNat < 256 := ⟨a.toNat_lt,b.toNat_lt⟩
      have split : base64Encode [a,b] = encodeChunk [a,b] := append_nil _
      generalize number : a.toNat * 65536 + b.toNat * 256 = n
      rw [split,encode2,encode_symbols (fun value mem => symbols_few _ value (mem_of_mem_take mem)),number]
      have back : ((n / 262144 % 64 * 64 + n / 4096 % 64) * 64 + n / 64 % 64) * 64 = n := by omega
      have out : (bytesOf n).take 2 = [a,b] := by
        rw [bytesOf,byte_eq a (by omega),byte_eq b (by omega)]
        rfl
      change decodeChunks ([byteOf _,byteOf _,byteOf _,61]::chunks4 []) = _ ∧ 4 % 4 = 0
      rw [decodeChunks,chunks4,isEmpty_nil,decode3 (value_of (Nat.mod_lt _ (by decide))) (value_of (Nat.mod_lt _ (by decide)))
        (value_of (Nat.mod_lt _ (by decide))),back,out]
      exact ⟨rfl,rfl⟩
    | a::b::c::rest => exact absurd rfl (more a b c rest)

theorem decode_encode (bytes : List UInt8) : base64Decode (base64Encode bytes) = some bytes := by
  obtain ⟨decoded,whole⟩ := decode_chunks bytes
  unfold base64Decode
  dsimp only
  rw [if_pos whole]
  exact decoded

/-- How many values of the last symbol mean the same, behind which this much padding stands. -/
def spare : Nat → Nat
  | 0 => 1
  | 1 => 4
  | _ => 16

structure Shape (bytes : List UInt8) (out : List UInt8) (front : List Nat) (last pads : Nat) : Prop where
  written : bytes = front.map byteOf ++ byteOf last::List.replicate pads 61
  few : ∀ value ∈ front, value < 64
  lastFew : last < 64
  padding : pads ≤ 2
  back : base64Encode out = front.map symbol ++ symbol (last / spare pads * spare pads)::List.replicate pads '='

private theorem symbols_of {a b c d : Nat} (fa : a < 64) (fb : b < 64) (fc : c < 64) (fd : d < 64) :
    symbols (((a * 64 + b) * 64 + c) * 64 + d) = [a,b,c,d] := by
  simp only [symbols,List.cons.injEq,and_true]
  omega

private theorem three_few {a b c : Nat} (fa : a < 64) (fb : b < 64) (fc : c < 64) : ∀ value ∈ [a,b,c], value < 64 :=
  forall_mem_cons.mpr ⟨fa,forall_mem_cons.mpr ⟨fb,forall_mem_cons.mpr ⟨fc,fun _ mem => absurd mem not_mem_nil⟩⟩⟩

private theorem encode_whole {va vb vc vd : Nat} (fa : va < 64) (fb : vb < 64) (fc : vc < 64) (fd : vd < 64) (rest : List UInt8) :
    base64Encode (bytesOf (((va * 64 + vb) * 64 + vc) * 64 + vd) ++ rest) = [va,vb,vc,vd].map symbol ++ base64Encode rest := by
  generalize number : ((va * 64 + vb) * 64 + vc) * 64 + vd = n
  change encodeChunk [_,_,_] ++ base64Encode rest = _
  rw [encode3,UInt8.toNat_ofNat',UInt8.toNat_ofNat',UInt8.toNat_ofNat']
  have back : n / 65536 % 2 ^ 8 * 65536 + n / 256 % 2 ^ 8 * 256 + n % 2 ^ 8 = n := by omega
  rw [back,← number,symbols_of fa fb fc fd]

private theorem shape_chunk {bytes out : List UInt8} (chunk : Chunk true bytes out) : ∃ front last pads, Shape bytes out front last pads := by
  cases chunk with
  | @whole _ a b c d va vb vc vd first second third fourth =>
    obtain ⟨fa,ea⟩ := valueOf_some first
    obtain ⟨fb,eb⟩ := valueOf_some second
    obtain ⟨fc,ec⟩ := valueOf_some third
    obtain ⟨fd,ed⟩ := valueOf_some fourth
    refine ⟨[va,vb,vc],vd,0,⟨by rw [ea,eb,ec,ed]; rfl,three_few fa fb fc,fd,by decide,?_⟩⟩
    have encoded := encode_whole fa fb fc fd []
    rw [append_nil] at encoded
    rw [encoded,spare,Nat.div_one,Nat.mul_one]
    rfl
  | @one a b c va vb vc first second third =>
    obtain ⟨fa,ea⟩ := valueOf_some first
    obtain ⟨fb,eb⟩ := valueOf_some second
    obtain ⟨fc,ec⟩ := valueOf_some third
    refine ⟨[va,vb],vc,1,⟨by rw [ea,eb,ec]; rfl,fun value mem => three_few fa fb fc value (mem_of_mem_take (i := 2) mem),fc,by decide,?_⟩⟩
    change encodeChunk [_,_] ++ [] = _
    rw [append_nil,encode2,UInt8.toNat_ofNat',UInt8.toNat_ofNat']
    have back : ((va * 64 + vb) * 64 + vc) * 64 / 65536 % 2 ^ 8 * 65536 + ((va * 64 + vb) * 64 + vc) * 64 / 256 % 2 ^ 8 * 256 =
        ((va * 64 + vb) * 64 + vc / 4 * 4) * 64 + 0 := by omega
    rw [back,symbols_of fa fb (by omega) (by decide)]
    rfl
  | @two a b va vb first second =>
    obtain ⟨fa,ea⟩ := valueOf_some first
    obtain ⟨fb,eb⟩ := valueOf_some second
    refine ⟨[va],vb,2,⟨by rw [ea,eb]; rfl,fun value mem => three_few fa fb fb value (mem_of_mem_take (i := 1) mem),fb,by decide,?_⟩⟩
    change encodeChunk [_] ++ [] = _
    rw [append_nil,encode1,UInt8.toNat_ofNat']
    have back : (va * 64 + vb) * 64 * 64 / 65536 % 2 ^ 8 * 65536 = ((va * 64 + vb / 16 * 16) * 64 + 0) * 64 + 0 := by omega
    rw [back,symbols_of fa (by omega) (by decide) (by decide)]
    rfl

private theorem chunks4_some {bytes : List UInt8} (some' : bytes ≠ []) : (chunks4 bytes).isEmpty = false := by
  match bytes with
  | [] => exact absurd rfl some'
  | [_] | [_,_] | [_,_,_] => rfl
  | _::_::_::_::_ => rfl

private theorem shape {bytes out : List UInt8} (whole : bytes.length % 4 = 0) (decoded : decodeChunks (chunks4 bytes) = some out) :
    (bytes = [] ∧ out = []) ∨ ∃ front last pads, Shape bytes out front last pads := by
  induction bytes using chunks4.induct generalizing out with
  | case1 a b c d rest ih =>
    obtain ⟨first,firstRead,decoded⟩ := bind_eq_some_iff.mp decoded
    obtain ⟨later,laterRead,decoded⟩ := bind_eq_some_iff.mp decoded
    cases decoded
    have chunk := decodeChunk_some firstRead
    have rest4 : rest.length % 4 = 0 := by
      simp only [length_cons] at whole
      omega
    rcases ih rest4 laterRead with ⟨rfl,rfl⟩ | ⟨front,last,pads,inner⟩
    · rw [append_nil]
      exact .inr (shape_chunk chunk)
    · have more : (chunks4 rest).isEmpty = false := by
        refine chunks4_some ?_
        rw [inner.written]
        exact append_ne_nil_of_right_ne_nil _ (cons_ne_nil _ _)
      rw [more] at chunk
      cases chunk with
      | @whole _ _ _ _ _ va vb vc vd first second third fourth =>
        obtain ⟨fa,ea⟩ := valueOf_some first
        obtain ⟨fb,eb⟩ := valueOf_some second
        obtain ⟨fc,ec⟩ := valueOf_some third
        obtain ⟨fd,ed⟩ := valueOf_some fourth
        refine .inr ⟨[va,vb,vc,vd] ++ front,last,pads,⟨?_,?_,inner.lastFew,inner.padding,?_⟩⟩
        · rw [ea,eb,ec,ed,inner.written]
          rfl
        · intro value mem
          rcases mem_append.mp mem with own | later
          · rcases mem_cons.mp own with rfl | own
            · exact fa
            · exact three_few fb fc fd value own
          · exact inner.few value later
        · rw [encode_whole fa fb fc fd,inner.back]
          rfl
  | case2 =>
    cases decoded
    exact .inl ⟨rfl,rfl⟩
  | case3 rest more some' =>
    match rest with
    | [] => exact absurd rfl some'
    | [_] | [_,_] | [_,_,_] => simp at whole
    | a::b::c::d::rest => exact absurd rfl (more a b c d rest)

private theorem decode_values {values : List Nat} {pads : Nat} (few : ∀ value ∈ values, value < 64) (short : pads ≤ 2)
    (whole : (values.length + pads) % 4 = 0) :
    (decodeChunks (chunks4 (values.map byteOf ++ List.replicate pads 61))).isSome = true := by
  match values with
  | a::b::c::d::rest =>
    obtain ⟨fa,few⟩ := forall_mem_cons.mp few
    obtain ⟨fb,few⟩ := forall_mem_cons.mp few
    obtain ⟨fc,few⟩ := forall_mem_cons.mp few
    obtain ⟨fd,few⟩ := forall_mem_cons.mp few
    have rest4 : (rest.length + pads) % 4 = 0 := by
      simp only [length_cons] at whole
      omega
    obtain ⟨later,laterRead⟩ := isSome_iff_exists.mp (decode_values few short rest4)
    simp only [map_cons,cons_append,chunks4]
    rw [decodeChunks,decode4 (value_of fa) (value_of fb) (value_of fc) (value_of fd),laterRead]
    rfl
  | [] =>
    have none : pads = 0 := by
      simp only [length_nil] at whole
      omega
    rw [none]
    rfl
  | [_] =>
    simp only [length_cons,length_nil] at whole
    omega
  | [a,b] =>
    obtain ⟨fa,few⟩ := forall_mem_cons.mp few
    obtain ⟨fb,_⟩ := forall_mem_cons.mp few
    have two : pads = 2 := by
      simp only [length_cons,length_nil] at whole
      omega
    subst two
    simp only [map_cons,map_nil,cons_append,nil_append,replicate_succ,replicate_zero,chunks4]
    rw [decodeChunks,isEmpty_nil,decode2 (value_of fa) (value_of fb)]
    rfl
  | [a,b,c] =>
    obtain ⟨fa,few⟩ := forall_mem_cons.mp few
    obtain ⟨fb,few⟩ := forall_mem_cons.mp few
    obtain ⟨fc,_⟩ := forall_mem_cons.mp few
    have one : pads = 1 := by
      simp only [length_cons,length_nil] at whole
      omega
    subst one
    simp only [map_cons,map_nil,cons_append,nil_append,replicate_succ,replicate_zero,chunks4]
    rw [decodeChunks,isEmpty_nil,decode3 (value_of fa) (value_of fb) (value_of fc)]
    rfl

def WellFormed (input : List Char) : Prop :=
  input.length % 4 = 0 ∧ ∃ body pads, input = body ++ List.replicate pads '=' ∧ pads ≤ 2 ∧ ∀ char ∈ body, char ∈ ALPHABET

private theorem symbol_index : ∀ char ∈ ALPHABET, ∃ value, value < 64 ∧ symbol value = char := by
  intro char mem
  obtain ⟨index,bound,rfl⟩ := mem_iff_getElem.mp mem
  refine ⟨index,?_,?_⟩
  · have length : ALPHABET.length = 64 := by decide
    omega
  · unfold symbol
    rw [getD_eq_getElem?_getD,getElem?_eq_getElem bound]
    rfl

private theorem body_values {body : List Char} (known : ∀ char ∈ body, char ∈ ALPHABET) :
    ∃ values : List Nat, (∀ value ∈ values, value < 64) ∧ body = values.map symbol := by
  induction body with
  | nil => exact ⟨[],(fun _ mem => absurd mem not_mem_nil),rfl⟩
  | cons char body ih =>
    obtain ⟨first,later⟩ := forall_mem_cons.mp known
    obtain ⟨values,few,rfl⟩ := ih later
    obtain ⟨value,small,rfl⟩ := symbol_index char first
    exact ⟨value::values,forall_mem_cons.mpr ⟨small,few⟩,rfl⟩

private theorem encode_text {values : List Nat} (few : ∀ value ∈ values, value < 64) (pads : Nat) :
    Utf8.encode (values.map symbol ++ List.replicate pads '=') = values.map byteOf ++ List.replicate pads 61 := by
  rw [encode_symbols few,encode_pads]

theorem decode_isSome (input : List Char) : (base64Decode input).isSome = true ↔ WellFormed input := by
  constructor
  · intro some'
    obtain ⟨out,decoded⟩ := isSome_iff_exists.mp some'
    unfold base64Decode at decoded
    dsimp only at decoded
    split at decoded
    · next whole =>
      rcases shape whole decoded with ⟨none,_⟩ | ⟨front,last,pads,shaped⟩
      · have empty := Utf8.encode_injective (none.trans Utf8.encode_nil.symm)
        rw [empty]
        exact ⟨rfl,[],0,rfl,by decide,fun _ mem => absurd mem not_mem_nil⟩
      · have few : ∀ value ∈ front ++ [last], value < 64 := by
          intro value mem
          rcases mem_append.mp mem with own | own
          · exact shaped.few value own
          · rw [mem_singleton.mp own]
            exact shaped.lastFew
        have text : input = (front ++ [last]).map symbol ++ List.replicate pads '=' := by
          refine Utf8.encode_injective (shaped.written.trans ?_)
          rw [encode_text few]
          simp
        refine ⟨?_,(front ++ [last]).map symbol,pads,text,shaped.padding,?_⟩
        · rw [shaped.written] at whole
          rw [text]
          simp only [length_append,length_map,length_cons,length_nil,length_replicate] at whole ⊢
          omega
        · intro char mem
          obtain ⟨value,own,rfl⟩ := mem_map.mp mem
          exact (symbol_byte value (few value own)).2.2.2
    · cases decoded
  · rintro ⟨whole,body,pads,rfl,short,known⟩
    obtain ⟨values,few,rfl⟩ := body_values known
    have length : (values.length + pads) % 4 = 0 := by
      rw [length_append,length_map,length_replicate] at whole
      exact whole
    unfold base64Decode
    dsimp only
    rw [encode_text few,if_pos (by rw [length_append,length_map,length_replicate]; exact length)]
    exact decode_values few short length

/-- Encoding what was decoded gives the text back, but for bits of the last symbol that are not used. -/
theorem encode_decode {input : List Char} {out : List UInt8} (decoded : base64Decode input = some out) :
    (input = [] ∧ base64Encode out = []) ∨ ∃ front last pads, last < 64 ∧ pads ≤ 2 ∧
      input = front ++ symbol last::List.replicate pads '=' ∧
      base64Encode out = front ++ symbol (last / spare pads * spare pads)::List.replicate pads '=' := by
  unfold base64Decode at decoded
  dsimp only at decoded
  split at decoded
  · next whole =>
    rcases shape whole decoded with ⟨none,rfl⟩ | ⟨front,last,pads,shaped⟩
    · exact .inl ⟨Utf8.encode_injective (none.trans Utf8.encode_nil.symm),rfl⟩
    · refine .inr ⟨front.map symbol,last,pads,shaped.lastFew,shaped.padding,?_,shaped.back⟩
      refine Utf8.encode_injective (shaped.written.trans ?_)
      have one := encode_symbols (forall_mem_cons.mpr ⟨shaped.lastFew,fun _ mem => absurd mem not_mem_nil⟩ : ∀ value ∈ [last], value < 64)
        (List.replicate pads '=')
      rw [map_singleton,singleton_append] at one
      rw [encode_symbols shaped.few,one,encode_pads]
      rfl
  · cases decoded

end Depsis.Console.Base64

import Mathlib.Data.List.Basic
import Mathlib.Tactic.Common

/-! UTF-8 read as decoders read it that never fail: what is no character becomes the
replacement character, and with it goes as much as could still have become one.
-/
namespace Depsis.Foundation.Utf8

open List Option

def encode (text : List Char) : List UInt8 := text.flatMap String.utf8EncodeChar

def REPLACEMENT : Char := '\uFFFD'

def firstChar (bytes : List UInt8) : Option Char := bytes.toByteArray.utf8DecodeChar? 0

def follows (byte : UInt8) : List (UInt8 × UInt8) :=
  if 0xC2 ≤ byte ∧ byte ≤ 0xDF then [(0x80,0xBF)]
  else if byte = 0xE0 then [(0xA0,0xBF),(0x80,0xBF)]
  else if byte = 0xED then [(0x80,0x9F),(0x80,0xBF)]
  else if 0xE1 ≤ byte ∧ byte ≤ 0xEF then [(0x80,0xBF),(0x80,0xBF)]
  else if byte = 0xF0 then [(0x90,0xBF),(0x80,0xBF),(0x80,0xBF)]
  else if byte = 0xF4 then [(0x80,0x8F),(0x80,0xBF),(0x80,0xBF)]
  else if 0xF1 ≤ byte ∧ byte ≤ 0xF3 then [(0x80,0xBF),(0x80,0xBF),(0x80,0xBF)]
  else []

def fitting : List (UInt8 × UInt8) → List UInt8 → Nat
  | (low,high)::ranges,byte::rest => if low ≤ byte ∧ byte ≤ high then fitting ranges rest + 1 else 0
  | _,_ => 0

/-- `Buffer.toString('utf8')`, with the bytes left that belong to the character before. -/
def decodeAfter : Nat → List UInt8 → List Char
  | _,[] => []
  | skipped + 1,_::rest => decodeAfter skipped rest
  | 0,byte::rest =>
    match firstChar (byte::rest) with
    | some char => char::decodeAfter (char.utf8Size - 1) rest
    | none => REPLACEMENT::decodeAfter (fitting (follows byte) rest) rest

def decode (bytes : List UInt8) : List Char := decodeAfter 0 bytes

@[simp] theorem encode_nil : encode [] = [] := rfl

theorem encode_cons (char : Char) (text : List Char) : encode (char::text) = String.utf8EncodeChar char ++ encode text := rfl

theorem encode_append (front back : List Char) : encode (front ++ back) = encode front ++ encode back :=
  flatMap_append

@[simp] theorem decode_nil : decode [] = [] := rfl

theorem decodeAfter_eq (skipped : Nat) (bytes : List UInt8) : decodeAfter skipped bytes = decode (bytes.drop skipped) := by
  induction skipped generalizing bytes with
  | zero => rfl
  | succ skipped ih =>
    cases bytes with
    | nil => rfl
    | cons byte rest => exact ih rest

variable {bytes : List UInt8} {segments : List (List UInt8)} {text : List Char}

theorem firstChar_some {char : Char} (found : firstChar bytes = some char) :
    ∃ rest, bytes = String.utf8EncodeChar char ++ rest := by
  obtain ⟨rest,same⟩ := ByteArray.exists_of_utf8DecodeChar?_eq_some found
  refine ⟨rest.data.toList,?_⟩
  have lists := congrArg (fun array : ByteArray => array.data.toList) same
  simpa using lists

theorem firstChar_encoded (char : Char) (rest : List UInt8) : firstChar (String.utf8EncodeChar char ++ rest) = some char := by
  rw [firstChar,toByteArray_append]
  exact ByteArray.utf8DecodeChar?_utf8EncodeChar_append

theorem decode_char (char : Char) (rest : List UInt8) :
    decode (String.utf8EncodeChar char ++ rest) = char::decode rest := by
  obtain ⟨byte,more,written⟩ : ∃ byte more, String.utf8EncodeChar char = byte::more :=
    exists_cons_of_ne_nil (fun empty => by
      have size := String.length_utf8EncodeChar char
      rw [empty] at size
      exact absurd size (by have := char.utf8Size_pos; simp; omega))
  have size := String.length_utf8EncodeChar char
  have first := firstChar_encoded char rest
  rw [written] at size first ⊢
  rw [cons_append] at first ⊢
  rw [decode,decodeAfter,first]
  simp only [List.cons.injEq,true_and]
  rw [decodeAfter_eq,← size,length_cons,Nat.add_sub_cancel,drop_left]

theorem decode_encode_append (text : List Char) (rest : List UInt8) : decode (encode text ++ rest) = text ++ decode rest := by
  induction text with
  | nil => rfl
  | cons char text ih => rw [encode_cons,append_assoc,decode_char,ih,cons_append]

theorem decode_encode (text : List Char) : decode (encode text) = text := by
  have whole := decode_encode_append text []
  rwa [append_nil,decode_nil,append_nil] at whole

/-! Where a byte may begin a character, a text may be cut. -/

def Begins (bytes : List UInt8) : Prop := ∀ byte ∈ bytes.head?, byte.IsUTF8FirstByte

instance (bytes : List UInt8) : Decidable (Begins bytes) :=
  inferInstanceAs (Decidable (∀ byte ∈ bytes.head?, byte.IsUTF8FirstByte))

private theorem all_bytes {holds : UInt8 → Prop} (each : ∀ value < 256, holds (UInt8.ofNat value)) (byte : UInt8) : holds byte := by
  have here := each byte.toNat byte.toNat_lt
  rwa [UInt8.ofNat_toNat] at here

private theorem inner_byte (byte : UInt8) : 0x80 ≤ byte → byte ≤ 0xBF → ¬byte.IsUTF8FirstByte := by
  apply @all_bytes (fun byte => 0x80 ≤ byte → byte ≤ 0xBF → ¬byte.IsUTF8FirstByte)
  decide +kernel

private theorem follows_inner (byte : UInt8) : ∀ range ∈ follows byte, 0x80 ≤ range.1 ∧ range.2 ≤ 0xBF := by
  intro range member
  unfold follows at member
  repeat' split at member
  all_goals simp only [mem_cons,not_mem_nil,or_false] at member
  all_goals rcases member with rfl | rfl | rfl
  all_goals decide +kernel

theorem encoded_head (char : Char) : ∃ byte rest, String.utf8EncodeChar char = byte::rest ∧ byte.IsUTF8FirstByte ∧
    rest.length = char.utf8Size - 1 ∧ ∀ inner ∈ rest, ¬inner.IsUTF8FirstByte := by
  have size := String.length_utf8EncodeChar char
  cases written : String.utf8EncodeChar char with
  | nil =>
    rw [written] at size
    exact absurd size (by have := char.utf8Size_pos; simp; omega)
  | cons byte rest =>
    have marks (i : Nat) (inside : i < (byte::rest).length) : ((byte::rest).get ⟨i,inside⟩).IsUTF8FirstByte ↔ i = 0 := by
      have known := @UInt8.isUTF8FirstByte_getElem_utf8EncodeChar char i (by rw [written]; exact inside)
      simpa [written] using known
    rw [written,length_cons] at size
    refine ⟨byte,rest,rfl,(marks 0 (Nat.zero_lt_succ _)).mpr rfl,by omega,fun inner member first => ?_⟩
    obtain ⟨i,inside,rfl⟩ := getElem_of_mem member
    have zero := (marks (i + 1) (Nat.succ_lt_succ inside)).mp first
    cases zero

private theorem fitting_inner {ranges : List (UInt8 × UInt8)} (inner : ∀ range ∈ ranges, 0x80 ≤ range.1 ∧ range.2 ≤ 0xBF)
    (bytes : List UInt8) : ∀ byte ∈ bytes.take (fitting ranges bytes), ¬byte.IsUTF8FirstByte := by
  induction ranges generalizing bytes with
  | nil =>
    intro byte member
    rw [fitting,take_zero] at member
    cases member
    nofun
  | cons range ranges ih =>
    obtain ⟨low,high⟩ := range
    cases bytes with
    | nil => nofun
    | cons byte rest =>
      intro other member
      rw [fitting] at member
      split_ifs at member with fits
      · rw [take_succ_cons] at member
        rcases mem_cons.mp member with rfl | later
        · obtain ⟨least,most⟩ := inner (low,high) mem_cons_self
          exact inner_byte _ (UInt8.le_trans least fits.1) (UInt8.le_trans fits.2 most)
        · exact ih (fun range listed => inner range (mem_cons_of_mem _ listed)) rest other later
      · rw [take_zero] at member
        cases member

private theorem fitting_le (ranges : List (UInt8 × UInt8)) (bytes : List UInt8) :
    fitting ranges bytes ≤ ranges.length ∧ fitting ranges bytes ≤ bytes.length := by
  induction ranges generalizing bytes with
  | nil => exact ⟨Nat.zero_le _,Nat.zero_le _⟩
  | cons range ranges ih =>
    cases bytes with
    | nil => exact ⟨Nat.zero_le _,Nat.zero_le _⟩
    | cons byte bytes =>
      have later := ih bytes
      rw [fitting]
      split
      · exact ⟨Nat.succ_le_succ later.1,Nat.succ_le_succ later.2⟩
      · exact ⟨Nat.zero_le _,Nat.zero_le _⟩

private theorem fitting_front {ranges : List (UInt8 × UInt8)} {front back : List UInt8}
    (inside : fitting ranges (front ++ back) ≤ front.length) : fitting ranges front = fitting ranges (front ++ back) := by
  induction ranges generalizing front with
  | nil => rw [fitting,fitting] <;> nofun
  | cons range ranges ih =>
    obtain ⟨low,high⟩ := range
    cases front with
    | nil => exact (Nat.le_zero.mp inside).symm
    | cons byte front =>
      rw [cons_append,fitting] at inside ⊢
      rw [fitting]
      split
      · next fits =>
        rw [if_pos fits,length_cons] at inside
        rw [ih (Nat.le_of_succ_le_succ inside)]
      · rfl

def extent (byte : UInt8) (rest : List UInt8) : Nat :=
  match firstChar (byte::rest) with
  | some char => char.utf8Size - 1
  | none => fitting (follows byte) rest

private theorem decode_cons (byte : UInt8) (rest : List UInt8) :
    decode (byte::rest) = (firstChar (byte::rest)).getD REPLACEMENT::decode (rest.drop (extent byte rest)) := by
  rw [decode,decodeAfter,extent]
  cases firstChar (byte::rest) with
  | none | some char => exact congrArg _ (decodeAfter_eq _ _)

private theorem decode_none {byte : UInt8} {rest : List UInt8} (none : firstChar (byte::rest) = none) :
    decode (byte::rest) = REPLACEMENT::decode (rest.drop (fitting (follows byte) rest)) := by
  rw [decode_cons,extent,none]
  rfl

private theorem extent_spec (byte : UInt8) (rest : List UInt8) : extent byte rest ≤ rest.length ∧
    ∀ inner ∈ rest.take (extent byte rest), ¬inner.IsUTF8FirstByte := by
  unfold extent
  cases found : firstChar (byte::rest) with
  | none => exact ⟨(fitting_le _ rest).2,fitting_inner (follows_inner byte) rest⟩
  | some char =>
    obtain ⟨after,written⟩ := firstChar_some found
    obtain ⟨head,tail,encoded,-,size,inner⟩ := encoded_head char
    rw [encoded,cons_append] at written
    obtain ⟨rfl,rfl⟩ := List.cons.inj written
    dsimp only
    rw [← size,take_left,length_append]
    exact ⟨Nat.le_add_right _ _,inner⟩

private theorem extent_front {byte : UInt8} {rest back : List UInt8} (inside : extent byte (rest ++ back) ≤ rest.length) :
    firstChar (byte::rest) = firstChar (byte::(rest ++ back)) ∧ extent byte rest = extent byte (rest ++ back) := by
  have same : firstChar (byte::rest) = firstChar (byte::(rest ++ back)) := by
    cases found : firstChar (byte::(rest ++ back)) with
    | some char =>
      obtain ⟨after,written⟩ := firstChar_some found
      rw [extent,found] at inside
      have size : (String.utf8EncodeChar char).length ≤ (byte::rest).length := by
        rw [String.length_utf8EncodeChar,length_cons]
        exact Nat.le_add_of_sub_le inside
      obtain ⟨more,front⟩ := prefix_of_prefix_length_le ⟨after,written.symm⟩ (prefix_append (byte::rest) back) size
      rw [← front,firstChar_encoded]
    | none =>
      apply eq_none_iff_forall_ne_some.mpr
      intro char read
      obtain ⟨after,written⟩ := firstChar_some read
      rw [← cons_append,written,append_assoc,firstChar_encoded] at found
      cases found
  refine ⟨same,?_⟩
  unfold extent at inside ⊢
  rw [same]
  split at inside
  · rfl
  · exact fitting_front inside

inductive Parted (back : List UInt8) : List UInt8 → Prop where
  | nil : Parted back []
  | cons (byte : UInt8) (rest : List UInt8) (inside : extent byte (rest ++ back) ≤ rest.length)
    (later : Parted back (rest.drop (extent byte (rest ++ back)))) : Parted back (byte::rest)

variable {front back : List UInt8}

theorem Parted.decode (parted : Parted back front) : decode (front ++ back) = decode front ++ decode back := by
  induction parted with
  | nil => rfl
  | cons byte rest inside later ih =>
    obtain ⟨char,same⟩ := extent_front inside
    rw [cons_append,decode_cons,decode_cons byte rest,char,same,drop_append_of_le_length inside,ih]
    rfl

private theorem decode_inner (count : Nat) (short : count ≤ bytes.length)
    (inner : ∀ byte ∈ bytes.take count, ¬byte.IsUTF8FirstByte) :
    (decode (bytes.drop count)).length + count ≤ (decode bytes).length := by
  induction count generalizing bytes with
  | zero => exact Nat.le_refl _
  | succ count ih =>
    cases bytes with
    | nil => cases short
    | cons byte rest =>
      obtain ⟨here,later⟩ := forall_mem_cons.mp inner
      have alone : firstChar (byte::rest) = none := by
        apply eq_none_iff_forall_ne_some.mpr
        intro char read
        obtain ⟨after,written⟩ := firstChar_some read
        obtain ⟨head,tail,encoded,first,-⟩ := encoded_head char
        rw [encoded,cons_append] at written
        exact here ((List.cons.inj written).1 ▸ first)
      have nothing : follows byte = [] := @all_bytes (fun byte => ¬byte.IsUTF8FirstByte → follows byte = []) (by decide +kernel) byte here
      have less := ih (Nat.le_of_succ_le_succ short) later
      rw [decode_none alone,nothing,length_cons]
      exact Nat.succ_le_succ less

theorem decode_across (front back : List UInt8) (across : ¬Parted back front) :
    (decode (front ++ back)).length < (decode front).length + (decode back).length := by
  induction size : front.length using Nat.strongRecOn generalizing front with
  | _ length ih =>
    subst size
    cases front with
    | nil => exact absurd .nil across
    | cons byte rest =>
      rw [cons_append,decode_cons,decode_cons byte rest,length_cons,length_cons]
      by_cases inside : extent byte (rest ++ back) ≤ rest.length
      · have less := ih _ (by simp only [length_drop,length_cons]; omega) (rest.drop (extent byte (rest ++ back)))
          (fun later => across (.cons byte rest inside later)) rfl
        rw [drop_append_of_le_length inside,(extent_front inside).2]
        omega
      · obtain ⟨short,inner⟩ := extent_spec byte (rest ++ back)
        have beyond : rest.length ≤ extent byte (rest ++ back) := Nat.le_of_not_le inside
        rw [length_append] at short
        rw [take_append,take_of_length_le beyond] at inner
        have less := decode_inner (extent byte (rest ++ back) - rest.length) (by omega)
          (fun byte member => inner byte (mem_append_right _ member))
        rw [drop_append,drop_of_length_le beyond,nil_append]
        omega

theorem decode_append_le (front back : List UInt8) :
    (decode (front ++ back)).length ≤ (decode front).length + (decode back).length := by
  by_cases parted : Parted back front
  · exact Nat.le_of_eq (by rw [parted.decode,length_append])
  · exact Nat.le_of_lt (decode_across front back parted)

theorem parted_of_begins (front : List UInt8) (begins : Begins back) : Parted back front := by
  induction size : front.length using Nat.strongRecOn generalizing front with
  | _ length ih =>
    subst size
    cases front with
    | nil => exact .nil
    | cons byte rest =>
      have inside : extent byte (rest ++ back) ≤ rest.length := by
        by_contra beyond
        obtain ⟨short,inner⟩ := extent_spec byte (rest ++ back)
        cases back with
        | nil => rw [append_nil] at short beyond; exact beyond short
        | cons first more =>
          apply inner first _ (begins first rfl)
          rw [take_append,mem_append]
          right
          rw [take_cons (by omega)]
          exact mem_cons_self
      exact .cons byte rest inside (ih _ (by simp only [length_drop,length_cons]; omega) _ rfl)

theorem decode_append (front : List UInt8) {back : List UInt8} (begins : Begins back) :
    decode (front ++ back) = decode front ++ decode back := (parted_of_begins front begins).decode

theorem begins_encode (text : List Char) : Begins (encode text) := by
  cases text with
  | nil => nofun
  | cons char text =>
    obtain ⟨head,tail,encoded,first,-⟩ := encoded_head char
    intro byte same
    rw [encode_cons,encoded] at same
    cases same
    exact first

theorem encode_split {front back : List UInt8} (whole : encode text = front ++ back) (begins : Begins back) :
    ∃ former latter, text = former ++ latter ∧ front = encode former ∧ back = encode latter := by
  induction text generalizing front with
  | nil =>
    obtain ⟨rfl,rfl⟩ := append_eq_nil_iff.mp whole.symm
    exact ⟨[],[],rfl,rfl,rfl⟩
  | cons char text ih =>
    obtain ⟨head,tail,encoded,-,-,inner⟩ := encoded_head char
    cases front with
    | nil => exact ⟨[],char::text,rfl,rfl,whole.symm⟩
    | cons byte rest =>
      rw [encode_cons,encoded] at whole
      obtain ⟨rfl,split⟩ := List.cons.inj whole
      rcases append_eq_append_iff.mp split with ⟨more,rested,backed⟩ | ⟨more,tailed,backed⟩
      · obtain ⟨former,latter,rfl,rfl,same⟩ := ih backed
        exact ⟨char::former,latter,rfl,by rw [encode_cons,encoded,rested]; rfl,same⟩
      · cases more with
        | nil =>
          rw [append_nil] at tailed
          exact ⟨[char],text,rfl,by rw [encode_cons,encoded,tailed,encode_nil,append_nil],backed⟩
        | cons next more =>
          have cut : next.IsUTF8FirstByte := begins next (by rw [backed]; rfl)
          exact absurd cut (inner next (by rw [tailed]; simp))

theorem encode_injective {other : List Char} (same : encode text = encode other) : text = other := by
  rw [← decode_encode text,same,decode_encode]

/-! A line feed is read where it stands and nowhere else. -/

private theorem encoded_newline : String.utf8EncodeChar '\n' = [10] := by decide

theorem newline_of_decode (read : '\n' ∈ decode bytes) : 10 ∈ bytes := by
  induction size : bytes.length using Nat.strongRecOn generalizing bytes with
  | _ length ih =>
    subst size
    cases bytes with
    | nil => cases read
    | cons byte rest =>
      cases found : firstChar (byte::rest) with
      | some char =>
        obtain ⟨after,written⟩ := firstChar_some found
        have size := congrArg List.length written
        rw [length_append,String.length_utf8EncodeChar] at size
        rw [written,decode_char] at read
        rw [written]
        rcases mem_cons.mp read with rfl | later
        · rw [encoded_newline]
          simp
        · exact mem_append_right _ (ih _ (by have := char.utf8Size_pos; omega) later rfl)
      | none =>
        rw [decode_none found] at read
        rcases mem_cons.mp read with same | later
        · exact absurd same (by decide)
        · have held := ih _ (by simp only [length_drop,length_cons]; omega) later rfl
          exact mem_cons_of_mem _ (mem_of_mem_drop held)

theorem decode_newline (bytes : List UInt8) : decode (bytes ++ [10]) = decode bytes ++ ['\n'] := by
  change decode (bytes ++ encode ['\n']) = _
  rw [decode_append bytes (begins_encode ['\n'])]
  exact congrArg (decode bytes ++ ·) (decode_encode ['\n'])

theorem newline_of_encode (written : 10 ∈ encode text) : '\n' ∈ text := by
  obtain ⟨char,member,held⟩ := mem_flatMap.mp written
  obtain ⟨head,tail,encoded,-,-,inner⟩ := encoded_head char
  rw [encoded] at held
  rcases mem_cons.mp held with rfl | later
  · have feed := firstChar_encoded '\n' tail
    have read := firstChar_encoded char []
    rw [encoded_newline,singleton_append] at feed
    rw [append_nil,encoded,feed] at read
    rwa [Option.some.inj read]
  · exact absurd (by decide) (inner 10 later)

def Whole : List (List UInt8) → Prop
  | [] => True
  | segment::rest => Parted rest.flatten segment ∧ Whole rest

private theorem length_flatten_le (segments : List (List UInt8)) :
    (decode segments.flatten).length ≤ (segments.flatMap decode).length := by
  induction segments with
  | nil => exact Nat.le_refl _
  | cons segment rest ih =>
    have least := decode_append_le segment rest.flatten
    rw [flatten_cons,flatMap_cons,length_append]
    omega

/-- Bytes are read piece by piece as they are read together just when no piece cuts a character. -/
theorem flatMap_decode (segments : List (List UInt8)) :
    segments.flatMap decode = decode segments.flatten ↔ Whole segments := by
  induction segments with
  | nil => exact ⟨fun _ => trivial,fun _ => rfl⟩
  | cons segment rest ih =>
    rw [flatten_cons,flatMap_cons]
    constructor
    · intro same
      have parted : Parted rest.flatten segment := by
        by_contra across
        have less := decode_across segment rest.flatten across
        have least := length_flatten_le rest
        rw [← same,length_append] at less
        omega
      rw [parted.decode] at same
      exact ⟨parted,ih.mp (append_cancel_left same)⟩
    · rintro ⟨parted,later⟩
      rw [parted.decode,ih.mpr later]

private theorem Parted.encoded (parted : Parted back front) (cut : front ++ back = encode text) :
    ∃ former latter, front = encode former ∧ back = encode latter := by
  induction parted generalizing text with
  | nil => exact ⟨[],text,rfl,cut⟩
  | cons byte rest inside later ih =>
    cases text with
    | nil => cases cut
    | cons char text =>
      obtain ⟨same,size⟩ := extent_front inside
      rw [encode_cons] at cut
      have found : firstChar (byte::rest) = some char := by
        rw [same,← cons_append,cut,firstChar_encoded]
      obtain ⟨after,written⟩ := firstChar_some found
      have behind : rest.drop (extent byte (rest ++ back)) = after := by
        obtain ⟨head,tail,encoded,-,long,-⟩ := encoded_head char
        rw [encoded,cons_append] at written
        obtain ⟨-,rfl⟩ := List.cons.inj written
        rw [← size,extent,found]
        dsimp only
        rw [← long,drop_left]
      rw [behind] at ih
      rw [written,append_assoc] at cut
      obtain ⟨former,latter,rfl,last⟩ := ih (append_cancel_left cut)
      exact ⟨char::former,latter,by rw [encode_cons,written],last⟩

private theorem Whole.encoded (whole : Whole segments) (cut : segments.flatten = encode text) :
    ∀ segment ∈ segments, ∃ part, encode part = segment := by
  induction segments generalizing text with
  | nil => nofun
  | cons segment rest ih =>
    obtain ⟨former,latter,first,back⟩ := whole.1.encoded cut
    exact forall_mem_cons.mpr ⟨⟨former,first.symm⟩,ih whole.2 back⟩

theorem flatMap_decode_iff (cut : segments.flatten = encode text) :
    segments.flatMap decode = text ↔ ∀ segment ∈ segments, ∃ part, encode part = segment := by
  constructor
  · intro read
    have same : segments.flatMap decode = decode segments.flatten := by rw [read,cut,decode_encode]
    exact ((flatMap_decode segments).mp same).encoded cut
  · intro parts
    have whole : segments.flatten = encode (segments.flatMap decode) := by
      clear cut
      induction segments with
      | nil => rfl
      | cons segment rest ih =>
        obtain ⟨⟨part,rfl⟩,later⟩ := forall_mem_cons.mp parts
        rw [flatten_cons,flatMap_cons,encode_append,decode_encode,ih later]
    exact encode_injective (whole.symm.trans cut)

private theorem follows_three {byte : UInt8} (three : 3 ≤ (follows byte).length) :
    ∃ low high, follows byte = [(low,high),(0x80,0xBF),(0x80,0xBF)] ∧ 0xF0 ≤ byte.toNat ∧ byte.toNat ≤ 0xF4 ∧
      0x80 ≤ low.toNat ∧ high.toNat ≤ 0xBF ∧ (byte.toNat = 0xF0 → low.toNat = 0x90) ∧ (byte.toNat = 0xF4 → high.toNat = 0x8F) := by
  unfold follows at three ⊢
  split
  · simp_all
  split
  · simp_all
  split
  · simp_all
  split
  · simp_all
  split
  · next same => 
    subst same
    exact ⟨_,_,rfl,by decide⟩
  split
  · next same => 
    subst same
    exact ⟨_,_,rfl,by decide⟩
  split
  · next between =>
    refine ⟨_,_,rfl,?_⟩
    simp only [UInt8.le_iff_toNat_le,UInt8.reduceToNat] at between
    refine ⟨by omega,by omega,by decide,by decide,by omega,by omega⟩
  · simp_all

private theorem firstChar_four {first : UInt8} {rest : List UInt8} (fit : 3 ≤ fitting (follows first) rest) :
    (firstChar (first::rest)).isSome = true := by
  obtain ⟨fewer,long⟩ := fitting_le (follows first) rest
  obtain ⟨low,high,ranges,least,most,bottom,top,small,large⟩ := follows_three (Nat.le_trans fit fewer)
  match rest,fit,long with
  | second::third::fourth::rest,fit,_ =>
    rw [ranges] at fit
    have in2 : low ≤ second ∧ second ≤ high := by
      by_contra out
      rw [fitting,if_neg out] at fit
      omega
    rw [fitting,if_pos in2] at fit
    have in3 : 0x80 ≤ third ∧ third ≤ 0xBF := by
      by_contra out
      rw [fitting,if_neg out] at fit
      omega
    rw [fitting,if_pos in3] at fit
    have in4 : 0x80 ≤ fourth ∧ fourth ≤ 0xBF := by
      by_contra out
      rw [fitting,if_neg out] at fit
      omega
    simp only [UInt8.le_iff_toNat_le,UInt8.reduceToNat] at in2 in3 in4
    let point := (first.toNat - 0xF0) * 262144 + (second.toNat - 0x80) * 4096 + (third.toNat - 0x80) * 64 + (fourth.toNat - 0x80)
    have value : point = (first.toNat - 0xF0) * 262144 + (second.toNat - 0x80) * 4096 + (third.toNat - 0x80) * 64 + (fourth.toNat - 0x80) := rfl
    clear_value point
    have valid : point.isValidChar := .inr (by omega)
    have is : (Char.ofNat point).val.toNat = point := by
      unfold Char.ofNat
      rw [dif_pos valid]
      rfl
    have byte (number : Nat) (byte : UInt8) (same : number = byte.toNat) : UInt8.ofNat number = byte := by
      rw [same,UInt8.ofNat_toNat]
    have encoded : String.utf8EncodeChar (Char.ofNat point) = [first,second,third,fourth] := by
      unfold String.utf8EncodeChar
      rw [is]
      dsimp only
      rw [if_neg (by omega),if_neg (by omega),if_neg (by omega),byte _ first (by omega),byte _ second (by omega),
        byte _ third (by omega),byte _ fourth (by omega)]
    have read := firstChar_encoded (Char.ofNat point) rest
    rw [encoded] at read
    exact isSome_iff_exists.mpr ⟨_,read⟩
  | [],fit,long => exact absurd (Nat.le_trans fit long : 3 ≤ 0) (by decide)
  | [_],fit,long => exact absurd (Nat.le_trans fit long : 3 ≤ 1) (by decide)
  | [_,_],fit,long => exact absurd (Nat.le_trans fit long : 3 ≤ 2) (by decide)

theorem length_le_encode_decode (bytes : List UInt8) : bytes.length ≤ (encode (decode bytes)).length := by
  induction size : bytes.length using Nat.strongRecOn generalizing bytes with
  | _ length ih =>
    subst size
    cases bytes with
    | nil => exact Nat.le_refl _
    | cons byte rest =>
      cases found : firstChar (byte::rest) with
      | some char =>
        obtain ⟨after,written⟩ := firstChar_some found
        have size := congrArg List.length written
        rw [length_append,String.length_utf8EncodeChar] at size
        have later := ih after.length (by have := char.utf8Size_pos; omega) after rfl
        rw [written,decode_char,encode_cons,length_append,length_append]
        omega
      | none =>
        have few : fitting (follows byte) rest ≤ 2 := by
          by_contra many
          have some' := firstChar_four (Nat.not_le.mp many)
          rw [found] at some'
          cases some'
        have short := (fitting_le (follows byte) rest).2
        have later := ih _ (by simp only [length_drop,length_cons]; omega) (rest.drop (fitting (follows byte) rest)) rfl
        have three : (String.utf8EncodeChar REPLACEMENT).length = 3 := by decide
        rw [decode_none found,encode_cons,length_append,three]
        rw [length_drop] at later
        rw [length_cons]
        omega
theorem decode_line (front rest : List UInt8) : decode (front ++ 10::rest) = decode front ++ '\n'::decode rest := by
  have begins : Begins (10::rest) := by
    intro byte same
    cases same
    decide
  have one := decode_char '\n' rest
  rw [encoded_newline,singleton_append] at one
  rw [decode_append front begins,one]

def strict (bytes : List UInt8) : Option (List Char) := if encode (decode bytes) = bytes then some (decode bytes) else none

theorem strict_eq_some : strict bytes = some text ↔ bytes = encode text := by
  constructor
  · intro read
    unfold strict at read
    split at read
    · next whole =>
      cases read
      exact whole.symm
    · cases read
  · intro written
    rw [written,strict,decode_encode,if_pos rfl]

@[simp] theorem strict_encode (text : List Char) : strict (encode text) = some text := strict_eq_some.mpr rfl

theorem strict_front (text : List Char) (bytes : List UInt8) :
    strict (encode text ++ bytes) = (strict bytes).map (fun rest => text ++ rest) := by
  unfold strict
  rw [decode_encode_append,encode_append]
  by_cases valid : encode (decode bytes) = bytes
  · rw [if_pos valid,if_pos (congrArg _ valid),map_some]
  · rw [if_neg valid,if_neg (fun whole => valid (append_cancel_left whole)),map_none]

theorem strict_back (bytes : List UInt8) (text : List Char) :
    strict (bytes ++ encode text) = (strict bytes).map (fun front => front ++ text) := by
  unfold strict
  rw [decode_append bytes (begins_encode text),decode_encode,encode_append]
  by_cases valid : encode (decode bytes) = bytes
  · rw [if_pos valid,if_pos (congrArg (· ++ encode text) valid),map_some]
  · rw [if_neg valid,if_neg (fun whole => valid (append_cancel_right whole)),map_none]

end Depsis.Foundation.Utf8

import Depsis.Foundation.JsNumber
import Depsis.Foundation.JsString

/-! Base32 with the 32-bit shifts of JavaScript, against the groups of five bits of the definition.
-/
namespace Depsis.Auth.Base32

open Depsis.Foundation List

def ALPHABET : List Char := "ABCDEFGHIJKLMNOPQRSTUVWXYZ234567".toList

def symbol (index : Nat) : Char := ALPHABET.getD index 'A'

/-- The inner loop of `base32Encode`, from so many bits on; what it puts out and the bits it leaves. -/
def emit (value : Int) : Nat → List Char × Nat
  | bits + 5 => (symbol (JsNumber.and (JsNumber.unsigned value bits) 31).toNat::(emit value bits).1,(emit value bits).2)
  | bits => ([],bits)

def encodeFrom (bits : Nat) (value : Int) (output : List Char) : List UInt8 → List Char
  | [] => if 0 < bits then output ++ [symbol (JsNumber.and (JsNumber.shiftLeft value (5 - bits)) 31).toNat] else output
  | byte::input =>
    let value := JsNumber.or (JsNumber.shiftLeft value 8) byte.toNat
    encodeFrom (emit value (bits + 8)).2 value (output ++ (emit value (bits + 8)).1) input

def base32Encode (input : List UInt8) : List Char :=
  let output := encodeFrom 0 0 [] input
  output ++ List.replicate ((8 - output.length % 8) % 8) '='

/-- `toUpperCase`, which leaves what is in upper case as it is. -/
structure Letters where
  toUpperCase : List Char → List Char
  upper : ∀ text, (∀ char ∈ text, char ∈ '='::ALPHABET) → toUpperCase text = text

def decodeFrom (bits : Nat) (value : Int) : List Char → Option (List UInt8)
  | [] => some []
  | char::clean =>
    if char ∈ ALPHABET then
      let value := JsNumber.or (JsNumber.shiftLeft value 5) (ALPHABET.idxOf char)
      if 8 ≤ bits + 5 then
        (decodeFrom (bits - 3) value clean).map
          (UInt8.ofNat (JsNumber.and (JsNumber.unsigned value (bits - 3)) 0xff).toNat :: ·)
      else decodeFrom (bits + 5) value clean
    else none

/-- `none` where an error is thrown. -/
def base32Decode (letters : Letters) (input : List Char) : Option (List UInt8) :=
  decodeFrom 0 0 ((((letters.toUpperCase input).reverse.dropWhile (· = '=')).reverse).filter (fun char => !JsString.isSpace char))

/-- So many digits of a number, the most significant first. -/
def digitsOf (base : Nat) : Nat → Nat → List Nat
  | 0,_ => []
  | width + 1,number => digitsOf base width (number / base) ++ [number % base]

/-- A number with these digits behind it. -/
def onward (base number : Nat) (digits : List Nat) : Nat := digits.foldl (fun number digit => number * base + digit) number

def numbers (bytes : List UInt8) : List Nat := bytes.map UInt8.toNat

/-- The bits of the bytes in groups of five, the last one filled up with zeros, and padded to whole groups of eight. -/
def rfc4648 (bytes : List UInt8) : List Char :=
  let width := (8 * bytes.length + 4) / 5
  (digitsOf 32 width (onward 256 0 (numbers bytes) * 2^(5 * width - 8 * bytes.length))).map symbol ++
    List.replicate ((8 - width % 8) % 8) '='

variable {value : Int} {number count width bits : Nat}

/-- The variable holds the number, cut to 32 bits. -/
def Wraps (value : Int) (number : Nat) : Prop := JsNumber.bits value = BitVec.ofNat 32 number

theorem Wraps.shift (held : Wraps value number) (few : count < 32) :
    Wraps (JsNumber.shiftLeft value count) (number * 2^count) := by
  have held : JsNumber.bits value = BitVec.ofNat 32 number := held
  rw [Wraps,JsNumber.bits_shiftLeft,held,Nat.mod_eq_of_lt few]
  apply BitVec.eq_of_toNat_eq
  rw [BitVec.toNat_shiftLeft,BitVec.toNat_ofNat,BitVec.toNat_ofNat,Nat.shiftLeft_eq,Nat.mod_mul_mod]

theorem Wraps.of (number : Nat) : Wraps number number := BitVec.ofInt_natCast 32 number

theorem Wraps.or {other : Int} {least : Nat} (held : Wraps value (number * 2^count)) (second : Wraps other least)
    (small : least < 2^count) : Wraps (JsNumber.or value other) (number * 2^count + least) := by
  have held : JsNumber.bits value = BitVec.ofNat 32 (number * 2^count) := held
  have second : JsNumber.bits other = BitVec.ofNat 32 least := second
  rw [Wraps,JsNumber.bits_or,held,second]
  apply BitVec.eq_of_toNat_eq
  rw [BitVec.toNat_or,BitVec.toNat_ofNat,BitVec.toNat_ofNat,BitVec.toNat_ofNat,← Nat.shiftLeft_eq,
    Nat.shiftLeft_add_eq_or_of_lt small,Nat.or_mod_two_pow]

theorem Wraps.push {least : Nat} (held : Wraps value number) (few : count < 32) (small : least < 2^count) :
    Wraps (JsNumber.or (JsNumber.shiftLeft value count) least) (number * 2^count + least) :=
  (held.shift few).or (Wraps.of least) small

theorem Wraps.low (held : Wraps value number) (few : width ≤ 8) :
    JsNumber.and value ((2^width - 1 : Nat) : Int) = ((number % 2^width : Nat) : Int) := by
  have held : JsNumber.bits value = BitVec.ofNat 32 number := held
  have less : 2^width ≤ 2^8 := Nat.pow_le_pow_right (by decide) few
  have divides : 2^width ∣ 2^32 := Nat.pow_dvd_pow 2 (by omega)
  have read : (BitVec.ofNat 32 number &&& BitVec.ofNat 32 (2^width - 1)).toNat = number % 2^width := by
    rw [BitVec.toNat_and,BitVec.toNat_ofNat,BitVec.toNat_ofNat,Nat.mod_eq_of_lt (show 2^width - 1 < 2^32 by omega),
      Nat.and_two_pow_sub_one_eq_mod,Nat.mod_mod_of_dvd _ divides]
  have bound := Nat.mod_lt number (Nat.two_pow_pos width)
  rw [JsNumber.and,held,JsNumber.bits,BitVec.ofInt_natCast,BitVec.toInt_eq_toNat_of_lt (by rw [read]; omega),read]

theorem Wraps.read (held : Wraps value number) (few : width ≤ 8) (inside : count + width ≤ 32) (least : count < 32) :
    JsNumber.and (JsNumber.unsigned value count) ((2^width - 1 : Nat) : Int) = ((number / 2^count % 2^width : Nat) : Int) := by
  have shifted : Wraps (JsNumber.unsigned value count) (number % 2^32 / 2^count) := by
    have held : JsNumber.bits value = BitVec.ofNat 32 number := held
    rw [Wraps,JsNumber.bits_unsigned,held,Nat.mod_eq_of_lt least]
    apply BitVec.eq_of_toNat_eq
    rw [BitVec.toNat_ushiftRight,BitVec.toNat_ofNat,BitVec.toNat_ofNat,Nat.shiftRight_eq_div_pow]
    exact (Nat.mod_eq_of_lt ((Nat.div_le_self _ _).trans_lt (Nat.mod_lt _ (by decide)))).symm
  have cut : 2^32 = 2^count * 2^(32 - count) := by rw [← Nat.pow_add]; congr 1; omega
  rw [shifted.low few,cut,Nat.mod_mul_right_div_self,Nat.mod_mod_of_dvd _ (Nat.pow_dvd_pow 2 (by omega))]

theorem digitsOf_add (base first second number : Nat) :
    digitsOf base (first + second) number = digitsOf base first (number / base^second) ++ digitsOf base second number := by
  induction second generalizing number with
  | zero => simp [digitsOf]
  | succ second ih => rw [← Nat.add_assoc,digitsOf,digitsOf,ih,Nat.div_div_eq_div_mul,Nat.pow_succ,Nat.mul_comm base,append_assoc]

theorem digitsOf_cons (base width number : Nat) :
    digitsOf base (width + 1) number = number / base^width % base::digitsOf base width number := by
  rw [Nat.add_comm,digitsOf_add]
  rfl

theorem digitsOf_lt {base digit : Nat} (positive : 0 < base) (member : digit ∈ digitsOf base width number) : digit < base := by
  induction width generalizing number with
  | zero => cases member
  | succ width ih =>
    rcases mem_append.mp member with before | last
    · exact ih before
    · cases mem_singleton.mp last
      exact Nat.mod_lt _ positive

theorem onward_div {base : Nat} (digits : List Nat) (small : ∀ digit ∈ digits, digit < base) (number : Nat) :
    onward base number digits / base^digits.length = number := by
  induction digits generalizing number with
  | nil => simp [onward]
  | cons digit digits ih =>
    obtain ⟨less,rest⟩ := forall_mem_cons.mp small
    have inner := ih rest (number * base + digit)
    rw [length_cons,Nat.pow_succ,← Nat.div_div_eq_div_mul]
    change onward base (number * base + digit) digits / base^digits.length / base = number
    rw [inner,Nat.mul_comm,Nat.mul_add_div (Nat.zero_lt_of_lt less),Nat.div_eq_of_lt less,Nat.add_zero]

theorem emit_eq (held : Wraps value number) (few : bits ≤ 12) :
    emit value bits = ((digitsOf 32 (bits / 5) (number / 2^(bits % 5))).map symbol,bits % 5) := by
  fun_induction emit value bits with
  | case1 bits ih =>
    have rest := ih (by omega)
    have again : (bits + 5) / 5 = bits / 5 + 1 := by omega
    have same : (bits + 5) % 5 = bits % 5 := by omega
    have split : 2^bits = 2^(bits % 5) * 32^(bits / 5) := by
      rw [show (32 : Nat) = 2^5 from rfl,← Nat.pow_mul,← Nat.pow_add]
      congr 1
      omega
    rw [rest,again,same,digitsOf_cons,Nat.div_div_eq_div_mul,← split,map_cons]
    have read : JsNumber.and (JsNumber.unsigned value bits) 31 = ((number / 2^bits % 32 : Nat) : Int) :=
      @Wraps.read value number bits 5 held (by decide) (by omega) (by omega)
    rw [read,Int.toNat_natCast]
  | case2 bits short =>
    have few : bits < 5 := by
      by_contra many
      exact short (bits - 5) (by omega)
    rw [Nat.div_eq_of_lt few,Nat.mod_eq_of_lt few]
    rfl

theorem numbers_lt (bytes : List UInt8) : ∀ digit ∈ numbers bytes, digit < 256 :=
  forall_mem_map.mpr (fun byte _ => UInt8.toNat_lt byte)

/-- What is put out for the bytes to come, behind a number of which so many bits are left. -/
theorem encodeFrom_eq (input : List UInt8) : ∀ {bits number : Nat} {value : Int} (output : List Char), bits < 5 → Wraps value number →
    encodeFrom bits value output input = output ++ (digitsOf 32 ((bits + 8 * input.length + 4) / 5)
      (onward 256 number (numbers input) * 2^(5 * ((bits + 8 * input.length + 4) / 5) - (bits + 8 * input.length)))).map symbol := by
  induction input with
  | nil =>
    intro bits number value output few held
    unfold encodeFrom
    split
    next some =>
      have shifted : JsNumber.and (JsNumber.shiftLeft value (5 - bits)) 31 = ((number * 2^(5 - bits) % 32 : Nat) : Int) :=
        @Wraps.low _ (number * 2^(5 - bits)) 5 (held.shift (by omega)) (by decide)
      have one : (bits + 8 * ([] : List UInt8).length + 4) / 5 = 1 := by
        rw [length_nil]
        omega
      rw [one,shifted,Int.toNat_natCast]
      simp only [digitsOf,nil_append,map_cons,map_nil,numbers,onward,foldl_nil,length_nil,
        Nat.mul_zero,Nat.add_zero,Nat.mul_one]
    next none =>
      have zero : bits = 0 := by omega
      rw [zero]
      exact (append_nil _).symm
  | cons byte input ih =>
    intro bits number value output few held
    have pushed := held.push (show 8 < 32 by decide) (UInt8.toNat_lt byte)
    rw [encodeFrom,emit_eq pushed (by omega)]
    dsimp only
    rw [ih _ (Nat.mod_lt _ (by decide)) pushed,append_assoc,← map_append]
    have total : bits + 8 * (byte::input).length = 5 * ((bits + 8) / 5) + ((bits + 8) % 5 + 8 * input.length) := by
      rw [length_cons]
      omega
    have same : onward 256 number (numbers (byte::input)) = onward 256 (number * 2^8 + byte.toNat) (numbers input) := rfl
    have whole := onward_div (numbers input) (numbers_lt input) (number * 2^8 + byte.toNat)
    have length : (numbers input).length = input.length := length_map _
    rw [total,same]
    generalize onward 256 (number * 2^8 + byte.toNat) (numbers input) = all at whole ⊢
    generalize (bits + 8) / 5 = front
    generalize (bits + 8) % 5 = rest
    have widths : (5 * front + (rest + 8 * input.length) + 4) / 5 = front + (rest + 8 * input.length + 4) / 5 := by omega
    have exponents : 5 * (front + (rest + 8 * input.length + 4) / 5) - (5 * front + (rest + 8 * input.length)) =
        5 * ((rest + 8 * input.length + 4) / 5) - (rest + 8 * input.length) := by omega
    rw [widths,exponents,digitsOf_add]
    have power : 32^((rest + 8 * input.length + 4) / 5) =
        2^(5 * ((rest + 8 * input.length + 4) / 5) - (rest + 8 * input.length)) * (256^input.length * 2^rest) := by
      rw [show (32 : Nat) = 2^5 from rfl,show (256 : Nat) = 2^8 from rfl,← Nat.pow_mul,← Nat.pow_mul,← Nat.pow_add,← Nat.pow_add]
      congr 1
      omega
    rw [power,Nat.mul_comm all,Nat.mul_div_mul_left _ _ (Nat.two_pow_pos _),← Nat.div_div_eq_div_mul,← length,whole]

theorem symbol_facts : ∀ digit < 32, symbol digit ∈ ALPHABET ∧ ALPHABET.idxOf (symbol digit) = digit ∧
    JsString.isSpace (symbol digit) = false ∧ symbol digit ≠ '=' := by
  decide

/-- What is read from symbols, behind a number of which so many bits are left. -/
theorem decodeFrom_eq (digits : List Nat) (small : ∀ digit ∈ digits, digit < 32) :
    ∀ {bits number : Nat} {value : Int}, bits < 8 → Wraps value number →
      ∃ bytes, decodeFrom bits value (digits.map symbol) = some bytes ∧
        numbers bytes = digitsOf 256 ((bits + 5 * digits.length) / 8) (onward 32 number digits / 2^((bits + 5 * digits.length) % 8)) := by
  induction digits with
  | nil =>
    intro bits number value few held
    refine ⟨[],rfl,?_⟩
    rw [length_nil,Nat.mul_zero,Nat.add_zero,Nat.div_eq_of_lt few]
    rfl
  | cons digit digits ih =>
    intro bits number value few held
    obtain ⟨less,rest⟩ := forall_mem_cons.mp small
    obtain ⟨known,index,-,-⟩ := symbol_facts digit less
    have pushed := held.push (show 5 < 32 by decide) less
    have same : onward 32 number (digit::digits) = onward 32 (number * 2^5 + digit) digits := rfl
    have whole := onward_div digits rest (number * 2^5 + digit)
    rw [map_cons,decodeFrom,if_pos known,index,length_cons,same]
    dsimp only
    split
    next full =>
      obtain ⟨bytes,decoded,read⟩ := ih rest (show bits - 3 < 8 by omega) pushed
      have byte : JsNumber.and (JsNumber.unsigned (JsNumber.or (JsNumber.shiftLeft value 5) digit) (bits - 3)) 0xff =
          (((number * 2^5 + digit) / 2^(bits - 3) % 256 : Nat) : Int) :=
        @Wraps.read _ _ (bits - 3) 8 pushed (by decide) (by omega) (by omega)
      rw [decoded,byte,Int.toNat_natCast]
      refine ⟨_,rfl,?_⟩
      have widths : (bits + 5 * (digits.length + 1)) / 8 = (bits - 3 + 5 * digits.length) / 8 + 1 := by omega
      have lefts : (bits + 5 * (digits.length + 1)) % 8 = (bits - 3 + 5 * digits.length) % 8 := by omega
      rw [widths,lefts,digitsOf_cons,← read,Nat.div_div_eq_div_mul]
      have power : 2^((bits - 3 + 5 * digits.length) % 8) * 256^((bits - 3 + 5 * digits.length) / 8) =
          32^digits.length * 2^(bits - 3) := by
        rw [show (32 : Nat) = 2^5 from rfl,show (256 : Nat) = 2^8 from rfl,← Nat.pow_mul,← Nat.pow_mul,← Nat.pow_add,← Nat.pow_add]
        congr 1
        omega
      rw [power,← Nat.div_div_eq_div_mul,whole,numbers,map_cons,UInt8.toNat_ofNat',Nat.mod_mod]
      rfl
    next short =>
      obtain ⟨bytes,decoded,read⟩ := ih rest (show bits + 5 < 8 by omega) pushed
      refine ⟨bytes,decoded,?_⟩
      rw [read,show bits + 5 + 5 * digits.length = bits + 5 * (digits.length + 1) by omega]

theorem onward_digitsOf (base width number : Nat) : onward base 0 (digitsOf base width number) = number % base^width := by
  induction width generalizing number with
  | zero => rw [Nat.pow_zero,Nat.mod_one]; rfl
  | succ width ih =>
    have last : onward base 0 (digitsOf base (width + 1) number) =
        onward base 0 (digitsOf base width (number / base)) * base + number % base := foldl_append
    rw [last,ih,Nat.pow_succ,Nat.mul_comm (base^width),Nat.mod_mul,Nat.mul_comm,Nat.add_comm]

theorem digitsOf_length (base width number : Nat) : (digitsOf base width number).length = width := by
  induction width generalizing number with
  | zero => rfl
  | succ width ih => rw [digitsOf,length_append,ih,length_singleton]

theorem digitsOf_onward {base : Nat} (digits : List Nat) (small : ∀ digit ∈ digits, digit < base) (number : Nat) :
    digitsOf base digits.length (onward base number digits) = digits := by
  induction digits generalizing number with
  | nil => rfl
  | cons digit digits ih =>
    obtain ⟨less,rest⟩ := forall_mem_cons.mp small
    have same : onward base number (digit::digits) = onward base (number * base + digit) digits := rfl
    rw [length_cons,digitsOf_cons,same,ih rest,onward_div digits rest,Nat.add_comm,Nat.add_mul_mod_self_right,Nat.mod_eq_of_lt less]

/-- A padded text is the definition's, and is read back. -/
structure Faithful (letters : Letters) (bytes : List UInt8) : Prop where
  encoded : base32Encode bytes = rfc4648 bytes
  decoded : base32Decode letters (base32Encode bytes) = some bytes

theorem base32_faithful (letters : Letters) (bytes : List UInt8) : Faithful letters bytes := by
  have zero : Wraps 0 0 := rfl
  have written := encodeFrom_eq bytes [] (show 0 < 5 by decide) zero
  rw [Nat.zero_add,nil_append] at written
  have encoded : base32Encode bytes = rfc4648 bytes := by
    rw [base32Encode,written,rfc4648,length_map,digitsOf_length]
  refine ⟨encoded,?_⟩
  rw [encoded,rfc4648]
  generalize shown : digitsOf 32 ((8 * bytes.length + 4) / 5)
    (onward 256 0 (numbers bytes) * 2^(5 * ((8 * bytes.length + 4) / 5) - 8 * bytes.length)) = digits
  have small : ∀ digit ∈ digits, digit < 32 := fun digit member => digitsOf_lt (by decide) (shown ▸ member)
  have width : digits.length = (8 * bytes.length + 4) / 5 := shown ▸ digitsOf_length _ _ _
  have facts : ∀ char ∈ digits.map symbol, char ∈ ALPHABET ∧ JsString.isSpace char = false ∧ char ≠ '=' := by
    refine forall_mem_map.mpr (fun digit member => ?_)
    obtain ⟨known,-,space,other⟩ := symbol_facts digit (small digit member)
    exact ⟨known,space,other⟩
  have stripped (count : Nat) : (((digits.map symbol ++ List.replicate count '=').reverse.dropWhile (· = '=')).reverse) = digits.map symbol := by
    rw [reverse_append,reverse_replicate,dropWhile_append_of_pos (by simp)]
    have first : ∀ char ∈ (digits.map symbol).reverse.head?, char ≠ '=' :=
      fun char is => (facts char (mem_reverse.mp (mem_of_head? is))).2.2
    cases back : (digits.map symbol).reverse with
    | nil => exact (reverse_eq_nil_iff.mp back).symm
    | cons char rest =>
      rw [back] at first
      rw [dropWhile_cons_of_neg (by simpa using first char rfl),← back,reverse_reverse]
  obtain ⟨read,decoded,same⟩ := decodeFrom_eq digits small (show 0 < 8 by decide) zero
  rw [base32Decode,letters.upper,stripped,filter_eq_self.mpr,decoded]
  · refine congrArg some (map_injective_iff.mpr (fun _ _ => UInt8.toNat_inj.mp) ?_)
    have length : (numbers bytes).length = bytes.length := length_map _
    have least := onward_div (numbers bytes) (numbers_lt bytes) 0
    have again := digitsOf_onward (numbers bytes) (numbers_lt bytes) 0
    rw [length] at least again
    change numbers read = numbers bytes
    rw [same,width,Nat.zero_add,← shown,onward_digitsOf]
    generalize onward 256 0 (numbers bytes) = all at least again ⊢
    have bound : all < 256^bytes.length := (Nat.div_eq_zero_iff.mp least).resolve_left ((Nat.pow_pos (by decide)).ne')
    have power : 32^((8 * bytes.length + 4) / 5) = 256^bytes.length * 2^(5 * ((8 * bytes.length + 4) / 5) - 8 * bytes.length) := by
      rw [show (32 : Nat) = 2^5 from rfl,show (256 : Nat) = 2^8 from rfl,← Nat.pow_mul,← Nat.pow_mul,← Nat.pow_add]
      congr 1
      omega
    have widths : 5 * ((8 * bytes.length + 4) / 5) / 8 = bytes.length := by omega
    have lefts : 5 * ((8 * bytes.length + 4) / 5) % 8 = 5 * ((8 * bytes.length + 4) / 5) - 8 * bytes.length := by omega
    rw [power,widths,lefts,Nat.mod_eq_of_lt (Nat.mul_lt_mul_of_pos_right bound (Nat.two_pow_pos _)),
      Nat.mul_div_cancel _ (Nat.two_pow_pos _),again]
  · exact fun char member => by rw [(facts char member).2.1]; rfl
  · intro char member
    rcases mem_append.mp member with one | pad
    · exact mem_cons_of_mem _ (facts char one).1
    · rw [(mem_replicate.mp pad).2]
      exact mem_cons_self

end Depsis.Auth.Base32

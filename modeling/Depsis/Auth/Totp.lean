import Depsis.Auth.Base32
import Depsis.Auth.SecondFactor
import Depsis.Foundation.Decimal
import Mathlib.Algebra.Group.Int.Defs

/-! A code for a time, the steps around it that are accepted, and the code RFC 6238 defines for a counter.
-/
namespace Depsis.Auth.Totp

open Depsis.Foundation Depsis.Auth.Base32 List

structure Hmac where
  digest : List UInt8 → List UInt8 → List UInt8
  long : ∀ secret message, 20 ≤ (digest secret message).length

structure Options where
  window : Nat
  digits : Nat
  period : Nat
  shown : 0 < digits
  lasting : 0 < period

/-- Seconds which a double holds exactly, with every step around them, and no step of which is before the epoch. -/
structure Moment (options : Options) where
  seconds : Nat
  late : options.window * options.period ≤ seconds
  exact' : seconds + options.window * options.period ≤ 9007199254740992

/-- `none` where an error is thrown, here and below. -/
def writeBigUInt64BE (counter : Int) : Option (List UInt8) :=
  if 0 ≤ counter ∧ counter < 2^64 then some ((digitsOf 256 8 counter.toNat).map UInt8.ofNat) else none

def truncate (digest : List UInt8) : Option Int := do
  let lastByte ← digest.getLast?
  let offset := (JsNumber.and lastByte.toNat 0x0f).toNat
  let b0 ← digest[offset]?
  let b1 ← digest[offset + 1]?
  let b2 ← digest[offset + 2]?
  let b3 ← digest[offset + 3]?
  some (JsNumber.or (JsNumber.or (JsNumber.or (JsNumber.shiftLeft (JsNumber.and b0.toNat 0x7f) 24)
    (JsNumber.shiftLeft b1.toNat 16)) (JsNumber.shiftLeft b2.toNat 8)) b3.toNat)

def padStart (text : List Char) (width : Nat) : List Char := List.replicate (width - text.length) '0' ++ text

section

variable (hmac : Hmac) (secret : List UInt8)

def totp (unixSeconds : Int) (digits period : Nat) : Option (List Char) := do
  let message ← writeBigUInt64BE (unixSeconds / period)
  let binary ← truncate (hmac.digest secret message)
  some (padStart (Decimal.render (binary.tmod ((10^digits : Nat) : Int))) digits)

def candidate (code : List Char) : List Char := (JsString.trimChars code).filter (fun char => !JsString.isSpace char)

def steps (window : Nat) : List Int := (List.range (2 * window + 1)).map (fun index : Nat => (index : Int) - window)

def verifyTotp (code : List Char) (unixSeconds : Int) (options : Options) : Option (Option Int) :=
  let supplied := candidate code
  if supplied.length = options.digits ∧ supplied.all Char.isDigit then
    (steps options.window).foldlM (fun matched step => do
      let expected ← totp hmac secret (unixSeconds + step * options.period) options.digits options.period
      some (if expected = supplied then some step else matched)) none
  else some none

/-- The code of RFC 4226 for a counter: the last 31 bits of four bytes of the hash, to so many decimal digits. -/
def hotp (digits counter : Nat) : List Char :=
  let digest := hmac.digest secret ((digitsOf 256 8 counter).map UInt8.ofNat)
  let offset := (digest.getLastD 0).toNat % 16
  (digitsOf 10 digits (onward 256 0 (numbers ((digest.drop offset).take 4)) % 2^31)).map Nat.digitChar

end

variable {options : Options} {digest : List UInt8}

theorem packed_exact {first second : Int} {number : Nat} (held : Wraps (JsNumber.or first second) number) (small : number < 2^31) :
    JsNumber.or first second = number := by
  have held : JsNumber.bits (JsNumber.or first second) = BitVec.ofNat 32 number := held
  have read : (BitVec.ofNat 32 number).toNat = number := Nat.mod_eq_of_lt (by omega)
  rw [JsNumber.bits_or] at held
  rw [JsNumber.or,held,BitVec.toInt_eq_toNat_of_lt (by rw [read]; omega),read]

theorem packed_eq (b0 b1 b2 b3 : UInt8) :
    JsNumber.or (JsNumber.or (JsNumber.or (JsNumber.shiftLeft (JsNumber.and b0.toNat 0x7f) 24) (JsNumber.shiftLeft b1.toNat 16))
      (JsNumber.shiftLeft b2.toNat 8)) b3.toNat = ((onward 256 0 (numbers [b0,b1,b2,b3]) % 2^31 : Nat) : Int) := by
  have masked : JsNumber.and (b0.toNat : Int) 0x7f = ((b0.toNat % 128 : Nat) : Int) := @Wraps.low _ _ 7 (Wraps.of _) (by decide)
  have first := b1.toNat_lt
  have second := b2.toNat_lt
  have third := b3.toNat_lt
  have number : onward 256 0 (numbers [b0,b1,b2,b3]) % 2^31 =
      b0.toNat % 128 * 2^24 + b1.toNat * 2^16 + b2.toNat * 2^8 + b3.toNat := by
    change ((((0 * 256 + b0.toNat) * 256 + b1.toNat) * 256 + b2.toNat) * 256 + b3.toNat) % 2^31 = _
    omega
  rw [masked,number]
  have two := ((Wraps.of (b0.toNat % 128)).shift (show 24 < 32 by decide)).or ((Wraps.of b1.toNat).shift (show 16 < 32 by decide))
    (show b1.toNat * 2^16 < 2^24 by omega)
  rw [show b0.toNat % 128 * 2^24 + b1.toNat * 2^16 = (b0.toNat % 128 * 2^8 + b1.toNat) * 2^16 by omega] at two
  have three := two.or ((Wraps.of b2.toNat).shift (show 8 < 32 by decide)) (show b2.toNat * 2^8 < 2^16 by omega)
  rw [show (b0.toNat % 128 * 2^8 + b1.toNat) * 2^16 + b2.toNat * 2^8 =
    ((b0.toNat % 128 * 2^8 + b1.toNat) * 2^8 + b2.toNat) * 2^8 by omega] at three
  have four := three.or (Wraps.of b3.toNat) third
  rw [show ((b0.toNat % 128 * 2^8 + b1.toNat) * 2^8 + b2.toNat) * 2^8 + b3.toNat =
    b0.toNat % 128 * 2^24 + b1.toNat * 2^16 + b2.toNat * 2^8 + b3.toNat by omega] at four
  exact packed_exact four (by omega)

theorem truncate_eq (long : 20 ≤ digest.length) :
    truncate digest = some ((onward 256 0 (numbers ((digest.drop ((digest.getLastD 0).toNat % 16)).take 4)) % 2^31 : Nat) : Int) := by
  have present : digest ≠ [] := ne_nil_of_length_pos (by omega)
  have last : digest.getLast? = some (digest.getLastD 0) := by
    rw [getLastD_eq_getLast?,getLast?_eq_some_getLast present]
    rfl
  have nibble : JsNumber.and ((digest.getLastD 0).toNat : Int) 0x0f = (((digest.getLastD 0).toNat % 16 : Nat) : Int) :=
    @Wraps.low _ _ 4 (Wraps.of _) (by decide)
  have low := Nat.mod_lt (digest.getLastD 0).toNat (show 0 < 16 by decide)
  rw [truncate,last,Option.bind_eq_bind,Option.bind_some,nibble,Int.toNat_natCast]
  generalize (digest.getLastD 0).toNat % 16 = offset at low ⊢
  have inside (index : Nat) (near : index ≤ 18) : digest[index]? = some (digest.getD index 0) := by
    rw [getD_eq_getElem?_getD,getElem?_eq_getElem (by omega)]
    rfl
  have window : (digest.drop offset).take 4 =
      [digest.getD offset 0,digest.getD (offset + 1) 0,digest.getD (offset + 2) 0,digest.getD (offset + 3) 0] := by
    apply ext_getElem?
    intro index
    rw [getElem?_take,getElem?_drop]
    rcases index with _ | _ | _ | _ | index
    · exact inside offset (by omega)
    · exact inside (offset + 1) (by omega)
    · exact inside (offset + 2) (by omega)
    · exact inside (offset + 3) (by omega)
    · rw [if_neg (by omega)]
      rfl
  dsimp only
  rw [window,inside offset (by omega),inside (offset + 1) (by omega),inside (offset + 2) (by omega),inside (offset + 3) (by omega)]
  exact congrArg some (packed_eq _ _ _ _)

theorem padStart_eq (width number : Nat) :
    padStart (Nat.toDigits 10 (number % 10^(width + 1))) (width + 1) = (digitsOf 10 (width + 1) number).map Nat.digitChar := by
  induction width generalizing number with
  | zero =>
    rw [Nat.toDigits_of_lt_base (show number % 10^(0 + 1) < 10 from Nat.mod_lt _ (by decide))]
    rfl
  | succ width ih =>
    have cut : number % 10^(width + 1 + 1) = 10 * (number / 10 % 10^(width + 1)) + number % 10 := by
      rw [Nat.pow_succ,Nat.mul_comm,Nat.mod_mul,Nat.add_comm]
    have least := Nat.mod_lt number (show 0 < 10 by decide)
    have rest := ih (number / 10)
    rw [digitsOf,map_append,← rest,cut]
    generalize number / 10 % 10^(width + 1) = front
    rcases Nat.eq_zero_or_pos front with zero | positive
    · rw [zero,Nat.mul_zero,Nat.zero_add,Nat.toDigits_of_lt_base least,Nat.toDigits_zero,padStart,padStart,length_singleton,
        length_singleton,Nat.add_sub_cancel,Nat.add_sub_cancel,replicate_succ']
      rfl
    · rw [← Nat.toDigits_append_toDigits (by decide) positive least,Nat.toDigits_of_lt_base least,padStart,padStart,length_append,
        length_singleton,Nat.add_sub_add_right,append_assoc]
      rfl

section

variable (hmac : Hmac) (secret : List UInt8)

theorem totp_eq {seconds : Int} {digits period counter : Nat} (same : seconds / (period : Int) = (counter : Int))
    (few : counter < 2^64) (shown : 0 < digits) : totp hmac secret seconds digits period = some (hotp hmac secret digits counter) := by
  obtain ⟨width,rfl⟩ := Nat.exists_eq_succ_of_ne_zero (Nat.ne_of_gt shown)
  rw [totp,same,writeBigUInt64BE,if_pos (by omega),Option.bind_eq_bind,Option.bind_some,Int.toNat_natCast,
    truncate_eq (hmac.long _ _),Option.bind_eq_bind,Option.bind_some,← Int.ofNat_tmod]
  exact congrArg some (padStart_eq width _)

theorem hotp_digits (digits counter : Nat) :
    (hotp hmac secret digits counter).length = digits ∧ (hotp hmac secret digits counter).all Char.isDigit = true := by
  refine ⟨(length_map _).trans (digitsOf_length _ _ _),?_⟩
  rw [hotp,all_map,all_eq_true]
  intro digit member
  have decimal : ∀ digit < 10, (Nat.digitChar digit).isDigit = true := by decide
  exact decimal digit (digitsOf_lt (by decide) member)

theorem filter_dropWhile (chars : List Char) :
    (chars.dropWhile JsString.isSpace).filter (fun char => !JsString.isSpace char) = chars.filter (fun char => !JsString.isSpace char) := by
  induction chars with
  | nil => rfl
  | cons char chars ih =>
    rw [dropWhile_cons]
    split
    next space => rw [ih,filter_cons_of_neg (by rw [space]; decide)]
    next other => rfl

theorem candidate_eq (code : List Char) : candidate code = code.filter (fun char => !JsString.isSpace char) := by
  rw [candidate,JsString.trimChars,filter_reverse,filter_dropWhile,filter_reverse,reverse_reverse,filter_dropWhile]

theorem mem_steps {window : Nat} {step : Int} : step ∈ steps window ↔ -(window : Int) ≤ step ∧ step ≤ window := by
  rw [steps,mem_map]
  constructor
  · rintro ⟨index,member,rfl⟩
    have := mem_range.mp member
    omega
  · rintro ⟨least,most⟩
    exact ⟨(step + window).toNat,mem_range.mpr (by omega),by omega⟩

theorem steps_totp (moment : Moment options) {step : Int} (member : step ∈ steps options.window) :
    totp hmac secret (moment.seconds + step * options.period) options.digits options.period =
      some (hotp hmac secret options.digits ((moment.seconds / options.period : Nat) + step).toNat) := by
  obtain ⟨least,most⟩ := mem_steps.mp member
  have lasting := options.lasting
  have late := (Nat.le_div_iff_mul_le lasting).mpr moment.late
  have early := moment.exact'
  have wide : options.window ≤ options.window * options.period := Nat.le_mul_of_pos_right _ lasting
  have less := Nat.div_le_self moment.seconds options.period
  have divided : ((moment.seconds : Int) + step * options.period) / options.period = (moment.seconds / options.period : Nat) + step := by
    rw [Int.add_mul_ediv_right _ _ (by omega),Int.natCast_ediv]
  exact totp_eq hmac secret (by omega) (by omega) options.shown

variable (code : List Char) (moment : Moment options)

/-- Some step around the time at which the code without white space is the definition's. -/
structure Presented (step : Int) : Prop where
  least : -(options.window : Int) ≤ step
  most : step ≤ options.window
  same : code.filter (fun char => !JsString.isSpace char) =
    hotp hmac secret options.digits ((moment.seconds / options.period : Nat) + step).toNat

/-- What `verifyTotp` gives back, and the counter the caller stores for it. -/
structure Verified (result : Option Int) : Prop where
  returned : verifyTotp hmac secret code moment.seconds options = some result
  exactly' : result.isSome = true ↔ ∃ step, Presented hmac secret code moment step
  presented : ∀ step ∈ result, Presented hmac secret code moment step
  stored : options.period = PERIOD_SECONDS → ∀ step ∈ result,
    code.filter (fun char => !JsString.isSpace char) = hotp hmac secret options.digits (absoluteStep moment.seconds step).toNat

theorem folded (supplied : List Char) (list : List Int) (expected : Int → List Char) (unixSeconds : Int)
    (read : ∀ step ∈ list, totp hmac secret (unixSeconds + step * options.period) options.digits options.period = some (expected step))
    (matched : Option Int) : ∃ result, list.foldlM (fun matched step => do
      let expected ← totp hmac secret (unixSeconds + step * options.period) options.digits options.period
      some (if expected = supplied then some step else matched)) matched = some result ∧
    ((result = matched ∧ ∀ step ∈ list, expected step ≠ supplied) ∨ ∃ step ∈ list, result = some step ∧ expected step = supplied) := by
  induction list generalizing matched with
  | nil => exact ⟨matched,rfl,.inl ⟨rfl,forall_mem_nil _⟩⟩
  | cons step list ih =>
    obtain ⟨here,later⟩ := forall_mem_cons.mp read
    obtain ⟨result,run,outcome⟩ := ih later (if expected step = supplied then some step else matched)
    refine ⟨result,?_,?_⟩
    · rw [foldlM_cons,here]
      exact run
    · rcases outcome with ⟨kept,none⟩ | ⟨other,member,taken,same⟩
      · split at kept
        next same => exact .inr ⟨step,mem_cons_self,kept,same⟩
        next differs => exact .inl ⟨kept,forall_mem_cons.mpr ⟨differs,none⟩⟩
      · exact .inr ⟨other,mem_cons_of_mem _ member,taken,same⟩

theorem verifyTotp_verified : ∃ result, Verified hmac secret code moment result := by
  have given := candidate_eq code
  suffices some : ∃ result, verifyTotp hmac secret code moment.seconds options = some result ∧
      ((result = none ∧ ∀ step, ¬Presented hmac secret code moment step) ∨
        ∃ step, result = some step ∧ Presented hmac secret code moment step) by
    obtain ⟨result,returned,⟨rfl,absent⟩ | ⟨step,rfl,presented⟩⟩ := some
    · exact ⟨none,returned,⟨nofun,fun ⟨step,presented⟩ => (absent step presented).elim⟩,nofun,fun _ => nofun⟩
    · refine ⟨some step,returned,⟨fun _ => ⟨step,presented⟩,fun _ => rfl⟩,fun _ is => Option.some.inj is ▸ presented,fun same _ is => ?_⟩
      cases is
      rw [presented.same,absoluteStep,← same,Int.natCast_ediv]
  unfold verifyTotp
  dsimp only
  rw [given]
  split
  next shape =>
    obtain ⟨result,run,outcome⟩ := folded hmac secret (code.filter (fun char => !JsString.isSpace char)) (steps options.window) _
      moment.seconds (fun step => steps_totp hmac secret moment) none
    refine ⟨result,run,outcome.imp ?_ ?_⟩
    · intro ⟨kept,absent⟩
      exact ⟨kept,fun step presented => absent step (mem_steps.mpr ⟨presented.least,presented.most⟩) presented.same.symm⟩
    · intro ⟨step,member,taken,same⟩
      obtain ⟨least,most⟩ := mem_steps.mp member
      exact ⟨step,taken,least,most,same.symm⟩
  next other =>
    refine ⟨none,rfl,.inl ⟨rfl,fun step presented => other ?_⟩⟩
    rw [presented.same]
    exact hotp_digits hmac secret _ _

theorem second_factor_standard (letters : Letters) (bytes : List UInt8) :
    (∃ result, Verified hmac secret code moment result) ∧ Faithful letters bytes :=
  ⟨verifyTotp_verified hmac secret code moment,base32_faithful letters bytes⟩

end

end Depsis.Auth.Totp

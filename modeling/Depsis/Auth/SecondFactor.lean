import Depsis.Foundation.Table
import Mathlib.Algebra.GroupWithZero.Nat

/-! The second factor of one user: the stored TOTP secret, the recovery codes, and every transaction of
`MfaService` on them. A submitted code is checked in steps, one for each transaction. A sealed secret is
kept as the secret it opens to.
-/
namespace Depsis.Auth

open Depsis.Foundation

def PERIOD_SECONDS : Nat := 30

def DIGITS : Nat := 6

def isSpace (char : Char) : Bool :=
  [0x09,0x0A,0x0B,0x0C,0x0D,0x20,0xA0,0x1680,0x2028,0x2029,0x202F,0x205F,0x3000,0xFEFF].contains char.toNat ||
    (0x2000 ≤ char.toNat && char.toNat ≤ 0x200A)

structure Crypto where
  hmacSha1 : List UInt8 → List UInt8 → List UInt8
  sha256 : String → String
  toUpperCase : List Char → List Char
  keyed : Bool

def counterBytes (counter : Nat) : List UInt8 :=
  (List.range 8).map (fun index => UInt8.ofNat (counter >>> (8*(7-index))))

def totp (crypto : Crypto) (secret : List UInt8) (unixSeconds : Int) : List Char :=
  let digest := crypto.hmacSha1 secret (counterBytes (unixSeconds / PERIOD_SECONDS).toNat)
  let offset := (digest.getLastD 0 &&& 0x0f).toNat
  let byte := fun index => (digest.getD (offset+index) 0).toNat
  let binary := (byte 0 &&& 0x7f) <<< 24 ||| byte 1 <<< 16 ||| byte 2 <<< 8 ||| byte 3
  let text := Nat.toDigits 10 (binary % 10^DIGITS)
  List.replicate (DIGITS - text.length) '0' ++ text

def verifyTotp (crypto : Crypto) (secret : List UInt8) (code : List Char) (unixSeconds : Int) : Option Int :=
  let candidate := code.filter (fun char => !isSpace char)
  if candidate.length = DIGITS && candidate.all Char.isDigit then
    ([-1,0,1] : List Int).foldl (fun matched step =>
      if totp crypto secret (unixSeconds + step*PERIOD_SECONDS) = candidate then some step else matched) none
  else none

def absoluteStep (unixSeconds offset : Int) : Int := unixSeconds / PERIOD_SECONDS + offset

def canonical (crypto : Crypto) (submitted : List Char) : List Char :=
  crypto.toUpperCase (submitted.filter (fun char => !(isSpace char || char = '-')))

def hashRecoveryCode (crypto : Crypto) (code : List Char) : String :=
  crypto.sha256 (String.ofList (canonical crypto code))

def isBase32 (char : Char) : Bool :=
  ('A'.toNat ≤ char.toNat && char.toNat ≤ 'Z'.toNat) || ('2'.toNat ≤ char.toNat && char.toNat ≤ '7'.toNat)

structure TotpRow where
  secret : List UInt8
  sealed : Bool
  confirmed : Bool
  lastUsedStep : Option Int
  writing : Nat
deriving DecidableEq

structure Mfa where
  row : Option TotpRow
  codes : Table String Bool

inductive Check where
  | read (code : List Char)
  | reseal (row : TotpRow) (code : List Char)
  | burn (used : Int)
  | spend (hash : String)
  | ends (ok : Bool)
deriving DecidableEq

/-- `verifySecondFactor`: the kinds of code are told apart by shape. -/
def verifySecondFactor (crypto : Crypto) (submitted : List Char) : Check :=
  let cleaned := canonical crypto submitted
  if cleaned.length = 6 && cleaned.all Char.isDigit then .read cleaned
  else if cleaned.length = 20 && cleaned.all isBase32 then .spend (hashRecoveryCode crypto cleaned)
  else .ends false

def TotpRow.judge (crypto : Crypto) (row : TotpRow) (code : List Char) (unixSeconds : Int) : Check :=
  match verifyTotp crypto row.secret code unixSeconds with
  | none => .ends false
  | some step =>
    let used := absoluteStep unixSeconds step
    if row.lastUsedStep.any (fun last => used ≤ last) then .ends false else .burn used

section

variable (mfa : Mfa)

/-- `secretRow`, and `unseal` up to its own transaction: a plaintext secret is sealed first, and a sealed one
may fail to open. -/
def Mfa.read (crypto : Crypto) (requireConfirmed opens : Bool) : Option (TotpRow × Bool) :=
  match mfa.row.filter (fun row => !requireConfirmed || row.confirmed) with
  | none => none
  | some row =>
    if !row.sealed then some (row,crypto.keyed)
    else if crypto.keyed && opens then some (row,false)
    else none

def Mfa.reseal (read : TotpRow) : Mfa :=
  match mfa.row with
  | none => mfa
  | some row =>
    if row.sealed then mfa
    else { mfa with row := some { row with secret := read.secret, sealed := true, writing := read.writing } }

def Mfa.burn (used : Int) : Option Mfa :=
  match mfa.row with
  | none => none
  | some row =>
    if row.lastUsedStep.all (fun last => last < used) then some { mfa with row := some { row with lastUsedStep := some used } }
    else none

def Mfa.spend (hash : String) : Option Mfa :=
  if mfa.codes.lookup hash = some false then some { mfa with codes := mfa.codes.insert hash true } else none

/-- `regenerateRecoveryCodes`; a hash that comes twice fails the transaction. -/
def Mfa.replaceCodes (hashes : List String) : Option Mfa :=
  if hashes.Nodup then some { mfa with codes := (∅ : Table String Bool).fill (hashes.map (·,false)) } else none

def Mfa.confirm (used : Int) (hashes : List String) : Option Mfa :=
  { mfa with row := mfa.row.map (fun row : TotpRow => { row with confirmed := true, lastUsedStep := some used }) }.replaceCodes hashes

def Mfa.begin (secret : List UInt8) (writing : Nat) : Mfa :=
  { mfa with row := some ⟨secret,true,false,none,writing⟩ }

def Mfa.advance (crypto : Crypto) (opens : Bool) (unixSeconds : Int) : Check → Mfa × Check
  | .read code =>
    match mfa.read crypto true opens with
    | none => (mfa,.ends false)
    | some (row,true) => (mfa,.reseal row code)
    | some (row,false) => (mfa,row.judge crypto code unixSeconds)
  | .reseal row code => (mfa.reseal row,row.judge crypto code unixSeconds)
  | .burn used =>
    match mfa.burn used with
    | none => (mfa,.ends false)
    | some next => (next,.ends true)
  | .spend hash =>
    match mfa.spend hash with
    | none => (mfa,.ends false)
    | some next => (next,.ends true)
  | .ends ok => (mfa,.ends ok)

end

def Check.compares : Check → Bool
  | .read _ | .spend _ => true
  | _ => false

def Check.step : Check → List Int
  | .burn used => [used]
  | _ => []

def Check.code : Check → List String
  | .spend hash => [hash]
  | _ => []

section

variable {mfa next : Mfa} {crypto : Crypto} {opens : Bool} {unixSeconds : Int} {check later : Check} {row : TotpRow}

theorem judge_cases (row : TotpRow) (code : List Char) :
    row.judge crypto code unixSeconds = .ends false ∨ ∃ used, row.judge crypto code unixSeconds = .burn used := by
  unfold TotpRow.judge
  split
  next => exact .inl rfl
  next step _ =>
    simp only []
    split
    next => exact .inl rfl
    next => exact .inr ⟨_,rfl⟩

theorem advance_cases (advanced : mfa.advance crypto opens unixSeconds check = (next,later)) :
    (∃ used, check = .burn used ∧ mfa.burn used = some next ∧ later = .ends true) ∨
    (∃ hash, check = .spend hash ∧ mfa.spend hash = some next ∧ later = .ends true) ∨
    (∃ row code, check = .reseal row code ∧ next = mfa.reseal row ∧ later = row.judge crypto code unixSeconds) ∨
    (next = mfa ∧ (later = .ends true → check = .ends true)) := by
  cases check with simp only [Mfa.advance] at advanced
  | read code =>
    split at advanced
    next =>
      cases advanced
      exact .inr (.inr (.inr ⟨rfl,nofun⟩))
    next row _ =>
      cases advanced
      exact .inr (.inr (.inr ⟨rfl,nofun⟩))
    next row _ =>
      cases advanced
      refine .inr (.inr (.inr ⟨rfl,fun same => ?_⟩))
      rcases @judge_cases crypto unixSeconds row code with no | ⟨used,burns⟩
      · cases no.symm.trans same
      · cases burns.symm.trans same
  | reseal row code =>
    cases advanced
    exact .inr (.inr (.inl ⟨row,code,rfl,rfl,rfl⟩))
  | burn used =>
    split at advanced
    next =>
      cases advanced
      exact .inr (.inr (.inr ⟨rfl,nofun⟩))
    next burnt =>
      cases advanced
      exact .inl ⟨used,rfl,burnt,rfl⟩
  | spend hash =>
    split at advanced
    next =>
      cases advanced
      exact .inr (.inr (.inr ⟨rfl,nofun⟩))
    next spent =>
      cases advanced
      exact .inr (.inl ⟨hash,rfl,spent,rfl⟩)
  | ends ok =>
    cases advanced
    exact .inr (.inr (.inr ⟨rfl,fun same => same⟩))

theorem advance_compares (advanced : mfa.advance crypto opens unixSeconds check = (next,later)) : later.compares = false := by
  have judged : ∀ (row : TotpRow) code, (row.judge crypto code unixSeconds).compares = false := by
    intro row code
    rcases @judge_cases crypto unixSeconds row code with no | ⟨used,burns⟩
    · rw [no]
      rfl
    · rw [burns]
      rfl
  cases check with simp only [Mfa.advance] at advanced
  | read code =>
    split at advanced <;> cases advanced
    · rfl
    · rfl
    · exact judged _ code
  | reseal row code =>
    cases advanced
    exact judged row code
  | burn used | spend hash =>
    split at advanced <;> cases advanced <;> rfl
  | ends ok =>
    cases advanced
    rfl

theorem burn_some {used : Int} (burnt : mfa.burn used = some next) :
    ∃ row, mfa.row = some row ∧ (∀ last, row.lastUsedStep = some last → last < used) ∧
      next = { mfa with row := some { row with lastUsedStep := some used } } := by
  unfold Mfa.burn at burnt
  split at burnt
  next => cases burnt
  next row stored =>
    split at burnt <;> cases burnt
    next fresh =>
      refine ⟨row,stored,fun last found => ?_,rfl⟩
      simpa [found] using fresh

theorem spend_some {hash : String} (spent : mfa.spend hash = some next) :
    mfa.codes.lookup hash = some false ∧ next = { mfa with codes := mfa.codes.insert hash true } := by
  unfold Mfa.spend at spent
  split at spent <;> cases spent
  next unused => exact ⟨unused,rfl⟩

theorem reseal_row (mfa : Mfa) (read : TotpRow) : (mfa.reseal read).codes = mfa.codes ∧
    (mfa.row = none ∧ (mfa.reseal read).row = none ∨
      ∃ row later, mfa.row = some row ∧ (mfa.reseal read).row = some later ∧ later.lastUsedStep = row.lastUsedStep ∧
        later.confirmed = row.confirmed) := by
  unfold Mfa.reseal
  split
  next none => exact ⟨rfl,.inl ⟨none,none⟩⟩
  next row stored =>
    split
    next => exact ⟨rfl,.inr ⟨row,row,stored,stored,rfl,rfl⟩⟩
    next => exact ⟨rfl,.inr ⟨row,_,stored,rfl,rfl,rfl⟩⟩

end

end Depsis.Auth

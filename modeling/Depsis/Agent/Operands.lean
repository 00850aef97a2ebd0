import Mathlib.Data.List.Basic

/-! The operands a request may carry, checked while it is parsed. -/
namespace Depsis.Agent

open Bool

inductive ValidationError where
  | empty
  | tooLong (len max : Nat)
  | leadingDash
  | containsNul
  | containsSeparator
  | containsDotDot

def refusal (raw : String) : Option ValidationError :=
  if raw = "" then some .empty
  else if 255 < raw.utf8ByteSize then some (.tooLong raw.utf8ByteSize 255)
  else if raw.toList.head? = some '-' then some .leadingDash
  else if raw.toList.contains '\x00' then some .containsNul
  else if raw.toList.contains '/' || raw.toList.contains '\\' then some .containsSeparator
  else if raw = "." || raw = ".." then some .containsDotDot
  else none

structure SafeComponent where
  text : String
  valid : refusal text = none

namespace SafeComponent

def parse (raw : String) : Except ValidationError SafeComponent :=
  match found : refusal raw with
  | none => .ok ⟨raw,found⟩
  | some error => .error error

variable (component : SafeComponent)

theorem text_injective {first second : SafeComponent} (same : first.text = second.text) : first = second := by
  cases first
  cases second
  cases same
  rfl

theorem no_dash : component.text.toList.head? ≠ some '-' := by
  intro dash
  have valid := component.valid
  unfold refusal at valid
  rw [if_pos dash] at valid
  split_ifs at valid

theorem no_slash : '/' ∉ component.text.toList := by
  intro slash
  have valid := component.valid
  unfold refusal at valid
  rw [List.contains_iff_mem.mpr slash,Bool.true_or,if_pos rfl] at valid
  split_ifs at valid

end SafeComponent

structure PosixId where
  value : Nat
  bounded : 300000 ≤ value ∧ value ≤ 399999
deriving DecidableEq

inductive PosixNameError where
  | empty
  | tooLong (len max : Nat)
  | badStart (character : Char)
  | illegalChar (character : Char)

def loginCharacter (character : Char) : Bool :=
  character.isAlphanum || character = '.' || character = '_' || character = '-'

def loginRefusal (raw : String) : Option PosixNameError :=
  match raw.toList with
  | [] => some .empty
  | first::rest =>
    if 64 < raw.length then some (.tooLong raw.length 64)
    else if !first.isAlphanum then some (.badStart first)
    else ((first::rest).find? (fun character => !loginCharacter character)).map .illegalChar

structure PosixName where
  text : String
  valid : loginRefusal text = none
deriving DecidableEq

theorem alphanum_code {character : Char} (plain : character.isAlphanum = true) :
    (48 ≤ character.toNat ∧ character.toNat ≤ 57) ∨ (65 ≤ character.toNat ∧ character.toNat ≤ 90) ∨
      (97 ≤ character.toNat ∧ character.toNat ≤ 122) := by
  have spelled : ((65 ≤ character.toNat ∧ character.toNat ≤ 90) ∨ (97 ≤ character.toNat ∧ character.toNat ≤ 122)) ∨
      (48 ≤ character.toNat ∧ character.toNat ≤ 57) := by
    refine (or_eq_true_iff.mp plain).imp (fun letter => ?_) (fun digit => ?_)
    next =>
      refine (or_eq_true_iff.mp letter).imp (fun upper => ?_) (fun lower => ?_)
      next => exact of_decide_eq_true upper
      next => exact (and_eq_true_iff.mp lower).imp of_decide_eq_true of_decide_eq_true
    next => exact (and_eq_true_iff.mp digit).imp of_decide_eq_true of_decide_eq_true
  omega

namespace PosixName

def parse (raw : String) : Except PosixNameError PosixName :=
  match found : loginRefusal raw with
  | none => .ok ⟨raw,found⟩
  | some error => .error error

theorem legal (name : PosixName) : name.text.toList ≠ [] ∧ ∀ character ∈ name.text.toList, loginCharacter character = true := by
  have valid := name.valid
  unfold loginRefusal at valid
  split at valid
  next => cases valid
  next first rest shown =>
    split_ifs at valid
    rw [shown]
    refine ⟨List.cons_ne_nil _ _,fun character member => ?_⟩
    have clear := List.find?_eq_none.mp (Option.map_eq_none_iff.mp valid) character member
    simpa using clear

end PosixName

end Depsis.Agent

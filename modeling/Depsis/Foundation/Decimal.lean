import Depsis.Foundation.Text

/-! Decimal numbers as `printf` writes and the Rust standard library reads them.
-/
namespace Depsis.Foundation.Decimal

def render : Int → List Char
  | .ofNat number => Nat.toDigits 10 number
  | .negSucc number => '-' :: Nat.toDigits 10 (number + 1)

def digits (text : List Char) : Option Nat :=
  if text.isEmpty || !text.all Char.isDigit then none else some (Nat.ofDigitChars 10 text 0)

def signed : List Char → Option Int
  | '-' :: rest => (digits rest).map (fun number => -Int.ofNat number)
  | '+' :: rest => (digits rest).map Int.ofNat
  | rest => (digits rest).map Int.ofNat

def parseInt32 (text : List Char) : Option Int :=
  (signed text).bind (fun number => if -2147483648 ≤ number ∧ number < 2147483648 then some number else none)

theorem digit_of_mem {number : Nat} {character : Char} (member : character ∈ Nat.toDigits 10 number) :
    character.isDigit = true :=
  Nat.isDigit_of_mem_toDigits (by decide) (by decide) member

theorem digits_toDigits (number : Nat) : digits (Nat.toDigits 10 number) = some number := by
  have numeric : (Nat.toDigits 10 number).all Char.isDigit = true := List.all_eq_true.mpr (fun _ => digit_of_mem)
  have present : (Nat.toDigits 10 number).isEmpty = false := List.isEmpty_eq_false_iff.mpr Nat.toDigits_ne_nil
  rw [digits,numeric,present]
  exact congrArg some Nat.ofDigitChars_ten_toDigits

theorem signed_render (number : Int) : signed (render number) = some number := by
  cases number with
  | ofNat number =>
    have no_sign : ∀ sign : Char, sign.isDigit = false → ∀ rest, render (.ofNat number) ≠ sign::rest := by
      intro sign other rest written
      have first : sign ∈ render (.ofNat number) := written ▸ List.mem_cons_self
      have digit := digit_of_mem (show sign ∈ Nat.toDigits 10 number from first)
      rw [other] at digit
      cases digit
    unfold signed
    split
    · next rest written => exact absurd written (no_sign '-' (by decide) rest)
    · next rest written => exact absurd written (no_sign '+' (by decide) rest)
    · exact congrArg (Option.map Int.ofNat) (digits_toDigits number)
  | negSucc number =>
    change (digits (Nat.toDigits 10 (number + 1))).map (fun number => -Int.ofNat number) = _
    rw [digits_toDigits]
    rfl

theorem parseInt32_render {number : Int} (least : -2147483648 ≤ number) (most : number < 2147483648) :
    parseInt32 (render number) = some number := by
  rw [parseInt32,signed_render,Option.bind_some,if_pos ⟨least,most⟩]

theorem render_ne_nil (number : Int) : render number ≠ [] := by
  cases number with
  | ofNat number => exact Nat.toDigits_ne_nil
  | negSucc number => exact List.cons_ne_nil _ _

theorem mem_render {number : Int} {character : Char} (member : character ∈ render number) :
    character.isDigit = true ∨ character = '-' := by
  cases number with
  | ofNat number => exact .inl (digit_of_mem member)
  | negSucc number =>
    rcases List.mem_cons.mp member with rfl | inside
    · exact .inr rfl
    · exact .inl (digit_of_mem inside)

theorem digit_solid {character : Char} (digit : character.isDigit = true) : Text.whitespace character = false := by
  have low : 48 ≤ character.toNat ∧ character.toNat ≤ 57 := by
    simpa [Char.isDigit,UInt32.le_iff_toNat_le] using digit
  simp only [Text.whitespace]
  simp
  omega

theorem render_solid {number : Int} : ∀ character ∈ render number, Text.whitespace character = false := by
  intro character member
  rcases mem_render member with digit | rfl
  · exact digit_solid digit
  · rfl

end Depsis.Foundation.Decimal

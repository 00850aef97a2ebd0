import Depsis.Foundation.Json

/-! A value that a text begins with is read the same whatever comes after it, but for a number
right at the end.
-/
namespace Depsis.Foundation.Json

open List Option

def Closes (rest : List Char) : Prop := ∀ char ∈ rest.head?, char = ',' ∨ char = ']' ∨ char = '\x7d'

variable {literal text rest : List Char} {taken : List Char × List Char}

private theorem digits_append (ends : taken.2 ≠ [] ∨ Closes rest) (found : digits literal = some taken) :
    digits (literal ++ rest) = some (taken.1,taken.2 ++ rest) := by
  have whole : taken = (literal.takeWhile Char.isDigit,literal.dropWhile Char.isDigit) := by
    unfold digits at found
    split at found
    · cases found
    · next first more same =>
      cases found
      rw [same]
  have both : (literal ++ rest).takeWhile Char.isDigit = literal.takeWhile Char.isDigit ∧
      (literal ++ rest).dropWhile Char.isDigit = literal.dropWhile Char.isDigit ++ rest := by
    rw [whole] at ends
    clear found whole
    induction literal with
    | nil =>
      have closes := ends.resolve_left (fun none => none rfl)
      cases rest with
      | nil => exact ⟨rfl,rfl⟩
      | cons char rest =>
        have last : char.isDigit = false := by rcases closes char rfl with rfl | rfl | rfl <;> rfl
        exact ⟨takeWhile_cons_of_neg (by simp [last]),dropWhile_cons_of_neg (by simp [last])⟩
    | cons char literal ih =>
      cases digit : char.isDigit with
      | true =>
        rw [dropWhile_cons_of_pos digit] at ends
        simp only [cons_append,takeWhile_cons,dropWhile_cons,digit,if_true,(ih ends).1,(ih ends).2,and_self]
      | false => simp [digit]
  unfold digits at found ⊢
  rw [both.1,both.2]
  split at found
  · cases found
  · next first more same =>
    cases found
    rfl

private theorem whole_append (ends : taken.2 ≠ [] ∨ Closes rest) (found : whole literal = some taken) :
    whole (literal ++ rest) = some (taken.1,taken.2 ++ rest) := by
  unfold whole at found ⊢
  split at found
  · cases found
  · next plain =>
    rw [digits_append ends found]
    split
    · next zero =>
      simp only [Option.some.injEq,Prod.mk.injEq] at zero
      exact absurd (found.trans (congrArg (fun first => some (first,taken.2)) zero.1)) (plain _ _ _)
    · rfl

private theorem closes_head (closes : Closes rest) : fraction rest = some ([],rest) ∧ exponent rest = some ([],rest) := by
  cases rest with
  | nil => exact ⟨rfl,rfl⟩
  | cons char rest => rcases closes char rfl with rfl | rfl | rfl <;> exact ⟨rfl,rfl⟩

private theorem map_append (front : List Char → List Char) {parse : List Char → Option (List Char × List Char)}
    (step : ∀ {inner : List Char × List Char}, (inner.2 ≠ [] ∨ Closes rest) → parse literal = some inner →
      parse (literal ++ rest) = some (inner.1,inner.2 ++ rest)) (ends : taken.2 ≠ [] ∨ Closes rest)
    (found : (parse literal).map (fun read => (front read.1,read.2)) = some taken) :
    (parse (literal ++ rest)).map (fun read => (front read.1,read.2)) = some (taken.1,taken.2 ++ rest) := by
  obtain ⟨inner,read,rfl⟩ := map_eq_some_iff.mp found
  have innerEnds : inner.2 ≠ [] ∨ Closes rest := ends
  rw [step innerEnds read]
  rfl

private theorem fraction_append (ends : taken.2 ≠ [] ∨ Closes rest) (found : fraction literal = some taken) :
    fraction (literal ++ rest) = some (taken.1,taken.2 ++ rest) := by
  cases literal with
  | nil =>
    cases found
    exact (closes_head (ends.resolve_left (fun none => none rfl))).1
  | cons char literal =>
    unfold fraction at found
    split at found
    · next same =>
      cases same
      exact map_append _ digits_append ends found
    · next other =>
      cases found
      rw [cons_append,fraction]
      intro more same
      exact other literal (by rw [(List.cons.inj same).1])

private theorem power_append {mark : Char} (ends : taken.2 ≠ [] ∨ Closes rest) (found : power mark literal = some taken) :
    power mark (literal ++ rest) = some (taken.1,taken.2 ++ rest) := by
  unfold power at found
  split at found
  · exact map_append (fun read => mark :: '+' :: read) digits_append ends found
  · exact map_append (fun read => mark :: '-' :: read) digits_append ends found
  · next plus minus =>
    cases literal with
    | nil => cases found
    | cons char literal =>
      have later := map_append (fun read => mark::read) digits_append ends found
      rw [cons_append,power]
      · exact later
      · intro more same
        exact plus literal (by rw [(List.cons.inj same).1])
      · intro more same
        exact minus literal (by rw [(List.cons.inj same).1])

private theorem exponent_append (ends : taken.2 ≠ [] ∨ Closes rest) (found : exponent literal = some taken) :
    exponent (literal ++ rest) = some (taken.1,taken.2 ++ rest) := by
  cases literal with
  | nil =>
    cases found
    exact (closes_head (ends.resolve_left (fun none => none rfl))).2
  | cons char literal =>
    unfold exponent at found
    split at found
    · next same =>
      cases same
      exact power_append ends found
    · next same =>
      cases same
      exact power_append ends found
    · next small large =>
      cases found
      rw [cons_append,exponent]
      · intro more same
        exact small literal (by rw [(List.cons.inj same).1])
      · intro more same
        exact large literal (by rw [(List.cons.inj same).1])

private theorem magnitude_append (ends : taken.2 ≠ [] ∨ Closes rest) (found : magnitude literal = some taken) :
    magnitude (literal ++ rest) = some (taken.1,taken.2 ++ rest) := by
  obtain ⟨units,unitsRead,found⟩ := bind_eq_some_iff.mp found
  obtain ⟨part,partRead,found⟩ := bind_eq_some_iff.mp found
  obtain ⟨scale,scaleRead,found⟩ := bind_eq_some_iff.mp found
  cases found
  have scaleEnds : scale.2 ≠ [] ∨ Closes rest := ends
  have partEnds : part.2 ≠ [] ∨ Closes rest := by
    refine scaleEnds.imp_left (fun more none => ?_)
    rw [none] at scaleRead
    cases scaleRead
    exact more rfl
  have unitsEnds : units.2 ≠ [] ∨ Closes rest := by
    refine partEnds.imp_left (fun more none => ?_)
    rw [none] at partRead
    cases partRead
    exact more rfl
  unfold magnitude
  rw [whole_append unitsEnds unitsRead]
  simp only [bind_eq_bind,bind_some]
  rw [fraction_append partEnds partRead]
  simp only [bind_some]
  rw [exponent_append scaleEnds scaleRead]
  rfl

private theorem signed_append (ends : taken.2 ≠ [] ∨ Closes rest) (found : signed literal = some taken) :
    signed (literal ++ rest) = some (taken.1,taken.2 ++ rest) := by
  unfold signed at found
  split at found
  · exact map_append _ magnitude_append ends found
  · next positive =>
    cases literal with
    | nil => cases found
    | cons char literal =>
      rw [cons_append,signed]
      · exact magnitude_append ends found
      · intro more same
        exact positive literal (by rw [(List.cons.inj same).1])

variable (representable : List Char → Bool)

theorem number_append (ends : taken.2 ≠ [] ∨ Closes rest) (found : number representable literal = some taken) :
    number representable (literal ++ rest) = some (taken.1,taken.2 ++ rest) := by
  unfold number at found ⊢
  obtain ⟨read,readIs,found⟩ := bind_eq_some_iff.mp found
  split at found
  · next fits =>
    cases found
    rw [signed_append ends readIs]
    exact if_pos fits
  · cases found

private theorem hex4_append {unit : Nat} {later : List Char} (found : hex4 text = some (unit,later)) :
    hex4 (text ++ rest) = some (unit,later ++ rest) := by
  match text with
  | a::b::c::d::text =>
    rw [cons_append,cons_append,cons_append,cons_append]
    unfold hex4 at found
    obtain ⟨first,firstRead,found⟩ := bind_eq_some_iff.mp found
    obtain ⟨second,secondRead,found⟩ := bind_eq_some_iff.mp found
    obtain ⟨third,thirdRead,found⟩ := bind_eq_some_iff.mp found
    obtain ⟨fourth,fourthRead,found⟩ := bind_eq_some_iff.mp found
    cases found
    rw [hex4,firstRead,secondRead,thirdRead,fourthRead]
    rfl
  | [] | [_] | [_,_] | [_,_,_] => cases found

private theorem lowHalf_append {high : Nat} {read : Char × List Char} (found : lowHalf high text = some read) :
    lowHalf high (text ++ rest) = some (read.1,read.2 ++ rest) := by
  unfold lowHalf at found
  split at found
  · obtain ⟨low,lowRead,found⟩ := bind_eq_some_iff.mp found
    split at found
    · next half =>
      have same := Option.some.inj found
      subst same
      rw [cons_append,cons_append,lowHalf,hex4_append lowRead]
      simp only [bind_eq_bind,bind_some,if_pos half]
    · cases found
  · cases found

private theorem unicode_append {read : Char × List Char} (found : unicode text = some read) :
    unicode (text ++ rest) = some (read.1,read.2 ++ rest) := by
  unfold unicode at found ⊢
  obtain ⟨unit,unitRead,found⟩ := bind_eq_some_iff.mp found
  rw [hex4_append unitRead]
  simp only [bind_eq_bind,bind_some]
  split at found
  · cases found
  next low =>
  rw [if_neg low]
  split at found
  · next high =>
    rw [if_pos high]
    exact lowHalf_append found
  · next plain =>
    cases found
    rw [if_neg plain]

private theorem escape_append {read : Char × List Char} (found : escape text = some read) :
    escape (text ++ rest) = some (read.1,read.2 ++ rest) := by
  unfold escape at found
  split at found
  · cases found; rfl
  · cases found; rfl
  · cases found; rfl
  · cases found; rfl
  · cases found; rfl
  · cases found; rfl
  · cases found; rfl
  · cases found; rfl
  · exact unicode_append found
  · cases found

private theorem stringRest_append {fuel more : Nat} (enough : fuel ≤ more) {read : List Char × List Char}
    (found : stringRest fuel text = some read) : stringRest more (text ++ rest) = some (read.1,read.2 ++ rest) := by
  induction fuel generalizing text more read with
  | zero => cases found
  | succ fuel ih =>
    obtain ⟨more,rfl⟩ := Nat.exists_eq_succ_of_ne_zero (Nat.ne_of_gt (Nat.lt_of_lt_of_le (Nat.succ_pos fuel) enough))
    cases text with
    | nil => cases found
    | cons char text =>
      rw [cons_append]
      unfold stringRest at found ⊢
      split at found
      · next quote =>
        cases found
        rw [if_pos quote]
      next quote =>
      rw [if_neg quote]
      split at found
      · next slash =>
        obtain ⟨first,firstRead,found⟩ := bind_eq_some_iff.mp found
        obtain ⟨later,laterRead,found⟩ := bind_eq_some_iff.mp found
        cases found
        rw [if_pos slash,escape_append firstRead]
        simp only [bind_eq_bind,bind_some]
        rw [ih (Nat.le_of_succ_le_succ enough) laterRead]
        rfl
      next slash =>
      rw [if_neg slash]
      split at found
      · cases found
      next plain =>
      obtain ⟨later,laterRead,found⟩ := bind_eq_some_iff.mp found
      cases found
      rw [if_neg plain,ih (Nat.le_of_succ_le_succ enough) laterRead]
      rfl

private theorem string_append {read : List Char × List Char} (found : string text = some read) :
    string (text ++ rest) = some (read.1,read.2 ++ rest) :=
  stringRest_append (by rw [length_append]; omega) found

private theorem skip_append (more : skip text ≠ []) : skip (text ++ rest) = skip text ++ rest := by
  unfold skip at more ⊢
  induction text with
  | nil => exact absurd rfl more
  | cons char text ih =>
    rw [cons_append]
    cases blank : isBlank char with
    | true =>
      rw [dropWhile_cons_of_pos blank] at more ⊢
      rw [dropWhile_cons_of_pos blank]
      exact ih more
    | false =>
      have solid : ¬isBlank char = true := by simp [blank]
      rw [dropWhile_cons_of_neg solid,dropWhile_cons_of_neg solid]
      rfl

private theorem expect_append {word later : List Char} (found : expect word text = some later) :
    expect word (text ++ rest) = some (later ++ rest) := by
  induction word generalizing text with
  | nil =>
    cases found
    rfl
  | cons char word ih =>
    cases text with
    | nil => cases found
    | cons first text =>
      rw [cons_append]
      unfold expect at found ⊢
      split at found
      · next same =>
        rw [if_pos same]
        exact ih found
      · cases found

private structure Steady (item : List Char → Option (Value × List Char)) : Prop where
  more : ∀ {text rest read}, item text = some read → read.2 ≠ [] → item (text ++ rest) = some (read.1,read.2 ++ rest)
  solid : ∀ {text read}, item text = some read → skip text ≠ []

private theorem skip_some (rest : List Char) {first : Char} {more : List Char} (skipped : skip text = first::more) :
    text ≠ [] ∧ skip (text ++ rest) = first::(more ++ rest) := by
  have some' : skip text ≠ [] := by simp [skipped]
  refine ⟨?_,by rw [skip_append some',skipped]; rfl⟩
  rintro rfl
  exact some' rfl

variable {item : List Char → Option (Value × List Char)}

private theorem elements_append (steady : Steady item) {fuel more : Nat}
    (enough : fuel ≤ more) {read : List Value × List Char} (found : elements item fuel text = some read) :
    elements item more (text ++ rest) = some (read.1,read.2 ++ rest) := by
  induction fuel generalizing text more read with
  | zero => cases found
  | succ fuel ih =>
    obtain ⟨more,rfl⟩ := Nat.exists_eq_succ_of_ne_zero (Nat.ne_of_gt (Nat.lt_of_lt_of_le (Nat.succ_pos fuel) enough))
    unfold elements at found ⊢
    obtain ⟨first,firstRead,found⟩ := bind_eq_some_iff.mp found
    split at found
    · next skipped =>
      cases found
      obtain ⟨left,after⟩ := skip_some rest skipped
      rw [steady.more firstRead left]
      simp only [bind_eq_bind,bind_some,after]
    · next skipped =>
      obtain ⟨left,after⟩ := skip_some rest skipped
      obtain ⟨later,laterRead,found⟩ := bind_eq_some_iff.mp found
      cases found
      rw [steady.more firstRead left]
      simp only [bind_eq_bind,bind_some,after,ih (Nat.le_of_succ_le_succ enough) laterRead]
    · cases found

private theorem members_append (steady : Steady item) {fuel more : Nat}
    (enough : fuel ≤ more) {read : List (List Char × Value) × List Char} (found : members item fuel text = some read) :
    members item more (text ++ rest) = some (read.1,read.2 ++ rest) := by
  induction fuel generalizing text more read with
  | zero => cases found
  | succ fuel ih =>
    obtain ⟨more,rfl⟩ := Nat.exists_eq_succ_of_ne_zero (Nat.ne_of_gt (Nat.lt_of_lt_of_le (Nat.succ_pos fuel) enough))
    unfold members at found ⊢
    split at found
    · next quoted =>
      obtain ⟨key,keyRead,found⟩ := bind_eq_some_iff.mp found
      rw [(skip_some rest quoted).2]
      simp only [bind_eq_bind,string_append keyRead,bind_some]
      split at found
      · next colon =>
        obtain ⟨first,firstRead,found⟩ := bind_eq_some_iff.mp found
        rw [(skip_some rest colon).2]
        split at found
        · next skipped =>
          cases found
          obtain ⟨left,after⟩ := skip_some rest skipped
          simp only [steady.more firstRead left,bind_some,after]
        · next skipped =>
          obtain ⟨left,after⟩ := skip_some rest skipped
          obtain ⟨later,laterRead,found⟩ := bind_eq_some_iff.mp found
          cases found
          simp only [steady.more firstRead left,bind_some,after,ih (Nat.le_of_succ_le_succ enough) laterRead]
        · cases found
      · cases found
    · cases found

private theorem skip_other (rest : List Char) {bracket : Char} (solid : skip text ≠ [])
    (other : ∀ more, skip text = bracket::more → False) (more : List Char) (same : skip (text ++ rest) = bracket::more) : False := by
  rw [skip_append solid] at same
  cases skipped : skip text with
  | nil => exact solid skipped
  | cons first later =>
    rw [skipped,cons_append] at same
    exact other later (by rw [skipped,(List.cons.inj same).1])

private theorem array_append (steady : Steady item)
    {read : Value × List Char} (found : array item text = some read) : array item (text ++ rest) = some (read.1,read.2 ++ rest) := by
  unfold array at found
  split at found
  · next closed =>
    cases found
    rw [array,(skip_some rest closed).2]
    rfl
  · next open' =>
    obtain ⟨items,itemsRead,rfl⟩ := map_eq_some_iff.mp found
    have enough : text.length ≤ (text ++ rest).length := by rw [length_append]; omega
    have solid : skip text ≠ [] := by
      cases length : text.length with
      | zero =>
        rw [length] at itemsRead
        cases itemsRead
      | succ fuel =>
        rw [length,elements] at itemsRead
        obtain ⟨first,firstRead,_⟩ := bind_eq_some_iff.mp itemsRead
        exact steady.solid firstRead
    unfold array
    split
    · next more same => exact (skip_other rest solid open' more same).elim
    · rw [elements_append steady enough itemsRead]
      rfl

private theorem object_append (steady : Steady item)
    {read : Value × List Char} (found : object item text = some read) : object item (text ++ rest) = some (read.1,read.2 ++ rest) := by
  unfold object at found
  split at found
  · next closed =>
    cases found
    rw [object,(skip_some rest closed).2]
    rfl
  · next open' =>
    obtain ⟨fields,fieldsRead,rfl⟩ := map_eq_some_iff.mp found
    have enough : text.length ≤ (text ++ rest).length := by rw [length_append]; omega
    have solid : skip text ≠ [] := by
      intro none
      cases length : text.length with
      | zero =>
        rw [length] at fieldsRead
        cases fieldsRead
      | succ fuel =>
        rw [length,members,none] at fieldsRead
        cases fieldsRead
    unfold object
    split
    · next more same => exact (skip_other rest solid open' more same).elim
    · rw [members_append steady enough fieldsRead]
      rfl

private def Firm (item : List Char → Option (Value × List Char)) : Prop :=
  ∀ {text rest read}, item text = some read → (read.2 ≠ [] ∨ ∀ literal, read.1 ≠ .number literal) →
    item (text ++ rest) = some (read.1,read.2 ++ rest)

private theorem valueWith_append {item : Option (List Char → Option (Value × List Char))}
    (steady : ∀ inner, item = some inner → Steady inner) : Firm (valueWith representable item) := by
  intro text rest read found ends
  unfold valueWith at found ⊢
  split at found
  · cases found
  next first later skipped =>
  rw [(skip_some rest skipped).2]
  dsimp only
  split at found
  · next same =>
    obtain ⟨after,afterRead,rfl⟩ := map_eq_some_iff.mp found
    rw [if_pos same,expect_append afterRead]
    rfl
  next n =>
  rw [if_neg n]
  split at found
  · next same =>
    obtain ⟨after,afterRead,rfl⟩ := map_eq_some_iff.mp found
    rw [if_pos same,expect_append afterRead]
    rfl
  next t =>
  rw [if_neg t]
  split at found
  · next same =>
    obtain ⟨after,afterRead,rfl⟩ := map_eq_some_iff.mp found
    rw [if_pos same,expect_append afterRead]
    rfl
  next f =>
  rw [if_neg f]
  split at found
  · next same =>
    obtain ⟨text,textRead,rfl⟩ := map_eq_some_iff.mp found
    rw [if_pos same,string_append textRead]
    rfl
  next quote =>
  rw [if_neg quote]
  split at found
  · next same =>
    obtain ⟨inner,is,found⟩ := bind_eq_some_iff.mp found
    rw [if_pos same,is]
    exact array_append (steady inner is) found
  next bracket =>
  rw [if_neg bracket]
  split at found
  · next same =>
    obtain ⟨inner,is,found⟩ := bind_eq_some_iff.mp found
    rw [if_pos same,is]
    exact object_append (steady inner is) found
  next brace =>
  rw [if_neg brace]
  obtain ⟨taken,takenRead,rfl⟩ := map_eq_some_iff.mp found
  have left : taken.2 ≠ [] := ends.resolve_right (fun other => other _ rfl)
  have longer := number_append representable (.inl left : _ ∨ Closes rest) takenRead
  rw [cons_append] at longer
  rw [longer]
  rfl

private theorem valueWith_steady {item : Option (List Char → Option (Value × List Char))}
    (steady : ∀ inner, item = some inner → Steady inner) : Steady (valueWith representable item) := by
  constructor
  · intro text rest read found left
    exact valueWith_append representable steady found (.inl left)
  · intro text read found none
    unfold valueWith at found
    rw [none] at found
    cases found

private theorem value_steady (limit : Nat) : Steady (value representable limit) := by
  induction limit with
  | zero => exact valueWith_steady representable nofun
  | succ limit ih =>
    refine valueWith_steady representable ?_
    intro inner same
    cases same
    exact ih

theorem value_append {limit : Nat} {read : Value × List Char} (found : value representable limit text = some read)
    (ends : read.2 ≠ [] ∨ ∀ literal, read.1 ≠ .number literal) (rest : List Char) :
    value representable limit (text ++ rest) = some (read.1,read.2 ++ rest) := by
  cases limit with
  | zero => exact valueWith_append representable (fun inner none => by cases none) found ends
  | succ limit =>
    refine valueWith_append representable ?_ found ends
    intro inner same
    cases same
    exact value_steady representable limit

theorem read_append {fields : List (List Char × Value)} (found : read representable text = some (.object fields))
    (rest : List Char) : read representable (text ++ rest) = if rest.all isBlank then some (.object fields) else none := by
  unfold read at found ⊢
  obtain ⟨whole,wholeRead,found⟩ := bind_eq_some_iff.mp found
  split at found
  · next ended =>
    cases same : whole with
    | mk value after =>
      rw [same] at found ended wholeRead
      cases found
      rw [value_append representable wholeRead (.inr (fun _ other => by cases other)) rest]
      change (if skip (after ++ rest) = [] then some _ else none) = _
      have blank (text : List Char) : skip text = [] ↔ text.all isBlank = true := by
        induction text with
        | nil => exact ⟨fun _ => rfl,fun _ => rfl⟩
        | cons char text ih =>
          cases solid : isBlank char with
          | true =>
            rw [all_cons,solid,Bool.true_and,← ih,skip,dropWhile_cons_of_pos solid]
            rfl
          | false => simp [skip,solid]
      simp only [blank,all_append,(blank after).mp ended,Bool.true_and]
  · cases found

end Depsis.Foundation.Json

import Mathlib.Data.List.Lex
import Mathlib.Data.Char
import Mathlib.Order.Basic
import Mathlib.Order.RelClasses

/-! The order JavaScript compares strings in: by UTF-16 code unit, which differs
from the order of code points outside the basic plane.
-/
namespace Depsis.Foundation.JsString

open List Option

def units (char : Char) : List Nat :=
  if char.toNat < 0x10000 then [char.toNat]
  else [0xD800 + (char.toNat - 0x10000) / 0x400,0xDC00 + (char.toNat - 0x10000) % 0x400]

def encode (text : String) : List Nat := text.toList.flatMap units

def lt (first second : String) : Bool := decide (encode first < encode second)

/-- `Array.prototype.sort` on strings, without a comparator. -/
def sort (texts : List String) : List String :=
  texts.mergeSort (fun first second => decide (encode first ≤ encode second))

def isSpace (char : Char) : Bool :=
  char.toNat ∈ [0x09,0x0A,0x0B,0x0C,0x0D,0x20,0xA0,0x1680,0x2028,0x2029,0x202F,0x205F,0x3000,0xFEFF] ∨
    (0x2000 ≤ char.toNat ∧ char.toNat ≤ 0x200A)

private theorem not_surrogate (char : Char) :
    char.toNat < 0xD800 ∨ (0xE000 ≤ char.toNat ∧ char.toNat < 0x110000) := by
  rcases char.valid with low | ⟨high,top⟩
  · exact .inl low
  · exact .inr ⟨high,top⟩

private theorem units_append {first second : Char} {rest more : List Nat}
    (same : units first ++ rest = units second ++ more) : first = second ∧ rest = more := by
  have firstValid := not_surrogate first
  have secondValid := not_surrogate second
  have value : first.toNat = second.toNat ∧ rest = more := by
    unfold units at same
    split at same <;> split at same <;>
      simp only [cons_append,nil_append,List.cons.injEq] at same
    · exact same
    · omega
    · omega
    · exact ⟨by omega,same.2.2⟩
  exact ⟨Char.toNat_inj.mp value.1,value.2⟩

theorem encode_injective : Function.Injective encode := by
  intro first second same
  have chars (left right : List Char) (equal : left.flatMap units = right.flatMap units) : left = right := by
    induction left generalizing right with
    | nil =>
      cases right with
      | nil => rfl
      | cons char rest =>
        simp only [flatMap_nil,flatMap_cons,units] at equal
        split at equal <;> cases equal
    | cons char rest ih =>
      cases right with
      | nil =>
        simp only [flatMap_nil,flatMap_cons,units] at equal
        split at equal <;> cases equal
      | cons other more =>
        obtain ⟨rfl,tails⟩ := units_append equal
        rw [ih more tails]
  exact String.toList_inj.mp (chars _ _ same)

theorem sort_perm (texts : List String) : (sort texts).Perm texts := mergeSort_perm texts _

theorem sort_strict {texts : List String} (distinct : texts.Nodup) :
    (sort texts).Pairwise (fun first second => lt first second = true) := by
  have ordered : (sort texts).Pairwise (fun first second => encode first ≤ encode second) := by
    have sorted := @pairwise_mergeSort _ (fun first second => decide (encode first ≤ encode second))
      (fun first second third below above => by
        simp only [decide_eq_true_eq] at below above ⊢
        exact below.trans above)
      (fun first second => by simpa using le_total (encode first) (encode second)) texts
    simpa [sort] using sorted
  have apart := (sort_perm texts).nodup_iff.mpr distinct
  refine (ordered.and apart).imp (fun {first second} both => ?_)
  exact decide_eq_true (lt_of_le_of_ne both.1 (fun same => both.2 (encode_injective same)))

theorem not_lt_self (text : String) : lt text text = false := by simp [lt]

theorem lt_chain {first second third : String} (below : lt first second = true)
    (above : lt second third = true) : lt first third = true :=
  decide_eq_true ((of_decide_eq_true below).trans (of_decide_eq_true above))

theorem not_lt_back {first second : String} (below : lt first second = true) : lt second first = false :=
  decide_eq_false (not_lt_of_gt (of_decide_eq_true below))

def isLead (unit : Nat) : Bool := 0xD800 ≤ unit && unit ≤ 0xDBFF

def isTrail (unit : Nat) : Bool := 0xDC00 ≤ unit && unit ≤ 0xDFFF

def codePoints : List Nat → List Nat
  | [] => []
  | [unit] => [unit]
  | unit::next::rest =>
    if isLead unit && isTrail next then (0x10000 + (unit - 0xD800) * 0x400 + (next - 0xDC00))::codePoints rest
    else unit::codePoints (next::rest)

def pointUnits (point : Nat) : List Nat :=
  if point < 0x10000 then [point] else [0xD800 + (point - 0x10000) / 0x400,0xDC00 + (point - 0x10000) % 0x400]

def charOf (point : Nat) : Option Char := if isLead point || isTrail point then none else some (Char.ofNat point)

def isSpaceUnit (unit : Nat) : Bool :=
  unit ∈ [0x09,0x0A,0x0B,0x0C,0x0D,0x20,0xA0,0x1680,0x2028,0x2029,0x202F,0x205F,0x3000,0xFEFF] ∨
    (0x2000 ≤ unit ∧ unit ≤ 0x200A)

def trim (units : List Nat) : List Nat :=
  ((units.dropWhile isSpaceUnit).reverse.dropWhile isSpaceUnit).reverse

def text (units : List Nat) : Option (List Char) := (codePoints units).mapM charOf

theorem toNat_ofNat {point : Nat} (few : point < 0x110000) (lead : isLead point = false) (trail : isTrail point = false) :
    (Char.ofNat point).toNat = point := by
  have valid : point.isValidChar := by
    simp only [isLead,isTrail,Bool.and_eq_false_iff,decide_eq_false_iff_not] at lead trail
    unfold Nat.isValidChar
    omega
  unfold Char.ofNat
  rw [dif_pos valid]
  rfl

theorem codePoints_units (chars : List Char) (rest : List Nat) :
    codePoints (chars.flatMap units ++ rest) = chars.map Char.toNat ++ codePoints rest := by
  induction chars with
  | nil => rfl
  | cons char chars ih =>
    have valid := not_surrogate char
    rw [flatMap_cons,append_assoc,map_cons,cons_append,← ih]
    generalize chars.flatMap units ++ rest = more
    unfold units
    split
    · have lead : isLead char.toNat = false := by
        simp only [isLead,Bool.and_eq_false_iff,decide_eq_false_iff_not]
        omega
      cases more with
      | nil => rfl
      | cons next more =>
        change codePoints (char.toNat::next::more) = _
        rw [codePoints,lead,Bool.false_and,if_neg Bool.false_ne_true]
    · next high =>
      have lead : isLead (0xD800 + (char.toNat - 0x10000) / 0x400) = true := by
        simp only [isLead,Bool.and_eq_true,decide_eq_true_eq]
        omega
      have trail : isTrail (0xDC00 + (char.toNat - 0x10000) % 0x400) = true := by
        simp only [isTrail,Bool.and_eq_true,decide_eq_true_eq]
        omega
      have value : 0x10000 + (0xD800 + (char.toNat - 0x10000) / 0x400 - 0xD800) * 0x400 +
          (0xDC00 + (char.toNat - 0x10000) % 0x400 - 0xDC00) = char.toNat := by omega
      rw [cons_append,cons_append,nil_append,codePoints,lead,trail,Bool.and_self,if_pos rfl,value]

theorem charOf_toNat (char : Char) : charOf char.toNat = some char := by
  have valid := not_surrogate char
  have apart : (isLead char.toNat || isTrail char.toNat) = false := by
    simp only [isLead,isTrail,Bool.or_eq_false_iff,Bool.and_eq_false_iff,decide_eq_false_iff_not]
    omega
  rw [charOf,apart,if_neg Bool.false_ne_true,Char.ofNat_toNat]

theorem text_units (chars : List Char) : text (chars.flatMap units) = some chars := by
  have points := codePoints_units chars []
  rw [append_nil] at points
  rw [text,points,codePoints,append_nil]
  clear points
  induction chars with
  | nil => rfl
  | cons char chars ih =>
    rw [map_cons,mapM_cons,charOf_toNat,ih]
    rfl

theorem units_lt (chars : List Char) : ∀ unit ∈ chars.flatMap units, unit < 0x10000 := by
  intro unit mem
  obtain ⟨char,_,mem⟩ := mem_flatMap.mp mem
  have valid := char.valid
  unfold units at mem
  split at mem
  · rw [mem_singleton.mp mem]
    assumption
  · have top : char.toNat < 0x110000 := by
      rcases valid with low | ⟨_,high⟩
      · exact Nat.lt_trans low (by decide)
      · exact high
    simp only [mem_cons,not_mem_nil,or_false] at mem
    omega

def Apart : List Nat → Prop
  | [] => True
  | first::rest => (∀ second ∈ rest.head?, ¬(isLead first = true ∧ isTrail second = true)) ∧ Apart rest

theorem codePoints_apart (units : List Nat) : Apart (codePoints units) := by
  induction units using codePoints.induct with
  | case1 => trivial
  | case2 unit => exact ⟨fun _ mem => absurd mem (not_mem_none _),trivial⟩
  | case3 unit next rest pair ih =>
    rw [codePoints,if_pos pair]
    refine ⟨?_,ih⟩
    intro point _ half
    simp only [isLead,Bool.and_eq_true,decide_eq_true_eq] at half
    omega
  | case4 unit next rest single ih =>
    rw [codePoints,if_neg single]
    refine ⟨?_,ih⟩
    intro point mem half
    have first : point = next ∨ 0x10000 ≤ point := by
      cases rest with
      | nil =>
        simp only [codePoints,head?_cons,mem_some_iff] at mem
        exact .inl mem.symm
      | cons third rest =>
        rw [codePoints] at mem
        split at mem
        · simp only [head?_cons,mem_some_iff] at mem
          omega
        · simp only [head?_cons,mem_some_iff] at mem
          exact .inl mem.symm
    rcases first with rfl | high
    · exact single (Bool.and_eq_true_iff.mpr half)
    · have trail := half.2
      simp only [isTrail,Bool.and_eq_true,decide_eq_true_eq] at trail
      omega

theorem codePoints_lt {units : List Nat} (few : ∀ unit ∈ units, unit < 0x10000) :
    ∀ point ∈ codePoints units, point < 0x110000 := by
  induction units using codePoints.induct with
  | case1 => simp [codePoints]
  | case2 unit =>
    intro point mem
    simp only [codePoints,mem_singleton] at mem
    have := few unit (mem_singleton_self _)
    omega
  | case3 unit next rest pair ih =>
    rw [codePoints,if_pos pair]
    simp only [isLead,isTrail,Bool.and_eq_true,decide_eq_true_eq] at pair
    intro point mem
    rcases mem_cons.mp mem with head | later
    · omega
    · exact ih (fun unit mem => few unit (mem_cons_of_mem _ (mem_cons_of_mem _ mem))) point later
  | case4 unit next rest single ih =>
    rw [codePoints,if_neg single]
    intro point mem
    rcases mem_cons.mp mem with head | later
    · have := few unit mem_cons_self
      omega
    · exact ih (fun unit mem => few unit (mem_cons_of_mem _ mem)) point later

def parts (limit : Nat) (chars : List Char) : Bool := ((chars.flatMap units)[limit - 1]?).any isLead

private theorem units_cases (char : Char) :
    (units char = [char.toNat] ∧ isLead char.toNat = false) ∨
      ∃ lead trail, units char = [lead,trail] ∧ isLead lead = true ∧ isTrail trail = true ∧ isLead trail = false := by
  have valid := not_surrogate char
  unfold units
  split
  · refine .inl ⟨rfl,?_⟩
    simp only [isLead,Bool.and_eq_false_iff,decide_eq_false_iff_not]
    omega
  · refine .inr ⟨_,_,rfl,?_,?_,?_⟩
    · simp only [isLead,Bool.and_eq_true,decide_eq_true_eq]
      omega
    · simp only [isTrail,Bool.and_eq_true,decide_eq_true_eq]
      omega
    · simp only [isLead,Bool.and_eq_false_iff,decide_eq_false_iff_not]
      omega

theorem take_units (chars : List Char) (count : Nat) :
    (parts (count + 1) chars = true ∧
      ∃ kept lead, isLead lead = true ∧ kept <+: chars ∧ (chars.flatMap units).take (count + 1) = kept.flatMap units ++ [lead]) ∨
    (parts (count + 1) chars = false ∧
      ∃ kept, kept <+: chars ∧ (chars.flatMap units).take (count + 1) = kept.flatMap units) := by
  unfold parts
  rw [Nat.add_sub_cancel]
  induction chars generalizing count with
  | nil => exact .inr ⟨rfl,[],prefix_refl _,rfl⟩
  | cons char chars ih =>
    rw [flatMap_cons]
    rcases units_cases char with ⟨one,plain⟩ | ⟨lead,trail,two,first,second,other⟩
    · rw [one,cons_append,nil_append,take_succ_cons]
      cases count with
      | zero => exact .inr ⟨plain,[char],⟨chars,rfl⟩,by simp [one]⟩
      | succ count =>
        rw [getElem?_cons_succ]
        rcases ih count with ⟨half,kept,lead,is,front,taken⟩ | ⟨whole,kept,front,taken⟩
        · exact .inl ⟨half,char::kept,lead,is,(prefix_cons_inj char).mpr front,by simp [taken,one]⟩
        · exact .inr ⟨whole,char::kept,(prefix_cons_inj char).mpr front,by simp [taken,one]⟩
    · rw [two,cons_append,cons_append,nil_append,take_succ_cons]
      cases count with
      | zero => exact .inl ⟨first,[],lead,first,List.nil_prefix,rfl⟩
      | succ count =>
        rw [getElem?_cons_succ,take_succ_cons]
        cases count with
        | zero => exact .inr ⟨other,[char],⟨chars,rfl⟩,by simp [two]⟩
        | succ count =>
          rw [getElem?_cons_succ]
          rcases ih count with ⟨half,kept,lead,is,front,taken⟩ | ⟨whole,kept,front,taken⟩
          · exact .inl ⟨half,char::kept,lead,is,(prefix_cons_inj char).mpr front,by simp [taken,two]⟩
          · exact .inr ⟨whole,char::kept,(prefix_cons_inj char).mpr front,by simp [taken,two]⟩

theorem text_lead (chars : List Char) {lead : Nat} (half : isLead lead = true) : text (chars.flatMap units ++ [lead]) = none := by
  rw [text,codePoints_units]
  induction chars with
  | nil =>
    change [lead].mapM charOf = none
    rw [mapM_cons,charOf,half,Bool.true_or,if_pos rfl]
    rfl
  | cons char chars ih =>
    rw [map_cons,cons_append,mapM_cons,charOf_toNat,ih]
    rfl

def trimChars (chars : List Char) : List Char := ((chars.dropWhile isSpace).reverse.dropWhile isSpace).reverse

private theorem dropWhile_units (write : Char → List Nat) (rest : List Nat)
    (spaces : ∀ char, isSpace char = true → ∃ unit, write char = [unit] ∧ isSpaceUnit unit = true)
    (others : ∀ char, isSpace char = false → ∃ unit more, write char = unit::more ∧ isSpaceUnit unit = false)
    (stops : ∀ unit ∈ rest.head?, isSpaceUnit unit = false) (chars : List Char) :
    (chars.flatMap write ++ rest).dropWhile isSpaceUnit = (chars.dropWhile isSpace).flatMap write ++ rest := by
  induction chars with
  | nil =>
    cases rest with
    | nil => rfl
    | cons unit rest => exact dropWhile_cons_of_neg (by simp [stops unit rfl])
  | cons char chars ih =>
    cases space : isSpace char with
    | true =>
      obtain ⟨unit,one,blank⟩ := spaces char space
      rw [flatMap_cons,one,dropWhile_cons_of_pos space,← ih]
      exact dropWhile_cons_of_pos blank
    | false =>
      obtain ⟨unit,more,first,solid⟩ := others char space
      rw [flatMap_cons,first,dropWhile_cons_of_neg (by simp [space]),flatMap_cons,first]
      exact dropWhile_cons_of_neg (by simp [solid])

private theorem space_small {char : Char} (space : isSpace char = true) : char.toNat < 0x10000 := by
  simp only [isSpace,Bool.decide_or,Bool.or_eq_true,decide_eq_true_eq,mem_cons,not_mem_nil,or_false] at space
  omega

private theorem half_solid {unit : Nat} (half : isLead unit = true ∨ isTrail unit = true) : isSpaceUnit unit = false := by
  have high : 0xD800 ≤ unit ∧ unit ≤ 0xDFFF := by
    simp only [isLead,isTrail,Bool.and_eq_true,decide_eq_true_eq] at half
    omega
  simp only [isSpaceUnit,Bool.decide_or,Bool.or_eq_false_iff,decide_eq_false_iff_not,mem_cons,not_mem_nil,or_false]
  omega

private theorem units_space {char : Char} (space : isSpace char = true) : units char = [char.toNat] :=
  if_pos (space_small space)

section

variable (chars : List Char)
include chars

private theorem trim_front (rest : List Nat) (stops : ∀ unit ∈ rest.head?, isSpaceUnit unit = false) :
    (chars.flatMap units ++ rest).dropWhile isSpaceUnit = (chars.dropWhile isSpace).flatMap units ++ rest := by
  refine dropWhile_units units rest ?_ ?_ stops chars
  · intro char space
    exact ⟨char.toNat,units_space space,space⟩
  · intro char solid
    rcases units_cases char with ⟨one,_⟩ | ⟨lead,trail,two,first,_⟩
    · exact ⟨char.toNat,[],one,solid⟩
    · exact ⟨lead,[trail],two,half_solid (.inl first)⟩

private theorem trim_back :
    ((chars.flatMap units).reverse.dropWhile isSpaceUnit).reverse = ((chars.reverse.dropWhile isSpace).reverse).flatMap units := by
  have back (chars : List Char) : (chars.flatMap units).reverse = chars.reverse.flatMap (fun char => (units char).reverse) := by
    induction chars with
    | nil => rfl
    | cons char chars ih => rw [flatMap_cons,reverse_append,ih,reverse_cons,flatMap_append,
        flatMap_singleton]
  have dropped := dropWhile_units (fun char => (units char).reverse) [] (by
      intro char space
      exact ⟨char.toNat,by rw [units_space space]; rfl,space⟩) (by
      intro char solid
      rcases units_cases char with ⟨one,_⟩ | ⟨lead,trail,two,_,second,_⟩
      · exact ⟨char.toNat,[],by rw [one]; rfl,solid⟩
      · exact ⟨trail,[lead],by rw [two]; rfl,half_solid (.inr second)⟩) (fun _ mem => absurd mem (not_mem_none _))
      chars.reverse
  rw [append_nil,append_nil] at dropped
  rw [back,dropped,← reverse_inj,reverse_reverse,back,reverse_reverse]

theorem trim_units : trim (chars.flatMap units) = (trimChars chars).flatMap units := by
  have front := trim_front chars [] (fun _ mem => absurd mem (not_mem_none _))
  rw [append_nil,append_nil] at front
  rw [trim,front,trim_back]
  rfl

theorem trim_lead {lead : Nat} (half : isLead lead = true) :
    trim (chars.flatMap units ++ [lead]) = (chars.dropWhile isSpace).flatMap units ++ [lead] := by
  have solid := half_solid (.inl half)
  have front := trim_front chars [lead] (by
    intro unit mem
    cases mem
    exact solid)
  rw [trim,front,reverse_append,reverse_singleton,singleton_append,
    dropWhile_cons_of_neg (by simp [solid]),reverse_cons,reverse_reverse]

theorem trimChars_sublist : (trimChars chars).Sublist chars := by
  have back := (dropWhile_sublist (l := (chars.dropWhile isSpace).reverse) isSpace).reverse
  rw [reverse_reverse] at back
  exact back.trans (dropWhile_sublist isSpace)

end

end Depsis.Foundation.JsString

import Depsis.Foundation.Decimal
import Depsis.Foundation.JsString

/-! A download, whole or in part: the `Range` and `If-Range` of the request against the size the agent has
measured, and what is answered and asked of the agent.
-/
namespace Depsis.Files.Ranges

open Depsis.Foundation Option

def MAX_SAFE_INTEGER : Nat := 9007199254740991

/-- What the agent has measured; a number of JSON that is read exactly. -/
structure Opened where
  size : Nat
  exact : size ≤ MAX_SAFE_INTEGER

inductive Wanted where
  | whole
  | unsatisfiable
  | part (start end' : Nat)

/-- `/^bytes=(\d*)-(\d*)$/` -/
def groups (header : List Char) : Option (List Char × List Char) :=
  (Text.stripPrefix "bytes=".toList header).bind (fun rest =>
    match rest.dropWhile Char.isDigit with
    | '-'::rawEnd => if rawEnd.all Char.isDigit then some (rest.takeWhile Char.isDigit,rawEnd) else none
    | _ => none)

/-- An empty group is no number. A numeral above the safe integers is rounded to a number above them, which is not
safe and above every size. -/
def parseRange (header : Option (List Char)) (size : Nat) : Wanted :=
  match header.bind (fun header => groups (JsString.trimChars header)) with
  | none => .whole
  | some (rawStart,rawEnd) =>
    match Decimal.digits rawStart,Decimal.digits rawEnd with
    | none,none => .whole
    | none,some suffix =>
      if MAX_SAFE_INTEGER < suffix ∨ suffix = 0 ∨ size = 0 then .unsatisfiable else .part (size - suffix) (size - 1)
    | some start,number =>
      let end' := (number.map (min · (size - 1))).getD (size - 1)
      if MAX_SAFE_INTEGER < start ∨ size ≤ start ∨ end' < start then .unsatisfiable else .part start end'

/-- The status and headers of an answer, and the offset and length the agent is asked for. -/
structure Answer where
  status : Nat
  contentRange : Option (List Char)
  contentLength : Option Nat
  asked : Option (Nat × Nat)

def partly (start end' size : Nat) : Answer where
  status := 206
  contentRange := some ("bytes ".toList ++ Decimal.render start ++ '-' :: Decimal.render end' ++ '/' :: Decimal.render size)
  contentLength := some (end' - start + 1)
  asked := some (start,end' - start + 1)

def wholly (size : Nat) : Answer := ⟨200,none,some size,some (0,size)⟩

def nothing (size : Nat) : Answer := ⟨416,some ("bytes */".toList ++ Decimal.render size),none,none⟩

/-- `content`, once the entry may be read and the agent has opened it. -/
def content (etag : List Char) (opened : Opened) (range ifRange : Option (List Char)) : Answer :=
  match if ifRange = none ∨ ifRange = some etag then parseRange range opened.size else .whole with
  | .unsatisfiable => nothing opened.size
  | .whole => wholly opened.size
  | .part start end' => partly start end' opened.size

/-- A single byte range: `first-last`, `first-` or `-count`. -/
def Spelled (text : List Char) (asked : Option Nat × Option Nat) : Prop :=
  asked ≠ (none,none) ∧ ∃ first last : List Char, text = "bytes=".toList ++ (first ++ '-' :: last) ∧
    first.all Char.isDigit = true ∧ last.all Char.isDigit = true ∧ asked = (Decimal.digits first,Decimal.digits last)

/-- The first and the last byte a range selects of so many. -/
def selected (size : Nat) : Option Nat × Option Nat → Option (Nat × Nat)
  | (some first,some last) => if first ≤ last ∧ first < size then some (first,min last (size - 1)) else none
  | (some first,none) => if first < size then some (first,size - 1) else none
  | (none,some count) => if 0 < count ∧ 0 < size then some (size - count,size - 1) else none
  | (none,none) => none

/-- The range a request asks for, if it asks for one. -/
def Requested (etag : List Char) (range ifRange : Option (List Char)) (asked : Option Nat × Option Nat) : Prop :=
  (ifRange = none ∨ ifRange = some etag) ∧ ∃ header ∈ range, Spelled (JsString.trimChars header) asked

def answerTo (size : Nat) : Option (Nat × Nat) → Answer
  | some (first,last) => partly first last size
  | none => nothing size

/-- What the rules make of a request. -/
structure Follows (etag : List Char) (opened : Opened) (range ifRange : Option (List Char)) : Prop where
  asked : ∀ asked, Requested etag range ifRange asked →
    content etag opened range ifRange = answerTo opened.size (selected opened.size asked)
  others : (∀ asked, ¬Requested etag range ifRange asked) → content etag opened range ifRange = wholly opened.size
  within : ∀ offset length, (content etag opened range ifRange).asked = some (offset,length) →
    offset + length ≤ opened.size ∧ (content etag opened range ifRange).contentLength = some length

/-- A suffix of more bytes than a number counts exactly, of a file that has some. -/
def Overlong (size : Nat) (asked : Option Nat × Option Nat) : Prop :=
  0 < size ∧ asked.1 = none ∧ ∃ count ∈ asked.2, MAX_SAFE_INTEGER < count

variable {etag : List Char} {opened : Opened} {range ifRange : Option (List Char)} {header first last : List Char}
  {asked : Option Nat × Option Nat} {size : Nat}

theorem groups_some : groups header = some (first,last) ↔
    header = "bytes=".toList ++ (first ++ '-' :: last) ∧ first.all Char.isDigit = true ∧ last.all Char.isDigit = true := by
  unfold groups
  constructor
  · intro found
    obtain ⟨rest,front,found⟩ := bind_eq_some_iff.mp found
    have both := @List.takeWhile_append_dropWhile Char Char.isDigit rest
    split at found
    next rawEnd behind =>
      split at found <;> cases found
      next numeric =>
        rw [behind] at both
        exact ⟨(Text.stripPrefix_some.mp front).trans (congrArg _ both.symm),List.all_takeWhile,numeric⟩
    next => cases found
  · intro written
    obtain ⟨rfl,numeric,numericEnd⟩ := written
    have cut := List.all_eq_true.mp numeric
    rw [Text.stripPrefix_some.mpr rfl,bind_some,List.dropWhile_append_of_pos cut,
      List.takeWhile_append_of_pos cut]
    simp [numericEnd]

theorem selected_inside {both : Nat × Nat} (selects : selected size asked = some both) : both.1 ≤ both.2 ∧ both.2 < size := by
  unfold selected at selects
  split at selects
  any_goals
    obtain ⟨inside,is⟩ := ite_none_right_eq_some.mp selects
    cases is
    dsimp only
    omega
  cases selects

def Wanted.of : Option (Nat × Nat) → Wanted
  | some (first,last) => .part first last
  | none => .unsatisfiable

/-- What is made of the two groups. -/
theorem parseRange_groups (exact' : size ≤ MAX_SAFE_INTEGER) (found : groups (JsString.trimChars header) = some (first,last))
    (some' : (Decimal.digits first,Decimal.digits last) ≠ (none,none)) :
    (Overlong size (Decimal.digits first,Decimal.digits last) → parseRange (some header) size = .unsatisfiable) ∧
      (¬Overlong size (Decimal.digits first,Decimal.digits last) →
        parseRange (some header) size = Wanted.of (selected size (Decimal.digits first,Decimal.digits last))) := by
  unfold parseRange
  rw [bind_some,found]
  dsimp only
  cases low : Decimal.digits first with
  | none =>
    cases high : Decimal.digits last with
    | none => exact absurd (by rw [low,high]) some'
    | some count =>
      constructor
      · intro overlong
        obtain ⟨-,-,_,is,long⟩ := overlong
        cases is
        exact if_pos (.inl long)
      · intro fits
        dsimp only [selected]
        by_cases inside : 0 < count ∧ 0 < size
        · have short : ¬MAX_SAFE_INTEGER < count := fun long => fits ⟨inside.2,rfl,count,rfl,long⟩
          rw [if_neg (by omega),if_pos inside]
          rfl
        · rw [if_pos (by omega),if_neg inside]
          rfl
  | some start =>
    refine ⟨fun overlong => (nomatch overlong.2.1),fun _ => ?_⟩
    cases high : Decimal.digits last with
    | none =>
      dsimp only [selected,map_none,getD_none]
      split_ifs <;> first | rfl | omega
    | some count =>
      dsimp only [selected,map_some,getD_some]
      split_ifs <;> first | rfl | omega

theorem parseRange_other (none : ∀ header ∈ range, ∀ asked, ¬Spelled (JsString.trimChars header) asked) (size : Nat) :
    parseRange range size = .whole := by
  cases range with
  | none => rfl
  | some header =>
    unfold parseRange
    rw [bind_some]
    cases found : groups (JsString.trimChars header) with
    | none => rfl
    | some parts =>
      obtain ⟨written,numeric,numericEnd⟩ := groups_some.mp found
      have blank : (Decimal.digits parts.1,Decimal.digits parts.2) = (Option.none,Option.none) :=
        by_contra (fun some => none header rfl _ ⟨some,_,_,written,numeric,numericEnd,rfl⟩)
      obtain ⟨low,high⟩ := Prod.mk.inj blank
      dsimp only
      rw [low,high]

/-- Downloads follow the range rules just where no suffix of a file that is not empty is too long for an exact number. -/
theorem content_exact (etag : List Char) (opened : Opened) (range ifRange : Option (List Char)) :
    Follows etag opened range ifRange ↔ ∀ asked, Requested etag range ifRange asked → ¬Overlong opened.size asked := by
  have reads : ∀ asked, Requested etag range ifRange asked →
      (Overlong opened.size asked → content etag opened range ifRange = nothing opened.size) ∧
        (¬Overlong opened.size asked → content etag opened range ifRange = answerTo opened.size (selected opened.size asked)) := by
    intro asked requested
    obtain ⟨applies,header,rfl,some',first,last,written,numeric,numericEnd,rfl⟩ := requested
    obtain ⟨long,fits⟩ := parseRange_groups opened.exact (groups_some.mpr ⟨written,numeric,numericEnd⟩) some'
    unfold content
    rw [if_pos applies]
    refine ⟨fun overlong => by rw [long overlong],fun short => ?_⟩
    rw [fits short]
    cases selected opened.size (Decimal.digits first,Decimal.digits last) <;> rfl
  constructor
  · intro follows asked requested overlong
    have answer := follows.asked asked requested
    rw [(reads asked requested).1 overlong] at answer
    obtain ⟨some',none,count,is,long⟩ := overlong
    obtain ⟨low,high⟩ := asked
    cases none
    cases is
    rw [selected,if_pos ⟨by omega,some'⟩] at answer
    have no : (416 : Nat) = 206 := congrArg Answer.status answer
    omega
  · intro fits
    have others : (∀ asked, ¬Requested etag range ifRange asked) → content etag opened range ifRange = wholly opened.size := by
      intro none
      unfold content
      split_ifs with applies
      · rw [parseRange_other (fun header is asked spelled => none asked ⟨applies,header,is,spelled⟩)]
      · rfl
    refine ⟨fun asked requested => (reads asked requested).2 (fits asked requested),others,fun offset length is => ?_⟩
    by_cases some : ∃ asked, Requested etag range ifRange asked
    · obtain ⟨asked,requested⟩ := some
      rw [(reads asked requested).2 (fits asked requested)] at is ⊢
      cases selects : selected opened.size asked with
      | none => rw [selects] at is; cases is
      | some both =>
        have inside := selected_inside selects
        rw [selects] at is
        cases is
        exact ⟨by omega,rfl⟩
    · rw [others (not_exists.mp some)] at is ⊢
      cases is
      exact ⟨(Nat.zero_add _).le,rfl⟩

/-- The last bytes of a file, of which far too many are asked for. -/
theorem suffix_refused : ¬Follows [] ⟨1,by decide⟩ (some "bytes=-9007199254740992".toList) none := by
  intro follows
  have answer := follows.asked (none,some 9007199254740992)
    ⟨.inl rfl,_,rfl,nofun,[],"9007199254740992".toList,by decide,by decide,by decide,by decide⟩
  exact absurd (congrArg Answer.status answer) (by decide)

end Depsis.Files.Ranges

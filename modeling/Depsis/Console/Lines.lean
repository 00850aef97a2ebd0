import Depsis.Foundation.Utf8

/-! The lines an operator types, pulled out of the bytes for the audit: keystrokes up to a
terminator, however they were cut into messages.
-/
namespace Depsis.Console.Lines
open Depsis.Foundation.Utf8 List

def AUDIT_LINE_LIMIT : Nat := 8192

def TRUNCATION_MARKER : List Char := ['…','[','t','r','u','n','c','a','t','e','d',']']

def RAW_LIMIT : Nat := AUDIT_LINE_LIMIT - (encode TRUNCATION_MARKER).length

structure LineExtractor where
  buf : List UInt8
  overLimit : Bool
  lastWasCr : Bool

def LineExtractor.new : LineExtractor := ⟨[],false,false⟩

def isControl (char : Char) : Bool := char.toNat < 0x20 || (0x7f ≤ char.toNat && char.toNat ≤ 0x9f)

def visible (text : List Char) : List Char := text.filter (fun char => char = '\t' || !isControl char)

def cutBack (text : List Char) : Nat → Nat
  | 0 => 0
  | cut + 1 => if Begins ((encode text).drop (cut + 1)) then cut + 1 else cutBack text cut

def truncate (text : List Char) (cut : Nat) : List Char := decode ((encode text).take cut)

def render (raw : List UInt8) (hitRawLimit : Bool) : Option (List Char) :=
  let shown := visible (decode raw)
  let long := decide (RAW_LIMIT < (encode shown).length)
  let text := if long then truncate shown (cutBack shown RAW_LIMIT) else shown
  let marked := if hitRawLimit || long then text ++ TRUNCATION_MARKER else text
  if marked = [] then none else some marked

def step (extractor : LineExtractor) (byte : UInt8) : LineExtractor × Option (List Char) :=
  if byte = 10 ∧ extractor.lastWasCr then ({ extractor with lastWasCr := false },none)
  else if byte = 13 ∨ byte = 10 then (⟨[],false,byte = 13⟩,render extractor.buf extractor.overLimit)
  else if extractor.overLimit then ({ extractor with lastWasCr := false },none)
  else if RAW_LIMIT ≤ extractor.buf.length then ({ extractor with lastWasCr := false, overLimit := true },none)
  else ({ extractor with lastWasCr := false, buf := extractor.buf ++ [byte] },none)

def feed (extractor : LineExtractor) : List UInt8 → LineExtractor × List (List Char)
  | [] => (extractor,[])
  | byte::rest =>
    let taken := step extractor byte
    let later := feed taken.1 rest
    (later.1,taken.2.toList ++ later.2)

def feedAll (extractor : LineExtractor) : List (List UInt8) → LineExtractor × List (List Char)
  | [] => (extractor,[])
  | message::rest =>
    let taken := feed extractor message
    let later := feedAll taken.1 rest
    (later.1,taken.2 ++ later.2)

def unified : List UInt8 → List UInt8
  | [] => []
  | 13::10::rest => 10::unified rest
  | 13::rest => 10::unified rest
  | byte::rest => byte::unified rest

def runs (stream : List UInt8) : List (List UInt8) := ((unified stream).splitOn 10).dropLast

def lineOf (run : List UInt8) : Option (List Char) := render (run.take RAW_LIMIT) (RAW_LIMIT < run.length)

def within (run : List UInt8) (lastWasCr : Bool) : LineExtractor :=
  ⟨run.take RAW_LIMIT,RAW_LIMIT < run.length,lastWasCr⟩

theorem step_plain {byte : UInt8} (run : List UInt8) (cr : Bool) (plain : byte ≠ 13 ∧ byte ≠ 10) :
    step (within run cr) byte = (within (run ++ [byte]) false,none) := by
  rw [step,if_neg (fun feed => plain.2 feed.1),if_neg (fun ends => ends.elim plain.1 plain.2)]
  by_cases beyond : RAW_LIMIT < run.length
  · have later : RAW_LIMIT < (run ++ [byte]).length := by rw [length_append]; omega
    rw [within,within,take_append_of_le_length (Nat.le_of_lt beyond),decide_eq_true beyond,decide_eq_true later]
    rfl
  · have stands : within run cr = ⟨run,false,cr⟩ := by
      rw [within,take_of_length_le (Nat.le_of_not_lt beyond),decide_eq_false beyond]
    rw [stands,if_neg Bool.false_ne_true]
    by_cases full : RAW_LIMIT ≤ run.length
    · have later : RAW_LIMIT < (run ++ [byte]).length := by rw [length_append,length_singleton]; omega
      rw [if_pos full,within,take_append_of_le_length full,take_of_length_le (Nat.le_of_not_lt beyond),
        decide_eq_true later]
    · have fits : (run ++ [byte]).length ≤ RAW_LIMIT := by rw [length_append,length_singleton]; omega
      rw [if_neg full,within,take_of_length_le fits,decide_eq_false (Nat.not_lt.mpr fits)]

theorem step_ended {byte : UInt8} (run : List UInt8) (cr : Bool) (ends : byte = 13 ∨ byte = 10 ∧ cr = false) :
    step (within run cr) byte = (within [] (byte = 13),lineOf run) := by
  rcases ends with rfl | ⟨rfl,rfl⟩
  · rfl
  · rfl

theorem step_second (run : List UInt8) : step (within run true) 10 = (within run false,none) := rfl

def afterCr : List UInt8 → List UInt8
  | 10::rest => rest
  | bytes => bytes

theorem unified_cr (bytes : List UInt8) : unified (13::bytes) = 10::unified (afterCr bytes) := by
  unfold afterCr
  split
  · rfl
  · next other =>
    rw [unified]
    exact other

theorem unified_plain {byte : UInt8} (other : byte ≠ 13) (bytes : List UInt8) : unified (byte::bytes) = byte::unified bytes := by
  rw [unified]
  · exact fun _ same => absurd same other
  · exact fun same => absurd same other

theorem afterCr_other {byte : UInt8} (other : byte ≠ 10) (bytes : List UInt8) : afterCr (byte::bytes) = byte::bytes := by
  rw [afterCr]
  exact fun _ same => other (List.cons.inj same).1

private theorem ended_runs {run : List UInt8} (clean : 10 ∉ run) (later : List UInt8) :
    ((run ++ 10::later).splitOn 10).dropLast = run::(later.splitOn 10).dropLast := by
  rw [splitOn_append_cons_self_of_not_mem clean,dropLast_cons_of_ne_nil (splitOn_ne_nil 10 later)]

theorem feed_within (bytes : List UInt8) {run : List UInt8} {cr : Bool} (clean : 10 ∉ run) (fresh : cr = true → run = []) :
    (∃ run' cr', (feed (within run cr) bytes).1 = within run' cr') ∧ (feed (within run cr) bytes).2 =
      ((run ++ unified (if cr then afterCr bytes else bytes)).splitOn 10).dropLast.filterMap lineOf := by
  induction bytes generalizing run cr with
  | nil =>
    have none : unified (if cr then afterCr [] else []) = [] := by cases cr <;> rfl
    refine ⟨⟨run,cr,rfl⟩,?_⟩
    rw [none,append_nil,splitOn_eq_singleton clean]
    rfl
  | cons byte rest ih =>
    by_cases carriage : byte = 13
    · subst carriage
      obtain ⟨state,lines⟩ := @ih [] true not_mem_nil (fun _ => rfl)
      have seen : (if cr then afterCr (13::rest) else 13::rest) = 13::rest := by
        rw [afterCr_other (by decide),ite_self]
      simp only [feed,step_ended run cr (.inl rfl),decide_true] at state lines ⊢
      refine ⟨state,?_⟩
      rw [lines,seen,unified_cr,ended_runs clean,filterMap_cons]
      cases lineOf run <;> rfl
    by_cases newline : byte = 10
    · subst newline
      obtain ⟨state,lines⟩ := @ih [] false not_mem_nil nofun
      cases cr with
      | false =>
        simp only [feed,step_ended run false (.inr ⟨rfl,rfl⟩)] at state lines ⊢
        refine ⟨state,?_⟩
        change _ ++ (feed (within [] false) rest).2 = _
        rw [lines,if_neg Bool.false_ne_true,if_neg Bool.false_ne_true,unified_plain (by decide),ended_runs clean,
          filterMap_cons]
        cases lineOf run <;> rfl
      | true =>
        have empty := fresh rfl
        subst empty
        simp only [feed,step_second] at state lines ⊢
        exact ⟨state,lines⟩
    · have seen : (if cr then afterCr (byte::rest) else byte::rest) = byte::rest := by
        rw [afterCr_other newline,ite_self]
      obtain ⟨state,lines⟩ := @ih (run ++ [byte]) false
        (fun member => (mem_append.mp member).elim clean (fun last => newline (mem_singleton.mp last).symm))
        nofun
      simp only [feed,step_plain run cr ⟨carriage,newline⟩]
      refine ⟨state,?_⟩
      rw [seen,unified_plain carriage]
      simpa using lines

theorem feed_append (extractor : LineExtractor) (front back : List UInt8) :
    feed extractor (front ++ back) =
      ((feed (feed extractor front).1 back).1,(feed extractor front).2 ++ (feed (feed extractor front).1 back).2) := by
  induction front generalizing extractor with
  | nil => rfl
  | cons byte rest ih => simp only [cons_append,feed,ih,append_assoc]

theorem feedAll_eq (extractor : LineExtractor) (messages : List (List UInt8)) :
    feedAll extractor messages = feed extractor messages.flatten := by
  induction messages generalizing extractor with
  | nil => rfl
  | cons message rest ih => simp only [feedAll,flatten_cons,feed_append,ih]

theorem marker_size : RAW_LIMIT + (encode TRUNCATION_MARKER).length = AUDIT_LINE_LIMIT := by decide +kernel

theorem marker_plain : ∀ char ∈ TRUNCATION_MARKER, isControl char = false := by
  have all : TRUNCATION_MARKER.all (fun char => !isControl char) = true := by decide
  intro char member
  simpa using all_eq_true.mp all char member

theorem cutBack_cuts (text : List Char) (cut : Nat) : cutBack text cut ≤ cut ∧ Begins ((encode text).drop (cutBack text cut)) := by
  induction cut with
  | zero => exact ⟨Nat.le_refl _,begins_encode text⟩
  | succ cut ih =>
    rw [cutBack]
    split
    · next begins => exact ⟨Nat.le_refl _,begins⟩
    · exact ⟨Nat.le_succ_of_le ih.1,ih.2⟩

theorem truncate_cutBack (text : List Char) (cut : Nat) : truncate text (cutBack text cut) <+: text ∧
    (encode (truncate text (cutBack text cut))).length ≤ cut := by
  obtain ⟨less,begins⟩ := cutBack_cuts text cut
  obtain ⟨former,latter,whole,front,-⟩ := encode_split (take_append_drop (cutBack text cut) (encode text)).symm begins
  have same : truncate text (cutBack text cut) = former := by rw [truncate,front,decode_encode]
  rw [same,← front]
  exact ⟨⟨latter,whole.symm⟩,Nat.le_trans (length_take_le _ _) less⟩

theorem shown_text (raw : List UInt8) : ∃ text, text <+: visible (decode raw) ∧ (encode text).length ≤ RAW_LIMIT ∧
    ∀ hit, render raw hit = if hit || decide (RAW_LIMIT < (encode (visible (decode raw))).length) then some (text ++ TRUNCATION_MARKER)
      else if visible (decode raw) = [] then none else some (visible (decode raw)) := by
  have marked (text : List Char) : text ++ TRUNCATION_MARKER ≠ [] := by
    intro empty
    cases (append_eq_nil_iff.mp empty).2
  unfold render
  dsimp only
  by_cases long : RAW_LIMIT < (encode (visible (decode raw))).length
  · obtain ⟨beginning,short⟩ := truncate_cutBack (visible (decode raw)) RAW_LIMIT
    refine ⟨_,beginning,short,fun hit => ?_⟩
    rw [decide_eq_true long,Bool.or_true,if_pos rfl,if_pos rfl,if_pos rfl,if_neg (marked _)]
  · refine ⟨_,prefix_refl _,Nat.le_of_not_lt long,fun hit => ?_⟩
    rw [decide_eq_false long,Bool.or_false,if_neg Bool.false_ne_true]
    cases hit
    · rfl
    · rw [if_pos rfl,if_pos rfl,if_neg (marked _)]

theorem visible_plain {text : List Char} : ∀ char ∈ visible text, isControl char = true → char = '\t' := by
  intro char member control
  have kept := (mem_filter.mp member).2
  rw [control] at kept
  simpa using kept

/-- The lines of a stream: the same however it is cut, one for each run that shows something or is
longer than what is buffered, in order, and every one fit for the audit. -/
structure Extracted (stream : List UInt8) : Prop where
  cuts : ∀ messages, messages.flatten = stream → (feedAll .new messages).2 = (runs stream).filterMap lineOf
  bounded : ∀ messages, messages.flatten = stream → (feedAll .new messages).1.buf.length ≤ RAW_LIMIT
  silent : ∀ run ∈ runs stream, lineOf run = none ↔ run.length ≤ RAW_LIMIT ∧ visible (decode run) = []
  whole : ∀ run ∈ runs stream, run.length ≤ RAW_LIMIT → (encode (visible (decode run))).length ≤ RAW_LIMIT →
    visible (decode run) ≠ [] → lineOf run = some (visible (decode run))
  marked : ∀ run ∈ runs stream, RAW_LIMIT < run.length ∨ RAW_LIMIT < (encode (visible (decode run))).length →
    ∃ text, text <+: visible (decode (run.take RAW_LIMIT)) ∧ lineOf run = some (text ++ TRUNCATION_MARKER)
  fits : ∀ run ∈ runs stream, ∀ line, lineOf run = some line →
    (encode line).length ≤ AUDIT_LINE_LIMIT ∧ ∀ char ∈ line, isControl char = true → char = '\t'

theorem lines_extracted (stream : List UInt8) : Extracted stream := by
  obtain ⟨⟨run',cr',state⟩,lines⟩ := @feed_within stream [] false not_mem_nil nofun
  refine ⟨?_,?_,?_,?_,?_,?_⟩
  · rintro messages rfl
    rw [feedAll_eq]
    exact lines
  · rintro messages rfl
    rw [feedAll_eq]
    have here : (feed .new messages.flatten).1 = within run' cr' := state
    rw [here]
    exact length_take_le _ _
  · intro run _
    obtain ⟨text,-,-,shown⟩ := shown_text (run.take RAW_LIMIT)
    rw [lineOf,shown]
    by_cases beyond : RAW_LIMIT < run.length
    · rw [decide_eq_true beyond,Bool.true_or,if_pos rfl]
      constructor
      · nofun
      · intro short
        exact absurd beyond (Nat.not_lt.mpr short.1)
    · rw [take_of_length_le (Nat.le_of_not_lt beyond),decide_eq_false beyond,Bool.false_or]
      split
      · next long =>
        constructor
        · nofun
        · intro empty
          rw [empty.2] at long
          cases long
      · split
        · next empty => exact ⟨fun _ => ⟨Nat.le_of_not_lt beyond,empty⟩,fun _ => rfl⟩
        · next filled =>
          constructor
          · nofun
          · intro empty
            exact absurd empty.2 filled
  · intro run _ short fits filled
    obtain ⟨text,-,-,shown⟩ := shown_text (run.take RAW_LIMIT)
    rw [lineOf,shown,take_of_length_le short,decide_eq_false (Nat.not_lt.mpr short),decide_eq_false (Nat.not_lt.mpr fits),
      if_neg (by decide),if_neg filled]
  · intro run _ long
    obtain ⟨text,beginning,-,shown⟩ := shown_text (run.take RAW_LIMIT)
    refine ⟨text,beginning,?_⟩
    rw [lineOf,shown,if_pos]
    rw [Bool.or_eq_true,decide_eq_true_eq,decide_eq_true_eq]
    rcases Nat.lt_or_ge RAW_LIMIT run.length with beyond | short
    · exact .inl beyond
    · rw [take_of_length_le short]
      exact long
  · intro run _ line same
    obtain ⟨text,beginning,short,shown⟩ := shown_text (run.take RAW_LIMIT)
    have plain := @visible_plain (decode (run.take RAW_LIMIT))
    rw [lineOf,shown] at same
    split at same
    · cases same
      constructor
      · rw [encode_append,length_append,← marker_size]
        exact Nat.add_le_add_right short _
      · intro char member control
        rcases mem_append.mp member with typed | added
        · exact plain char (beginning.subset typed) control
        · rw [marker_plain char added] at control
          cases control
    · next fits =>
      split at same
      · cases same
      · cases same
        refine ⟨?_,plain⟩
        rw [Bool.or_eq_true,decide_eq_true_eq,decide_eq_true_eq,not_or] at fits
        rw [← marker_size]
        omega

end Depsis.Console.Lines

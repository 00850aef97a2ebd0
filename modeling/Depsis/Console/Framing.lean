import Depsis.Console.LineReader
import Depsis.Foundation.JsonWritten

/-! Keystrokes on their way to the console: encoded, written on a line, read from the stream,
parsed, and decoded to the bytes they were.
-/
namespace Depsis.Console.Framing
open Depsis.Foundation Depsis.Foundation.Streams Depsis.Foundation.Json Base64 Protocol LineReader List

def name (text : String) : List Nat := text.toList.flatMap JsString.units

def inputLine (bytes : List UInt8) : List Char :=
  stringify (.object [(name "t",.string (name "in")),(name "d",.string ((base64Encode bytes).flatMap JsString.units))])

private theorem encodeChunk_known (chunk : List UInt8) : ∀ char ∈ encodeChunk chunk, char ∈ ALPHABET ∨ char = '=' := by
  have known (index : Nat) : symbol index ∈ ALPHABET := by
    unfold symbol
    rw [getD_eq_getElem?_getD]
    cases found : ALPHABET[index]? with
    | none => decide
    | some char => exact mem_of_getElem? found
  intro char mem
  simp only [encodeChunk,mem_cons,not_mem_nil,or_false] at mem
  rcases mem with rfl | rfl | rfl | rfl
  · exact .inl (known _)
  · exact .inl (known _)
  all_goals
    split
    · exact .inl (known _)
    · exact .inr rfl

theorem base64_known (bytes : List UInt8) : ∀ char ∈ base64Encode bytes, char ∈ ALPHABET ∨ char = '=' := by
  intro char mem
  obtain ⟨chunk,_,own⟩ := mem_flatMap.mp mem
  exact encodeChunk_known chunk char own

theorem base64_length (bytes : List UInt8) : (base64Encode bytes).length = 4 * ((bytes.length + 2) / 3) := by
  induction bytes using chunks3.induct with
  | case1 a b c rest ih =>
    change (encodeChunk [a,b,c] ++ base64Encode rest).length = _
    rw [length_append,ih]
    change 4 + _ = 4 * ((rest.length + 1 + 1 + 1 + 2) / 3)
    omega
  | case2 => rfl
  | case3 rest more some' =>
    rcases rest with _ | ⟨a,_ | ⟨b,_ | ⟨c,rest⟩⟩⟩
    · exact absurd rfl some'
    · simp [base64Encode,chunks3,encodeChunk]
    · simp [base64Encode,chunks3,encodeChunk]
    · exact absurd rfl (more a b c rest)

private theorem known_plain {char : Char} (known : char ∈ ALPHABET ∨ char = '=') :
    escaped char.toNat = [char] ∧ char ≠ '\n' ∧ (String.utf8EncodeChar char).length = 1 := by
  have each : (ALPHABET ++ ['=']).all (fun char => decide (escaped char.toNat = [char] ∧ char ≠ '\n' ∧
      (String.utf8EncodeChar char).length = 1)) = true := by decide +kernel
  have mem : char ∈ ALPHABET ++ ['='] := known.elim (mem_append_left _) (fun same => mem_append_right _ (by simp [same]))
  exact of_decide_eq_true (all_eq_true.mp each char mem)

private theorem escaped_known {chars : List Char} (known : ∀ char ∈ chars, char ∈ ALPHABET ∨ char = '=') :
    (JsString.codePoints (chars.flatMap JsString.units)).flatMap escaped = chars := by
  have points := JsString.codePoints_units chars []
  rw [append_nil] at points
  rw [points,JsString.codePoints,append_nil]
  clear points
  induction chars with
  | nil => rfl
  | cons char chars ih =>
    obtain ⟨first,later⟩ := forall_mem_cons.mp known
    rw [map_cons,flatMap_cons,ih later,(known_plain first).1]
    rfl

def opening : List Char := ['\x7b','"','t','"',':','"','i','n','"',',','"','d','"',':','"']

theorem inputLine_eq (bytes : List UInt8) : inputLine bytes = opening ++ base64Encode bytes ++ ['"','\x7d'] := by
  have t : quote (name "t") = ['"','t','"'] := by decide +kernel
  have input : quote (name "in") = ['"','i','n','"'] := by decide +kernel
  have d : quote (name "d") = ['"','d','"'] := by decide +kernel
  unfold inputLine
  rw [stringify,stringifyFields,stringifyFields,stringify,stringify,t,input,d,quote,escaped_known (base64_known bytes)]
  simp [opening]

private theorem encode_length {chars : List Char} (known : ∀ char ∈ chars, char ∈ ALPHABET ∨ char = '=') :
    (Utf8.encode chars).length = chars.length := by
  induction chars with
  | nil => rfl
  | cons char chars ih =>
    obtain ⟨first,later⟩ := forall_mem_cons.mp known
    rw [Utf8.encode_cons,length_append,(known_plain first).2.2,ih later,length_cons]
    omega

theorem inputLine_length (bytes : List UInt8) : (Utf8.encode (inputLine bytes)).length = 17 + 4 * ((bytes.length + 2) / 3) := by
  have front : (Utf8.encode opening).length = 15 := by decide +kernel
  have back : (Utf8.encode ['"','\x7d']).length = 2 := by decide +kernel
  rw [inputLine_eq,Utf8.encode_append,Utf8.encode_append,length_append,length_append,front,back,
    encode_length (base64_known bytes),base64_length]
  omega

private theorem inputLine_ends (bytes : List UInt8) : ∃ front, inputLine bytes = front ++ ['\x7d'] :=
  ⟨opening ++ base64Encode bytes ++ ['"'],by rw [inputLine_eq]; simp⟩

theorem inputLine_oneLine {bytes : List UInt8} (short : (Utf8.encode (inputLine bytes)).length ≤ MAX_LINE_BYTES) :
    OneLine (inputLine bytes) := by
  refine ⟨?_,?_,short⟩
  · rw [inputLine_eq]
    intro mem
    rcases mem_append.mp mem with mem | mem
    · rcases mem_append.mp mem with mem | mem
      · exact absurd mem (by decide)
      · exact (known_plain (base64_known bytes _ mem)).2.1 rfl
    · exact absurd mem (by decide)
  · obtain ⟨front,same⟩ := inputLine_ends bytes
    rw [same,Text.trimEnd,reverse_append,reverse_singleton,singleton_append,
      dropWhile_cons_of_neg (by decide),reverse_cons,reverse_reverse]

variable (representable : List Char → Bool) (explain : List Char → String)

theorem parse_inputLine {bytes : List UInt8} (short : (Utf8.encode (inputLine bytes)).length ≤ MAX_LINE_BYTES) :
    parse representable explain (inputLine bytes) =
      if MAX_INPUT_BYTES < bytes.length then .error (.inputTooLarge bytes.length) else .ok (.input bytes) := by
  have untrimmed : trimReturns (inputLine bytes) = inputLine bytes := by
    obtain ⟨front,same⟩ := inputLine_ends bytes
    rw [same,trimReturns,reverse_append,reverse_singleton,singleton_append,
      dropWhile_cons_of_neg (by decide),reverse_cons,reverse_reverse]
  have sound : Json.Sound representable (.object [(name "t",.string (name "in")),(name "d",.string ((base64Encode bytes).flatMap JsString.units))]) :=
    
    ⟨JsString.units_lt _,JsString.units_lt _,JsString.units_lt _,JsString.units_lt _,trivial⟩
  have got : read representable (inputLine bytes) = some (.object [("t".toList,.string "in".toList),("d".toList,.string (base64Encode bytes))]) := by
    refine (read_stringify representable sound).trans ?_
    simp only [within,depth,fieldsDepth,Nat.max_zero,ofJs,ofFields,name,JsString.text_units,Option.bind_eq_bind,Option.bind_some,
      Option.map_some]
    exact if_pos (by decide)
  have meant : deserialize (.object [("t".toList,.string "in".toList),("d".toList,.string (base64Encode bytes))]) = some (.in' (base64Encode bytes)) := rfl
  unfold parse
  rw [if_neg (Nat.not_lt.mpr short),untrimmed,got,Option.bind_some,meant]
  unfold validate
  dsimp only
  rw [decode_encode]

structure Framed : Prop where
  decoded : ∀ bytes, base64Decode (base64Encode bytes) = some bytes
  accepted : ∀ text, (base64Decode text).isSome = true ↔ WellFormed text
  canonical : ∀ text bytes, base64Decode text = some bytes →
    (text = [] ∧ base64Encode bytes = []) ∨ ∃ front last pads, last < 64 ∧ pads ≤ 2 ∧
      text = front ++ symbol last::List.replicate pads '=' ∧
      base64Encode bytes = front ++ symbol (last / spare pads * spare pads)::List.replicate pads '='
  lines : ∀ (texts : List (List Char)) (wire : Wire), (∀ text ∈ texts, OneLine text) → InTime wire →
    received wire.inbound = written texts →
      calls (texts.length + 1) [] wire = texts.map (fun text => .ok (.line text)) ++ [.ok .eof]
  inputs : ∀ (inputs : List (List UInt8)) (wire : Wire),
    (∀ bytes ∈ inputs, (Utf8.encode (inputLine bytes)).length ≤ MAX_LINE_BYTES) → InTime wire →
    received wire.inbound = written (inputs.map inputLine) →
      calls (inputs.length + 1) [] wire = inputs.map (fun bytes => .ok (.line (inputLine bytes))) ++ [.ok .eof]
  parsed : ∀ bytes, (Utf8.encode (inputLine bytes)).length ≤ MAX_LINE_BYTES → bytes.length ≤ MAX_INPUT_BYTES →
    parse representable explain (inputLine bytes) = .ok (.input bytes)
  refused : ∀ bytes, (Utf8.encode (inputLine bytes)).length ≤ MAX_LINE_BYTES → MAX_INPUT_BYTES < bytes.length →
    parse representable explain (inputLine bytes) = .error (.inputTooLarge bytes.length)

/-- The codec and the framing lose nothing: what is parsed from a line within the limits is what was typed. -/
theorem framing_faithful : Framed representable explain := by
  refine ⟨decode_encode,decode_isSome,fun text bytes => encode_decode,?_,?_,?_,?_⟩
  · intro texts wire each inTime stream
    exact calls_written texts each [] wire inTime stream
  · intro inputs wire each inTime stream
    have lines := calls_written (inputs.map inputLine) (fun text mem => by
      obtain ⟨bytes,own,rfl⟩ := mem_map.mp mem
      exact inputLine_oneLine (each bytes own)) [] wire inTime stream
    rw [length_map,map_map] at lines
    exact lines
  · intro bytes short few
    rw [parse_inputLine representable explain short,if_neg (Nat.not_lt.mpr few)]
  · intro bytes short many
    rw [parse_inputLine representable explain short,if_pos many]

/-- A line may be short enough for more bytes than an input may have. -/
theorem long_input_refused :
    ¬∀ bytes, (Utf8.encode (inputLine bytes)).length ≤ MAX_LINE_BYTES →
      parse (fun _ => true) (fun _ => "") (inputLine bytes) = .ok (.input bytes) := by
  intro every
  have long : (List.replicate 65537 (0 : UInt8)).length = 65537 := length_replicate
  have short : (Utf8.encode (inputLine (List.replicate 65537 0))).length ≤ MAX_LINE_BYTES := by
    rw [inputLine_length,long]
    decide
  have parsed := every (List.replicate 65537 0) short
  rw [parse_inputLine _ _ short,long,if_pos (by decide)] at parsed
  cases parsed

end Depsis.Console.Framing

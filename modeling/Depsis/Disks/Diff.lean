import Depsis.Foundation.Text
import Depsis.Foundation.Utf8

/-! Reading `zfs diff -H -F` (`services/system-agent/src/diff.rs`), and the writer the
module describes: one change a line, fields between tabs, and every byte a separator
could be confused with as a backslash and three octal digits.
-/
namespace Depsis.Disks.Diff

open Depsis.Foundation Depsis.Foundation.Utf8 List

def MAX_DIFF : Nat := 5000

inductive DiffChange where
  | added
  | modified
  | removed
  | renamed

inductive DiffKind where
  | file
  | directory
  | other

structure DiffEntry where
  change : DiffChange
  kind : DiffKind
  path : String
  oldPath : Option String

inductive DiffError where
  | fewFields (line : List Char)
  | unknownMark (mark : List Char)
  | secondPathMissing (line : List Char)
  | fourthField (line : List Char)
  | pathNotUtf8 (path : List Char)
  | oldPathNotUtf8 (path : List Char)

def octal (digit : UInt8) : Bool := 48 ≤ digit && digit ≤ 55

def valueOf (first second third : UInt8) : Nat :=
  ((first - 48).toNat * 8 + (second - 48).toNat) * 8 + (third - 48).toNat

/-- The loop of `decode_path`. A backslash without three octal digits stands for itself. -/
def decodeBytes : List UInt8 → Option (List UInt8)
  | [] => some []
  | 92::first::second::third::rest =>
    if octal first && octal second && octal third then
      if valueOf first second third < 256 then
        (decodeBytes rest).map (UInt8.ofNat (valueOf first second third)::·)
      else none
    else (decodeBytes (first::second::third::rest)).map (92::·)
  | byte::rest => (decodeBytes rest).map (byte::·)

def fromUtf8 (bytes : List UInt8) : Option String := String.fromUTF8? ⟨bytes.toArray⟩

def decodePath (escaped : List Char) : Option String := (decodeBytes (encode escaped)).bind fromUtf8

def changeOf (mark : List Char) : Except DiffError DiffChange :=
  if mark = ['+'] then .ok .added
  else if mark = ['-'] then .ok .removed
  else if mark = ['M'] then .ok .modified
  else if mark = ['R'] then .ok .renamed
  else .error (.unknownMark mark)

def kindOf (mark : List Char) : DiffKind :=
  if mark = ['/'] then .directory else if mark = ['F'] then .file else .other

def pathsOf (line : List Char) (change : DiffChange) (first : List Char) (second : Option (List Char)) :
    Except DiffError (List Char × Option (List Char)) :=
  match change,second with
  | .renamed,some newPath => .ok (newPath,some first)
  | .renamed,none => .error (.secondPathMissing line)
  | _,some _ => .error (.fourthField line)
  | _,none => .ok (first,none)

def parseLine (line : List Char) : Except DiffError DiffEntry :=
  match line.splitOn '\t' with
  | mark::kind::first::rest => do
    let change ← changeOf mark
    let (path,oldPath) ← pathsOf line change first rest.head?
    match decodePath path with
    | none => .error (.pathNotUtf8 path)
    | some decoded =>
      match oldPath with
      | none => .ok ⟨change,kindOf kind,decoded,none⟩
      | some raw =>
        match decodePath raw with
        | none => .error (.oldPathNotUtf8 raw)
        | some old => .ok ⟨change,kindOf kind,decoded,some old⟩
  | _ => .error (.fewFields line)

def parseLines : List (List Char) → List DiffEntry → Except DiffError (List DiffEntry × Bool)
  | [],entries => .ok (entries,false)
  | line::rest,entries =>
    if line = [] then parseLines rest entries
    else if MAX_DIFF ≤ entries.length then .ok (entries,true)
    else match parseLine line with
    | .error raised => .error raised
    | .ok entry => parseLines rest (entries ++ [entry])

def parse (out : List Char) : Except DiffError (List DiffEntry × Bool) := parseLines (Text.lines out) []

section Writer

def plain (byte : UInt8) : Bool := 32 < byte && byte ≠ 92 && byte < 127

def digit (value : Nat) : Char := Char.ofNat (48 + value)

def escapeByte (byte : UInt8) : List Char :=
  if plain byte then [Char.ofNat byte.toNat]
  else [ '\\',digit (byte.toNat / 64),digit (byte.toNat / 8 % 8),digit (byte.toNat % 8)]

def escape (bytes : List UInt8) : List Char := bytes.flatMap escapeByte

def bytesOf (path : String) : List UInt8 := path.toUTF8.data.toList

inductive KindMark where
  | blockDevice
  | characterDevice
  | directory
  | door
  | pipe
  | symbolicLink
  | eventPort
  | socket
  | regular

def KindMark.char : KindMark → Char
  | .blockDevice => 'B'
  | .characterDevice => 'C'
  | .directory => '/'
  | .door => '>'
  | .pipe => '|'
  | .symbolicLink => '@'
  | .eventPort => 'P'
  | .socket => '='
  | .regular => 'F'

def KindMark.kind : KindMark → DiffKind
  | .directory => .directory
  | .regular => .file
  | _ => .other

def DiffChange.char : DiffChange → Char
  | .added => '+'
  | .removed => '-'
  | .modified => 'M'
  | .renamed => 'R'

structure Change where
  change : DiffChange
  mark : KindMark
  path : String
  oldPath : Option String
  paths : oldPath.isSome = true ↔ change = .renamed

def Change.entry (change : Change) : DiffEntry := ⟨change.change,change.mark.kind,change.path,change.oldPath⟩

def Change.render (change : Change) : List Char :=
  change.change.char:: '\t'::change.mark.char:: '\t'::match change.oldPath with
    | none => escape (bytesOf change.path)
    | some old => escape (bytesOf old) ++ '\t'::escape (bytesOf change.path)

def written (changes : List Change) : List Char := changes.flatMap (fun change => change.render ++ ['\n'])

end Writer

section Escapes

private theorem byte_ofNat (byte : UInt8) : ∃ value : Fin 256, byte = UInt8.ofNat value.val :=
  ⟨⟨byte.toNat,byte.toNat_lt⟩,UInt8.ofNat_toNat.symm⟩

def escapedBytes (byte : UInt8) : List UInt8 :=
  if plain byte then [byte]
  else [92,UInt8.ofNat (48 + byte.toNat / 64),UInt8.ofNat (48 + byte.toNat / 8 % 8),UInt8.ofNat (48 + byte.toNat % 8)]

theorem encode_escapeByte (byte : UInt8) : encode (escapeByte byte) = escapedBytes byte := by
  obtain ⟨value,rfl⟩ := byte_ofNat byte
  revert value
  decide +kernel

theorem escapeByte_visible (byte : UInt8) : (escapeByte byte).all (fun char => 32 < char.toNat && char.toNat < 127) = true := by
  obtain ⟨value,rfl⟩ := byte_ofNat byte
  revert value
  decide +kernel

theorem visible {bytes : List UInt8} {char : Char} (member : char ∈ escape bytes) : 32 < char.toNat := by
  obtain ⟨byte,-,inside⟩ := mem_flatMap.mp member
  have seen := all_eq_true.mp (escapeByte_visible byte) char inside
  exact of_decide_eq_true (Bool.and_eq_true_iff.mp seen).1

private theorem digits_octal (byte : UInt8) : plain byte = true ∨
    (octal (UInt8.ofNat (48 + byte.toNat / 64)) && octal (UInt8.ofNat (48 + byte.toNat / 8 % 8)) &&
      octal (UInt8.ofNat (48 + byte.toNat % 8))) = true ∧
    valueOf (UInt8.ofNat (48 + byte.toNat / 64)) (UInt8.ofNat (48 + byte.toNat / 8 % 8))
      (UInt8.ofNat (48 + byte.toNat % 8)) = byte.toNat := by
  obtain ⟨value,rfl⟩ := byte_ofNat byte
  revert value
  decide +kernel

theorem decodeBytes_escaped (byte : UInt8) (rest : List UInt8) :
    decodeBytes (escapedBytes byte ++ rest) = (decodeBytes rest).map (byte::·) := by
  unfold escapedBytes
  by_cases self : plain byte = true
  · rw [if_pos self,singleton_append]
    have other : byte ≠ 92 := by
      rintro rfl
      exact absurd self (by decide)
    rw [decodeBytes]
    intro first second third later same
    exact absurd same other
  · rw [if_neg self]
    obtain ⟨digits,value⟩ := (digits_octal byte).resolve_left self
    change decodeBytes (92::_::_::_::rest) = _
    rw [decodeBytes,if_pos digits,value,if_pos byte.toNat_lt,UInt8.ofNat_toNat]

theorem decodeBytes_escape (bytes : List UInt8) : decodeBytes (encode (escape bytes)) = some bytes := by
  induction bytes with
  | nil => rfl
  | cons byte rest ih =>
    rw [escape,flatMap_cons,encode_append,encode_escapeByte,decodeBytes_escaped]
    change (decodeBytes (encode (escape rest))).map _ = _
    rw [ih]
    rfl

theorem decodePath_escape (bytes : List UInt8) : decodePath (escape bytes) = fromUtf8 bytes := by
  rw [decodePath,decodeBytes_escape]
  rfl

theorem fromUtf8_some {bytes : List UInt8} {text : String} (read : fromUtf8 bytes = some text) : bytesOf text = bytes := by
  unfold fromUtf8 String.fromUTF8? at read
  split at read
  · cases read
    rfl
  · cases read

theorem fromUtf8_bytesOf (path : String) : fromUtf8 (bytesOf path) = some path := by
  unfold fromUtf8 bytesOf
  rw [Array.toArray_toList]
  exact dif_pos path.isValidUTF8

end Escapes

section Lines

private theorem separated {text : List Char} {char : Char} (low : char.toNat ≤ 32)
    (seen : ∀ other ∈ text, 32 < other.toNat) : char ∉ text :=
  fun member => absurd (seen char member) (Nat.not_lt.mpr low)

private theorem escape_fields (bytes : List UInt8) : '\t' ∉ escape bytes := separated (by decide) (fun _ => visible)

private theorem mark_fields (change : DiffChange) : '\t' ∉ [change.char] := by cases change <;> decide

private theorem kind_fields (mark : KindMark) : '\t' ∉ [mark.char] := by cases mark <;> decide

theorem changeOf_char (change : DiffChange) : changeOf [change.char] = .ok change := by cases change <;> rfl

theorem kindOf_char (mark : KindMark) : kindOf [mark.char] = mark.kind := by cases mark <;> rfl

theorem render_fields (change : Change) : change.render.splitOn '\t' =
    [change.change.char]::[change.mark.char]::match change.oldPath with
      | none => [escape (bytesOf change.path)]
      | some old => [escape (bytesOf old),escape (bytesOf change.path)] := by
  unfold Change.render
  have marks (rest : List Char) : (change.change.char:: '\t'::change.mark.char:: '\t'::rest).splitOn '\t' =
      [change.change.char]::[change.mark.char]::rest.splitOn '\t' := by
    have first := splitOn_append_cons_self_of_not_mem (mark_fields change.change)
      (change.mark.char:: '\t'::rest)
    have second := splitOn_append_cons_self_of_not_mem (kind_fields change.mark) rest
    rw [singleton_append] at first second
    rw [first,second]
  have last (bytes : List UInt8) : (escape bytes).splitOn '\t' = [escape bytes] :=
    splitOn_eq_singleton (escape_fields bytes)
  rw [marks]
  cases change.oldPath with
  | none => rw [last]
  | some old => rw [splitOn_append_cons_self_of_not_mem (escape_fields (bytesOf old)),last]

theorem parseLine_render (change : Change) : parseLine change.render = .ok change.entry := by
  unfold parseLine
  rw [render_fields]
  obtain ⟨kind,mark,path,oldPath,paths⟩ := change
  have read (path : String) : decodePath (escape (bytesOf path)) = some path := by
    rw [decodePath_escape,fromUtf8_bytesOf]
  cases oldPath with
  | none =>
    have single : kind ≠ .renamed := fun same => by cases paths.mpr same
    have only (line first : List Char) : pathsOf line kind first none = .ok (first,none) := by
      cases kind with
      | renamed => exact absurd rfl single
      | added => rfl
      | modified => rfl
      | removed => rfl
    simp only [changeOf_char,head?_nil,only,kindOf_char,read,bind,Except.bind]
    rfl
  | some old =>
    have moved : kind = .renamed := paths.mp rfl
    subst moved
    simp only [changeOf_char,head?_cons,pathsOf,kindOf_char,read,bind,Except.bind]
    rfl

theorem render_visible {change : Change} {char : Char} (member : char ∈ change.render) : char = '\t' ∨ 32 < char.toNat := by
  have marks : 32 < change.change.char.toNat ∧ 32 < change.mark.char.toNat := by
    constructor
    · cases change.change <;> decide
    · cases change.mark <;> decide
  unfold Change.render at member
  rcases mem_cons.mp member with rfl | member
  · exact .inr marks.1
  rcases mem_cons.mp member with rfl | member
  · exact .inl rfl
  rcases mem_cons.mp member with rfl | member
  · exact .inr marks.2
  rcases mem_cons.mp member with rfl | member
  · exact .inl rfl
  cases old : change.oldPath with
  | none =>
    rw [old] at member
    exact .inr (visible member)
  | some path =>
    rw [old] at member
    rcases mem_append.mp member with inside | member
    · exact .inr (visible inside)
    · rcases mem_cons.mp member with rfl | inside
      · exact .inl rfl
      · exact .inr (visible inside)

theorem lines_written (changes : List Change) : Text.lines (written changes) = changes.map Change.render := by
  have joined : written changes = (changes.map Change.render).flatMap (fun text => text ++ ['\n']) := by
    rw [flatMap_map]
    rfl
  have absent {char : Char} (hidden : char ≠ '\t' ∧ char.toNat ≤ 32) : ∀ text ∈ changes.map Change.render, char ∉ text := by
    intro text listed member
    obtain ⟨change,-,rfl⟩ := mem_map.mp listed
    rcases render_visible member with tab | seen
    · exact hidden.1 tab
    · exact absurd seen (Nat.not_lt.mpr hidden.2)
  rw [joined,Text.lines_unlines (absent (by decide))]
  refine (map_congr_left (fun text listed => ?_)).trans (map_id _)
  unfold Text.stripReturn
  rw [if_neg]
  · rfl
  · intro last
    exact absent (by decide) text listed (mem_of_getLast? last)

theorem parseLines_render (changes : List Change) (entries : List DiffEntry) (room : entries.length ≤ MAX_DIFF) :
    parseLines (changes.map Change.render) entries =
      .ok (entries ++ (changes.take (MAX_DIFF - entries.length)).map Change.entry,
        decide (MAX_DIFF < entries.length + changes.length)) := by
  induction changes generalizing entries with
  | nil =>
    rw [map_nil,parseLines,take_nil,map_nil,append_nil,length_nil,Nat.add_zero,
      decide_eq_false (Nat.not_lt.mpr room)]
  | cons change rest ih =>
    have written : change.render ≠ [] := by
      unfold Change.render
      exact cons_ne_nil _ _
    rw [map_cons,parseLines,if_neg written,parseLine_render]
    by_cases full : MAX_DIFF ≤ entries.length
    · rw [if_pos full,Nat.sub_eq_zero_of_le full,take_zero,map_nil,append_nil]
      have more : MAX_DIFF < entries.length + (change::rest).length := by
        rw [length_cons]
        omega
      rw [decide_eq_true more]
    · rw [if_neg full]
      change parseLines (rest.map Change.render) (entries ++ [change.entry]) = _
      have step : MAX_DIFF - entries.length = MAX_DIFF - (entries ++ [change.entry]).length + 1 := by
        rw [length_append,length_singleton]
        omega
      rw [ih (entries ++ [change.entry]) (by rw [length_append,length_singleton]; omega),step,
        take_succ_cons,map_cons,append_assoc,singleton_append]
      congr 2
      refine decide_eq_decide.mpr ?_
      rw [length_append,length_singleton,length_cons]
      omega

end Lines

structure ReadsBack : Prop where
  changes : ∀ changes, parse (written changes) =
    .ok ((changes.take MAX_DIFF).map Change.entry,decide (MAX_DIFF < changes.length))
  names : ∀ bytes, decodePath (escape bytes) = fromUtf8 bytes
  distinct : ∀ first second text, decodePath (escape first) = some text → decodePath (escape second) = some text →
    first = second

theorem diff_read_back : ReadsBack where
  changes changes := by
    rw [parse,lines_written,parseLines_render changes [] (Nat.zero_le _)]
    simp
  names := decodePath_escape
  distinct first second text one other := by
    rw [decodePath_escape] at one other
    rw [← fromUtf8_some one,fromUtf8_some other]

/-- A name that is no text is not read, and two of them are not told apart. -/
theorem bytes_not_read : ¬((∀ bytes, ∃ text, decodePath (escape bytes) = some text ∧ bytesOf text = bytes) ∧
    ∀ first second, decodePath (escape first) = decodePath (escape second) → first = second) := by
  rintro ⟨reads,-⟩
  obtain ⟨text,read,-⟩ := reads [255]
  rw [decodePath_escape] at read
  have unread : fromUtf8 [255] = none := by decide +kernel
  rw [unread] at read
  cases read

end Depsis.Disks.Diff

import Mathlib.Data.List.Basic
import Mathlib.Data.List.DropRight
import Mathlib.Data.List.Nodup
import Mathlib.Data.List.TakeWhile

/-! The grammar of `smb.conf`: lines and their continuations, comments, sections whose
names are compared without case, settings, and the `%` expansions in their values.
-/
namespace Depsis.Foundation.SmbConf

open List Bool

structure Setting where
  key : List Char
  value : List Char
deriving DecidableEq

structure Section where
  name : List Char
  settings : List Setting

inductive Line where
  | nothing
  | header (name : List Char)
  | setting (setting : Setting)
deriving DecidableEq

def blank (character : Char) : Bool :=
  let code := character.toNat
  (9 ≤ code && code ≤ 13) || code = 32

def strip (text : List Char) : List Char := (text.dropWhile blank).rdropWhile blank

def lower (name : List Char) : List Char := name.map Char.toLower

def continues (line : List Char) : Bool := line.getLast? = some '\\'

def joinLines (front : List Char) : List (List Char) → List (List Char)
  | [] => if front = [] then [] else [front]
  | line::rest =>
    if continues (front++line) then joinLines (front++line).dropLast rest
    else (front++line)::joinLines [] rest

def parseSetting (text : List Char) : Line :=
  if '=' ∈ text then
    .setting ⟨strip (text.takeWhile (· ≠ '=')),strip (text.dropWhile (· ≠ '=')).tail⟩
  else .nothing

def parseLine (line : List Char) : Line :=
  match strip line with
  | [] => .nothing
  | '#'::_ => .nothing
  | ';'::_ => .nothing
  | '['::rest => .header (strip (rest.takeWhile (· ≠ ']')))
  | text => parseSetting text

/-- The sections in the order of their headers; what stands before the first one belongs
to the section already open. -/
def gather (current : Section) : List Line → List Section
  | [] => [current]
  | .nothing::rest => gather current rest
  | .header name::rest => current::gather ⟨name,[]⟩ rest
  | .setting setting::rest => gather {current with settings := current.settings++[setting]} rest

def enter (met : List Section) (opened : Section) : List Section :=
  if met.any (fun known => lower known.name = lower opened.name) then
    met.map (fun known => if lower known.name = lower opened.name then
      {known with settings := known.settings++opened.settings} else known)
  else met++[opened]

def merge (sections : List Section) : List Section := sections.foldl enter []

def outside : Section := ⟨['g','l','o','b','a','l'],[]⟩

def read (text : List Char) : List Section :=
  merge (gather outside ((joinLines [] (text.splitOn '\n')).map parseLine))

/-- A value as the server uses it, where `table` is what each `%` letter stands for. -/
def expand (table : Char → List Char) : List Char → List Char
  | [] => []
  | '%'::letter::rest => table letter++expand table rest
  | character::rest => character::expand table rest

def separates (character : Char) : Bool := blank character || character = ','

def words (value : List Char) : List (List Char) := (value.splitOnP separates).filter (fun word => word ≠ [])

theorem expand_plain (table : Char → List Char) {text : List Char} (plain : '%' ∉ text) :
    expand table text = text := by
  induction text with
  | nil => rfl
  | cons character rest ih =>
    have apart : character ≠ '%' := fun same => plain (same ▸ mem_cons_self)
    rw [expand.eq_def]
    split
    next empty => cases empty
    next letter others same => exact absurd (List.cons.inj same).1 apart
    next found others _ same =>
      obtain ⟨rfl,rfl⟩ := List.cons.inj same
      rw [ih (fun inside => plain (mem_cons_of_mem _ inside))]

theorem strip_ends {text : List Char} (first : ∀ character, text.head? = some character → blank character = false)
    (last : ∀ character, text.getLast? = some character → blank character = false) : strip text = text := by
  have front : text.dropWhile blank = text := by
    cases text with
    | nil => rfl
    | cons character rest =>
      exact dropWhile_cons_of_neg (by rw [first character rfl]; exact false_ne_true)
  rw [strip,front,rdropWhile_eq_self_iff]
  intro nonempty
  rw [last _ (getLast?_eq_some_getLast nonempty)]
  exact false_ne_true

theorem strip_front {front text : List Char} (spaces : ∀ character ∈ front, blank character = true) :
    strip (front++text) = strip text := by
  rw [strip,dropWhile_append_of_pos spaces,strip]

theorem joinLines_plain {lines : List (List Char)} (rest : List (List Char))
    (plain : ∀ line ∈ lines, continues line = false) :
    joinLines [] (lines++rest) = lines++joinLines [] rest := by
  induction lines with
  | nil => rfl
  | cons line lines ih =>
    rw [cons_append,joinLines,nil_append,plain line mem_cons_self,if_neg Bool.false_ne_true,
      ih (fun other member => plain other (mem_cons_of_mem _ member)),cons_append]

theorem joinLines_continued {line next : List Char} (rest : List (List Char)) (ends : continues line = true)
    (stops : continues (line.dropLast++next) = false) :
    joinLines [] (line::next::rest) = (line.dropLast++next)::joinLines [] rest := by
  rw [joinLines,nil_append,if_pos ends,joinLines,stops,if_neg Bool.false_ne_true]

theorem gather_settings (current : Section) (settings : List Setting) (rest : List Line) :
    gather current (settings.map .setting++rest) =
      gather {current with settings := current.settings++settings} rest := by
  induction settings generalizing current with
  | nil => simp
  | cons setting settings ih =>
    rw [map_cons,cons_append,gather,ih]
    simp

theorem enter_names (met : List Section) (opened : Section) : (enter met opened).map (fun s => lower s.name) =
    if lower opened.name ∈ met.map (fun s => lower s.name) then met.map (fun s => lower s.name)
    else met.map (fun s => lower s.name)++[lower opened.name] := by
  by_cases known : lower opened.name ∈ met.map (fun s => lower s.name)
  · have found : met.any (fun known => lower known.name = lower opened.name) = true := by
      obtain ⟨old,member,same⟩ := mem_map.mp known
      exact any_eq_true.mpr ⟨old,member,decide_eq_true same⟩
    rw [enter,if_pos found,if_pos known,map_map]
    refine map_congr_left (fun old _ => ?_)
    change lower (if _ then _ else _ : Section).name = _
    split <;> rfl
  · have fresh : met.any (fun known => lower known.name = lower opened.name) = false := by
      refine any_eq_false.mpr (fun old member same => known ?_)
      exact mem_map.mpr ⟨old,member,of_decide_eq_true same⟩
    rw [enter,fresh,if_neg Bool.false_ne_true,if_neg known,map_append]
    rfl

theorem merge_nodup (sections : List Section) : ((merge sections).map (fun s => lower s.name)).Nodup := by
  suffices kept : ∀ met : List Section, (met.map (fun s => lower s.name)).Nodup →
      ((sections.foldl enter met).map (fun s => lower s.name)).Nodup from kept [] nodup_nil
  induction sections with
  | nil => exact fun _ apart => apart
  | cons opened rest ih =>
    intro met apart
    refine ih (enter met opened) ?_
    rw [enter_names]
    split
    next => exact apart
    next fresh =>
      refine nodup_append.mpr ⟨apart,nodup_singleton _,?_⟩
      intro name member other single same
      exact fresh (mem_singleton.mp single ▸ same ▸ member)

theorem merge_distinct {sections : List Section} (apart : (sections.map (fun s => lower s.name)).Nodup) :
    merge sections = sections := by
  suffices kept : ∀ met : List Section, ((met++sections).map (fun s => lower s.name)).Nodup →
      sections.foldl enter met = met++sections from kept [] apart
  clear apart
  induction sections with
  | nil => exact fun met _ => (append_nil met).symm
  | cons opened rest ih =>
    intro met apart
    have fresh : met.any (fun known => lower known.name = lower opened.name) = false := by
      refine any_eq_false.mpr (fun old member same => ?_)
      rw [map_append,nodup_append] at apart
      exact apart.2.2 _ (mem_map_of_mem member) _ mem_cons_self (of_decide_eq_true same)
    rw [foldl_cons,enter,fresh,if_neg Bool.false_ne_true,ih]
    · rw [append_assoc,singleton_append]
    · rwa [append_assoc,singleton_append]

theorem words_single {word : List Char} (nonempty : word ≠ [])
    (plain : ∀ character ∈ word, separates character = false) : words word = [word] := by
  rw [words,splitOnP_eq_singleton plain]
  simp [nonempty]

theorem words_cons {word rest : List Char} {separator : Char} (apart : separates separator = true) (nonempty : word ≠ [])
    (plain : ∀ character ∈ word, separates character = false) :
    words (word++separator::rest) = word::words rest := by
  rw [words,splitOnP_append_cons_of_forall_mem plain _ apart,filter_cons_of_pos (by simpa using nonempty)]
  rfl

theorem words_intercalate {names : List (List Char)} (nonempty : ∀ name ∈ names, name ≠ [])
    (plain : ∀ name ∈ names, ∀ character ∈ name, separates character = false) :
    words ([' '].intercalate names) = names := by
  induction names with
  | nil => rfl
  | cons name rest ih =>
    cases rest with
    | nil =>
      rw [intercalate_singleton]
      exact words_single (nonempty name mem_cons_self) (plain name mem_cons_self)
    | cons next rest =>
      rw [intercalate_cons_cons,append_assoc,singleton_append,
        words_cons rfl (nonempty name mem_cons_self) (plain name mem_cons_self),
        ih (fun other member => nonempty other (mem_cons_of_mem _ member))
          (fun other member => plain other (mem_cons_of_mem _ member))]

theorem blank_separates {character : Char} (plain : separates character = false) : blank character = false := by
  rw [separates,or_eq_false_iff] at plain
  exact plain.1

theorem intercalate_ends {names : List (List Char)} (nonempty : ∀ name ∈ names, name ≠ [])
    (plain : ∀ name ∈ names, ∀ character ∈ name, separates character = false) :
    (∀ character, ([' '].intercalate names).head? = some character → blank character = false) ∧
      ∀ character, ([' '].intercalate names).getLast? = some character →
        ∃ name ∈ names, character ∈ name := by
  induction names with
  | nil => exact ⟨fun _ found => (nomatch found),fun _ found => (nomatch found)⟩
  | cons name rest ih =>
    have first : ∀ character, name.head? = some character → blank character = false := fun character found =>
      blank_separates (plain name mem_cons_self character (mem_of_mem_head? found))
    cases rest with
    | nil =>
      rw [intercalate_singleton]
      exact ⟨first,fun character found => ⟨name,mem_cons_self,mem_of_mem_getLast? found⟩⟩
    | cons next rest =>
      obtain ⟨_,later⟩ := ih (fun other member => nonempty other (mem_cons_of_mem _ member))
        (fun other member => plain other (mem_cons_of_mem _ member))
      rw [intercalate_cons_cons,append_assoc]
      refine ⟨fun character found => first character ?_,fun character found => ?_⟩
      · rwa [head?_append_of_ne_nil _ (nonempty name mem_cons_self)] at found
      · have filled : [' '].intercalate (next::rest) ≠ [] := by
          cases rest with
          | nil =>
            rw [intercalate_singleton]
            exact nonempty next (mem_cons_of_mem _ mem_cons_self)
          | cons => simp [intercalate_cons_cons]
        rw [getLast?_append_of_ne_nil _ (by simp),getLast?_append_of_ne_nil _ filled] at found
        obtain ⟨owner,member,holds⟩ := later character found
        exact ⟨owner,mem_cons_of_mem _ member,holds⟩

theorem mem_intercalate {names : List (List Char)} {character : Char} (inside : character ∈ [' '].intercalate names) :
    character = ' ' ∨ ∃ name ∈ names, character ∈ name := by
  induction names with
  | nil => cases inside
  | cons name rest ih =>
    cases rest with
    | nil =>
      rw [intercalate_singleton] at inside
      exact .inr ⟨name,mem_cons_self,inside⟩
    | cons next rest =>
      rw [intercalate_cons_cons,append_assoc,mem_append,mem_append] at inside
      rcases inside with here | space | later
      · exact .inr ⟨name,mem_cons_self,here⟩
      · exact .inl (mem_singleton.mp space)
      · exact (ih later).imp_right (fun ⟨owner,member,holds⟩ => ⟨owner,mem_cons_of_mem _ member,holds⟩)

theorem strip_concat {text : List Char} {last : Char} (space : blank last = true)
    (first : ∀ character, text.head? = some character → blank character = false)
    (ends : ∀ character, text.getLast? = some character → blank character = false) (filled : text ≠ []) :
    strip (text++[last]) = text := by
  have front : (text++[last]).dropWhile blank = text++[last] := by
    obtain ⟨character,rest,rfl⟩ := exists_cons_of_ne_nil filled
    exact dropWhile_cons_of_neg (by rw [first character rfl]; exact false_ne_true)
  rw [strip,front,rdropWhile_concat_pos _ _ _ space,rdropWhile_eq_self_iff]
  intro nonempty
  rw [ends _ (getLast?_eq_some_getLast nonempty)]
  exact false_ne_true

theorem parseSetting_split {front rest : List Char} (single : '=' ∉ front) :
    parseSetting (front++ '='::rest) = .setting ⟨strip front,strip rest⟩ := by
  have before : ∀ character ∈ front, decide (character ≠ '=') = true := fun character member =>
    decide_eq_true (fun same => single (same ▸ member))
  rw [parseSetting,if_pos (mem_append_right _ mem_cons_self),takeWhile_append_of_pos before,
    dropWhile_append_of_pos before,takeWhile_cons_of_neg (by simp),dropWhile_cons_of_neg (by simp),
    append_nil]
  rfl

def plainKey (key : List Char) : Bool :=
  match key with
  | [] => false
  | first::_ => !blank first && first ≠ '#' && first ≠ ';' && first ≠ '[' && !key.contains '=' &&
    key.getLast?.all (fun last => !blank last)

theorem parseLine_setting (key : List Char) {value : List Char} (plain : plainKey key = true) (filled : value ≠ [])
    (opens : ∀ character, value.head? = some character → blank character = false)
    (ends : ∀ character, value.getLast? = some character → blank character = false) :
    parseLine ('\t'::(key++[' ','=',' ']++value)) = .setting ⟨key,value⟩ := by
  cases key with
  | nil => cases plain
  | cons first rest =>
    simp only [plainKey,and_eq_true,not_eq_true',decide_eq_true_eq] at plain
    obtain ⟨⟨⟨⟨⟨solid,hash⟩,semicolon⟩,bracket⟩,equals⟩,closing⟩ := plain
    have single : '=' ∉ first::rest := fun member => by
      rw [contains_iff_mem.mpr member] at equals
      cases equals
    have keyed : ∀ character, (first::rest).getLast? = some character → blank character = false :=
      fun character found => by
        rw [found,Option.all_some,not_eq_true'] at closing
        exact closing
    have opening : ∀ character, (first::rest).head? = some character → blank character = false :=
      fun character found => by
        cases found
        exact solid
    have tab : ∀ character ∈ ['\t'], blank character = true := fun character member => by
      rw [mem_singleton.mp member]
      rfl
    have space : ∀ character ∈ [' '], blank character = true := fun character member => by
      rw [mem_singleton.mp member]
      rfl
    have whole : strip ('\t'::(first::rest++[' ','=',' ']++value)) = first::(rest++[' ','=',' ']++value) := by
      rw [← singleton_append,strip_front tab]
      refine strip_ends opening (fun character found => ?_)
      rw [getLast?_append_of_ne_nil _ filled] at found
      exact ends character found
    have gap : '=' ∉ first::rest++[' '] := fun member =>
      (mem_append.mp member).elim single (fun inside => by cases mem_singleton.mp inside)
    have shape : first::(rest++[' ','=',' ']++value) = (first::rest++[' '])++ '='::([' ']++value) := by simp
    rw [parseLine,whole]
    split
    next empty => cases empty
    next same => exact absurd (List.cons.inj same).1 hash
    next same => exact absurd (List.cons.inj same).1 semicolon
    next same => exact absurd (List.cons.inj same).1 bracket
    next =>
      rw [shape,parseSetting_split gap,strip_concat rfl opening keyed (cons_ne_nil _ _),strip_front space,
        strip_ends opens ends]

theorem parseLine_header {name : List Char} (inside : ']' ∉ name) (stripped : strip name = name) :
    parseLine ('['::name++[']']) = .header name := by
  have whole : strip ('['::name++[']']) = '['::name++[']'] := by
    refine strip_ends (fun character found => ?_) (fun character found => ?_)
    · cases found
      rfl
    · rw [getLast?_concat] at found
      cases found
      rfl
  have before : ∀ character ∈ name, decide (character ≠ ']') = true := fun character member =>
    decide_eq_true (fun same => inside (same ▸ member))
  rw [parseLine,whole]
  change Line.header (strip ((name++[']']).takeWhile (· ≠ ']'))) = _
  rw [takeWhile_append_of_pos before,takeWhile_cons_of_neg (by simp),append_nil,stripped]

end Depsis.Foundation.SmbConf

import Mathlib.Data.List.Basic
import Mathlib.Data.List.TakeWhile

/-! The string operations of the Rust standard library that the agent's parsers
use, on the characters of a text.
-/
namespace Depsis.Foundation.Text

open List

/-- `char::is_whitespace`: the code points with the Unicode property White_Space. -/
def whitespace (character : Char) : Bool :=
  let code := character.toNat
  (9 ≤ code && code ≤ 13) || code = 32 || code = 133 || code = 160 || code = 5760 ||
    (8192 ≤ code && code ≤ 8202) || code = 8232 || code = 8233 || code = 8239 || code = 8287 || code = 12288

def trimStart (text : List Char) : List Char := text.dropWhile whitespace

def trimEnd (text : List Char) : List Char := (text.reverse.dropWhile whitespace).reverse

def trim (text : List Char) : List Char := trimEnd (trimStart text)

def stripPrefix : List Char → List Char → Option (List Char)
  | [],text => some text
  | _::_,[] => none
  | first::rest,character::text => if first = character then stripPrefix rest text else none

theorem stripPrefix_some {front text rest : List Char} :
    stripPrefix front text = some rest ↔ text = front++rest := by
  induction front generalizing text with
  | nil => simp [stripPrefix,eq_comm]
  | cons first front ih =>
    cases text with
    | nil => simp [stripPrefix]
    | cons character text =>
      simp only [stripPrefix,cons_append,List.cons.injEq]
      split
      next same => simp [ih,same]
      next different => simp [Ne.symm different]

def stripReturn (line : List Char) : List Char :=
  if line.getLast? = some '\r' then line.dropLast else line

/-- `str::lines`. A text that does not end its last line keeps that line as it is. -/
def lines (text : List Char) : List (List Char) :=
  let parts := text.splitOn '\n'
  parts.dropLast.map stripReturn ++ (parts.getLast?.toList.filter (fun last => last ≠ []))

theorem splitOn_unlines {texts : List (List Char)} (single : ∀ text ∈ texts, '\n' ∉ text) :
    (texts.flatMap (fun text => text++['\n'])).splitOn '\n' = texts++[[]] := by
  induction texts with
  | nil => rfl
  | cons text rest ih =>
    rw [flatMap_cons,append_assoc,singleton_append,
      splitOn_append_cons_self_of_not_mem (single text mem_cons_self),
      ih (fun other later => single other (mem_cons_of_mem _ later)),cons_append]

theorem lines_unlines {texts : List (List Char)} (single : ∀ text ∈ texts, '\n' ∉ text) :
    lines (texts.flatMap (fun text => text++['\n'])) = texts.map stripReturn := by
  rw [lines,splitOn_unlines single]
  simp

theorem trim_last {text : List Char} {last : Char} (ends : (trim text).getLast? = some last) :
    whitespace last = false := by
  have stops := head?_dropWhile_not whitespace (trimStart text).reverse
  rw [trim,trimEnd,getLast?_reverse] at ends
  rw [ends] at stops
  exact stops

def words (text : List Char) : List (List Char) := (text.splitOnP whitespace).filter (fun word => word ≠ [])

theorem words_blank {blank : Char} (space : whitespace blank = true) (rest : List Char) : words (blank::rest) = words rest := by
  have cut := splitOnP_append_cons (p := whitespace) [] rest space
  rw [words,words]
  rw [nil_append] at cut
  rw [cut,splitOnP_nil]
  rfl

theorem words_word {word : List Char} (filled : word ≠ []) (solid : ∀ character ∈ word, whitespace character = false)
    {blank : Char} (space : whitespace blank = true) (rest : List Char) :
    words (word ++ blank::rest) = word::words rest := by
  rw [words,splitOnP_append_cons_of_forall_mem solid blank space rest,filter_cons_of_pos (by simpa using filled)]
  rfl

def splitOnce (separator : List Char) : List Char → Option (List Char × List Char)
  | [] => none
  | character::text =>
    match stripPrefix separator (character::text) with
    | some after => some ([],after)
    | none => (splitOnce separator text).map (fun parts => (character::parts.1,parts.2))

def rsplitOnce (mark : Char) (text : List Char) : Option (List Char × List Char) :=
  let back := (text.reverse.takeWhile (fun character => character ≠ mark)).reverse
  if mark ∈ text then some (text.take (text.length - back.length - 1),back) else none

theorem rsplitOnce_append {mark : Char} (front : List Char) {back : List Char} (last : mark ∉ back) :
    rsplitOnce mark (front ++ mark::back) = some (front,back) := by
  have read : ((front ++ mark::back).reverse.takeWhile (fun character => character ≠ mark)).reverse = back := by
    rw [reverse_append,reverse_cons,append_assoc,takeWhile_append_of_pos]
    · simp
    · intro character inside
      have other : character ≠ mark := fun same => last (same ▸ mem_reverse.mp inside)
      simpa using other
  unfold rsplitOnce
  dsimp only
  rw [read,if_pos (by simp)]
  have size : (front ++ mark::back).length - back.length - 1 = front.length := by simp; omega
  rw [size,take_left]

end Depsis.Foundation.Text

import Mathlib.Data.List.Basic
import Mathlib.Data.Char

/-! JSON read as strictly as a standard reader does: no trailing commas, escapes that make
characters, a bound on nesting, and nothing but blanks after the value.
-/
namespace Depsis.Foundation.Json

/-- A number is kept as it was written, the fields of an object in the order they came in. -/
inductive Tree (Text : Type) where
  | null
  | bool (value : Bool)
  | number (literal : List Char)
  | string (text : Text)
  | array (items : List (Tree Text))
  | object (fields : List (Text × Tree Text))

abbrev Value := Tree (List Char)

structure Inside {Text : Type} (motive : Tree Text → Prop) : Prop where
  null : motive .null
  bool : ∀ value, motive (.bool value)
  number : ∀ literal, motive (.number literal)
  string : ∀ text, motive (.string text)
  array : ∀ items, (∀ item ∈ items, motive item) → motive (.array items)
  object : ∀ fields, (∀ field ∈ fields, motive field.2) → motive (.object fields)

mutual

theorem Inside.all {Text : Type} {motive : Tree Text → Prop} (inside : Inside motive) : ∀ tree, motive tree
  | .null => inside.null
  | .bool value => inside.bool value
  | .number literal => inside.number literal
  | .string text => inside.string text
  | .array items => inside.array items (inside.items items)
  | .object fields => inside.object fields (inside.fields fields)

theorem Inside.items {Text : Type} {motive : Tree Text → Prop} (inside : Inside motive) :
    ∀ items : List (Tree Text), ∀ item ∈ items, motive item
  | [] => fun _ mem => absurd mem List.not_mem_nil
  | item::items => List.forall_mem_cons.mpr ⟨inside.all item,inside.items items⟩

theorem Inside.fields {Text : Type} {motive : Tree Text → Prop} (inside : Inside motive) :
    ∀ fields : List (Text × Tree Text), ∀ field ∈ fields, motive field.2
  | [] => fun _ mem => absurd mem List.not_mem_nil
  | (_,value)::fields => List.forall_mem_cons.mpr ⟨inside.all value,inside.fields fields⟩

end

def isBlank (char : Char) : Bool := char = ' ' || char = '\n' || char = '\t' || char = '\r'

def skip (text : List Char) : List Char := text.dropWhile isBlank

def expect : List Char → List Char → Option (List Char)
  | [],text => some text
  | char::word,first::rest => if char = first then expect word rest else none
  | _::_,[] => none

def digits (text : List Char) : Option (List Char × List Char) :=
  match text.takeWhile Char.isDigit with
  | [] => none
  | first::more => some (first::more,text.dropWhile Char.isDigit)

def whole (text : List Char) : Option (List Char × List Char) :=
  match digits text with
  | some ('0'::_::_,_) => none
  | read => read

def fraction : List Char → Option (List Char × List Char)
  | '.'::rest => (digits rest).map (fun read => ('.'::read.1,read.2))
  | text => some ([],text)

def power (mark : Char) : List Char → Option (List Char × List Char)
  | '+'::rest => (digits rest).map (fun read => (mark :: '+' :: read.1,read.2))
  | '-'::rest => (digits rest).map (fun read => (mark :: '-' :: read.1,read.2))
  | rest => (digits rest).map (fun read => (mark::read.1,read.2))

def exponent : List Char → Option (List Char × List Char)
  | 'e'::rest => power 'e' rest
  | 'E'::rest => power 'E' rest
  | text => some ([],text)

def magnitude (text : List Char) : Option (List Char × List Char) := do
  let units ← whole text
  let part ← fraction units.2
  let scale ← exponent part.2
  some (units.1 ++ part.1 ++ scale.1,scale.2)

def plain (literal : List Char) : Bool := literal.all Char.isDigit && literal.length ≤ 18

def signed : List Char → Option (List Char × List Char)
  | '-'::rest => (magnitude rest).map (fun read => ('-'::read.1,read.2))
  | text => magnitude text

variable (representable : List Char → Bool)

def number (text : List Char) : Option (List Char × List Char) := do
  let read ← signed text
  if plain read.1 || representable read.1 then some read else none

def hexDigit (char : Char) : Option Nat :=
  if '0' ≤ char ∧ char ≤ '9' then some (char.toNat - '0'.toNat)
  else if 'a' ≤ char ∧ char ≤ 'f' then some (char.toNat - 'a'.toNat + 10)
  else if 'A' ≤ char ∧ char ≤ 'F' then some (char.toNat - 'A'.toNat + 10)
  else none

def hex4 : List Char → Option (Nat × List Char)
  | a::b::c::d::rest => do
    let a ← hexDigit a
    let b ← hexDigit b
    let c ← hexDigit c
    let d ← hexDigit d
    some (((a * 16 + b) * 16 + c) * 16 + d,rest)
  | _ => none

def lowHalf (high : Nat) : List Char → Option (Char × List Char)
  | '\\' :: 'u' :: rest => do
    let read ← hex4 rest
    if 0xDC00 ≤ read.1 ∧ read.1 ≤ 0xDFFF then
      some (Char.ofNat (0x10000 + (high - 0xD800) * 0x400 + (read.1 - 0xDC00)),read.2)
    else none
  | _ => none

/-- The character after `\u`: a unit, or two that belong together. -/
def unicode (text : List Char) : Option (Char × List Char) := do
  let read ← hex4 text
  if 0xDC00 ≤ read.1 ∧ read.1 ≤ 0xDFFF then none
  else if 0xD800 ≤ read.1 ∧ read.1 ≤ 0xDBFF then lowHalf read.1 read.2
  else some (Char.ofNat read.1,read.2)

def escape : List Char → Option (Char × List Char)
  | '"'::rest => some ('"',rest)
  | '\\'::rest => some ('\\',rest)
  | '/'::rest => some ('/',rest)
  | 'b'::rest => some ('\x08',rest)
  | 'f'::rest => some ('\x0C',rest)
  | 'n'::rest => some ('\n',rest)
  | 'r'::rest => some ('\r',rest)
  | 't'::rest => some ('\t',rest)
  | 'u'::rest => unicode rest
  | _ => none

def stringRest : Nat → List Char → Option (List Char × List Char)
  | 0,_ => none
  | _ + 1,[] => none
  | fuel + 1,char::rest =>
    if char = '"' then some ([],rest)
    else if char = '\\' then do
      let read ← escape rest
      let later ← stringRest fuel read.2
      some (read.1::later.1,later.2)
    else if char.toNat < 0x20 then none
    else do
      let later ← stringRest fuel rest
      some (char::later.1,later.2)

def string (text : List Char) : Option (List Char × List Char) := stringRest text.length text

/-! Arrays and objects, with the reader of what is in them. -/

def elements (item : List Char → Option (Value × List Char)) : Nat → List Char → Option (List Value × List Char)
  | 0,_ => none
  | fuel + 1,text => do
    let read ← item text
    match skip read.2 with
    | ']'::rest => some ([read.1],rest)
    | ','::rest => do
      let later ← elements item fuel rest
      some (read.1::later.1,later.2)
    | _ => none

def members (item : List Char → Option (Value × List Char)) :
    Nat → List Char → Option (List (List Char × Value) × List Char)
  | 0,_ => none
  | fuel + 1,text =>
    match skip text with
    | '"'::rest => do
      let key ← string rest
      match skip key.2 with
      | ':'::rest => do
        let read ← item rest
        match skip read.2 with
        | '}'::rest => some ([(key.1,read.1)],rest)
        | ','::rest => do
          let later ← members item fuel rest
          some ((key.1,read.1)::later.1,later.2)
        | _ => none
      | _ => none
    | _ => none

def array (item : List Char → Option (Value × List Char)) (text : List Char) : Option (Value × List Char) :=
  match skip text with
  | ']'::rest => some (.array [],rest)
  | _ => (elements item text.length text).map (fun read => (.array read.1,read.2))

def object (item : List Char → Option (Value × List Char)) (text : List Char) : Option (Value × List Char) :=
  match skip text with
  | '}'::rest => some (.object [],rest)
  | _ => (members item text.length text).map (fun read => (.object read.1,read.2))

/-- A value whose arrays and objects, where it may have any, are read with `item`. -/
def valueWith (item : Option (List Char → Option (Value × List Char))) (text : List Char) : Option (Value × List Char) :=
  match skip text with
  | [] => none
  | char::rest =>
    if char = 'n' then (expect ['u','l','l'] rest).map (fun rest => (.null,rest))
    else if char = 't' then (expect ['r','u','e'] rest).map (fun rest => (.bool true,rest))
    else if char = 'f' then (expect ['a','l','s','e'] rest).map (fun rest => (.bool false,rest))
    else if char = '"' then (string rest).map (fun read => (.string read.1,read.2))
    else if char = '[' then item.bind (fun item => array item rest)
    else if char = '\x7b' then item.bind (fun item => object item rest)
    else (number representable (char::rest)).map (fun read => (.number read.1,read.2))

def value : Nat → List Char → Option (Value × List Char)
  | 0 => valueWith representable none
  | depth + 1 => valueWith representable (some (value depth))

def MAX_DEPTH : Nat := 127

def read (text : List Char) : Option Value := do
  let read ← value representable MAX_DEPTH text
  if skip read.2 = [] then some read.1 else none

def insert (key : List Char) (value : Value) : List (List Char × Value) → List (List Char × Value)
  | [] => [(key,value)]
  | first::rest =>
    if key = first.1 then (key,value)::rest
    else if key < first.1 then (key,value)::first::rest
    else first::insert key value rest

mutual

def settle : Value → Value
  | .array items => .array (settleItems items)
  | .object fields => .object (settleFields fields [])
  | value => value

def settleItems : List Value → List Value
  | [] => []
  | item::rest => settle item::settleItems rest

def settleFields : List (List Char × Value) → List (List Char × Value) → List (List Char × Value)
  | [],fields => fields
  | (key,value)::rest,fields => settleFields rest (insert key (settle value) fields)

end

def fromStr (text : List Char) : Option Value := (read representable text).map settle

end Depsis.Foundation.Json

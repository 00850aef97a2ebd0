import Depsis.Foundation.JsonRead
import Depsis.Foundation.JsString

/-! `JSON.stringify`, and what a strict reader makes of its text: the value that was written,
unless a string of it is not well formed or it nests deeper than the reader goes.
-/
namespace Depsis.Foundation.Json
open JsString List Option

abbrev Js := Tree (List Nat)

def hexChar (digit : Nat) : Char := if digit < 10 then Char.ofNat (48 + digit) else Char.ofNat (87 + digit)

def unitEscape (unit : Nat) : List Char :=
  ['\\','u',hexChar (unit / 4096 % 16),hexChar (unit / 256 % 16),hexChar (unit / 16 % 16),hexChar (unit % 16)]

def escaped (point : Nat) : List Char :=
  if point = 0x22 then ['\\','"']
  else if point = 0x5C then ['\\','\\']
  else if point = 0x08 then ['\\','b']
  else if point = 0x09 then ['\\','t']
  else if point = 0x0A then ['\\','n']
  else if point = 0x0C then ['\\','f']
  else if point = 0x0D then ['\\','r']
  else if point < 0x20 || isLead point || isTrail point then unitEscape point
  else [Char.ofNat point]

def quote (units : List Nat) : List Char := '"'::((codePoints units).flatMap escaped ++ ['"'])

mutual

def stringify : Js → List Char
  | .null => ['n','u','l','l']
  | .bool true => ['t','r','u','e']
  | .bool false => ['f','a','l','s','e']
  | .number literal => literal
  | .string units => quote units
  | .array items => '['::(stringifyItems items ++ [']'])
  | .object fields => '\x7b'::(stringifyFields fields ++ ['\x7d'])

def stringifyItems : List Js → List Char
  | [] => []
  | [item] => stringify item
  | item::next::rest => stringify item ++ ','::stringifyItems (next::rest)

def stringifyFields : List (List Nat × Js) → List Char
  | [] => []
  | [(key,value)] => quote key ++ ':'::stringify value
  | (key,value)::next::rest => quote key ++ ':'::(stringify value ++ ','::stringifyFields (next::rest))

end

mutual

def depth : Js → Nat
  | .array items => itemsDepth items + 1
  | .object fields => fieldsDepth fields + 1
  | _ => 0

def itemsDepth : List Js → Nat
  | [] => 0
  | item::rest => max (depth item) (itemsDepth rest)

def fieldsDepth : List (List Nat × Js) → Nat
  | [] => 0
  | (_,value)::rest => max (depth value) (fieldsDepth rest)

end

mutual

def ofJs : Js → Option Value
  | .null => some .null
  | .bool value => some (.bool value)
  | .number literal => some (.number literal)
  | .string units => (text units).map .string
  | .array items => (ofItems items).map .array
  | .object fields => (ofFields fields).map .object

def ofItems : List Js → Option (List Value)
  | [] => some []
  | item::rest => do
    let item ← ofJs item
    let rest ← ofItems rest
    some (item::rest)

def ofFields : List (List Nat × Js) → Option (List (List Char × Value))
  | [] => some []
  | (key,value)::rest => do
    let key ← text key
    let value ← ofJs value
    let rest ← ofFields rest
    some ((key,value)::rest)

end

def within (limit : Nat) (js : Js) : Option Value := if depth js ≤ limit then ofJs js else none

def withinItems (limit : Nat) (items : List Js) : Option (List Value) :=
  if itemsDepth items ≤ limit then ofItems items else none

def withinFields (limit : Nat) (fields : List (List Nat × Js)) : Option (List (List Char × Value)) :=
  if fieldsDepth fields ≤ limit then ofFields fields else none

private theorem withinItems_cons (limit : Nat) (item : Js) (rest : List Js) : withinItems limit (item::rest) =
    (within limit item).bind (fun item => (withinItems limit rest).map (fun rest => item::rest)) := by
  unfold withinItems within
  rw [itemsDepth]
  by_cases first : depth item ≤ limit
  · by_cases later : itemsDepth rest ≤ limit
    · rw [if_pos (Nat.max_le.mpr ⟨first,later⟩),if_pos first,if_pos later,ofItems]
      cases ofJs item with
      | none => rfl
      | some item => cases ofItems rest <;> rfl
    · rw [if_neg (fun both => later (Nat.max_le.mp both).2),if_neg later]
      cases (if depth item ≤ limit then ofJs item else none) <;> rfl
  · rw [if_neg (fun both => first (Nat.max_le.mp both).1),if_neg first]
    rfl

private theorem withinFields_cons (limit : Nat) (key : List Nat) (value : Js) (rest : List (List Nat × Js)) :
    withinFields limit ((key,value)::rest) = (text key).bind (fun key => (within limit value).bind (fun value =>
      (withinFields limit rest).map (fun rest => (key,value)::rest))) := by
  unfold withinFields within
  rw [fieldsDepth]
  by_cases first : depth value ≤ limit
  · by_cases later : fieldsDepth rest ≤ limit
    · rw [if_pos (Nat.max_le.mpr ⟨first,later⟩),if_pos first,if_pos later,ofFields]
      cases text key with
      | none => rfl
      | some key =>
        cases ofJs value with
        | none => rfl
        | some value => cases ofFields rest <;> rfl
    · rw [if_neg (fun both => later (Nat.max_le.mp both).2),if_neg later]
      cases text key with
      | none => rfl
      | some key => cases (if depth value ≤ limit then ofJs value else none) <;> rfl
  · rw [if_neg (fun both => first (Nat.max_le.mp both).1),if_neg first]
    cases text key <;> rfl

variable (representable : List Char → Bool)

mutual

def Sound : Js → Prop
  | .number literal => number representable literal = some (literal,[])
  | .string units => ∀ unit ∈ units, unit < 0x10000
  | .array items => SoundItems items
  | .object fields => SoundFields fields
  | _ => True

def SoundItems : List Js → Prop
  | [] => True
  | item::rest => Sound item ∧ SoundItems rest

def SoundFields : List (List Nat × Js) → Prop
  | [] => True
  | (key,value)::rest => (∀ unit ∈ key, unit < 0x10000) ∧ Sound value ∧ SoundFields rest

end

private theorem hexDigit_hexChar : ∀ digit < 16, hexDigit (hexChar digit) = some digit := by decide

theorem hex4_unitEscape {unit : Nat} (few : unit < 0x10000) (rest : List Char) :
    hex4 ((unitEscape unit).drop 2 ++ rest) = some (unit,rest) := by
  have digit (place : Nat) : hexDigit (hexChar (unit / place % 16)) = some (unit / place % 16) :=
    hexDigit_hexChar _ (Nat.mod_lt _ (by omega))
  have last := digit 1
  rw [Nat.div_one] at last
  have value : ((unit / 4096 % 16 * 16 + unit / 256 % 16) * 16 + unit / 16 % 16) * 16 + unit % 16 = unit := by omega
  simp only [unitEscape,drop_succ_cons,drop_zero,cons_append,nil_append,hex4,digit,last,
    bind_eq_bind,bind_some,value]

private inductive Escaped (point : Nat) : List Char → Prop
  | short (mark : Char) (small : point < 0x80) (other : mark ≠ 'u')
      (back : ∀ rest, escape (mark::rest) = some (Char.ofNat point,rest)) : Escaped point ['\\',mark]
  | unit (small : point < 0x10000) : Escaped point (unitEscape point)
  | plain (large : 0x20 ≤ point) (quote : point ≠ 0x22) (slash : point ≠ 0x5C)
      (lead : isLead point = false) (trail : isTrail point = false) : Escaped point [Char.ofNat point]

private theorem escaped_is (point : Nat) : Escaped point (escaped point) := by
  unfold escaped
  split
  · next same => exact .short '"' (by omega) (by decide) (fun rest => by rw [same]; rfl)
  split
  · next same => exact .short '\\' (by omega) (by decide) (fun rest => by rw [same]; rfl)
  split
  · next same => exact .short 'b' (by omega) (by decide) (fun rest => by rw [same]; rfl)
  split
  · next same => exact .short 't' (by omega) (by decide) (fun rest => by rw [same]; rfl)
  split
  · next same => exact .short 'n' (by omega) (by decide) (fun rest => by rw [same]; rfl)
  split
  · next same => exact .short 'f' (by omega) (by decide) (fun rest => by rw [same]; rfl)
  split
  · next same => exact .short 'r' (by omega) (by decide) (fun rest => by rw [same]; rfl)
  split
  · next small =>
    refine .unit ?_
    simp only [isLead,isTrail,Bool.or_eq_true,Bool.and_eq_true,decide_eq_true_eq] at small
    omega
  · next quote slash _ _ _ _ _ large =>
    simp only [Bool.or_eq_true,decide_eq_true_eq,not_or,Bool.not_eq_true] at large
    exact .plain (by omega) quote slash large.1.2 large.2

private theorem unicode_unit {unit : Nat} (few : unit < 0x10000) (rest : List Char) :
    unicode ((unitEscape unit).drop 2 ++ rest) =
      if isTrail unit then none else if isLead unit then lowHalf unit rest else some (Char.ofNat unit,rest) := by
  unfold unicode
  rw [hex4_unitEscape few rest]
  simp only [bind_eq_bind,bind_some,isTrail,isLead,Bool.and_eq_true,decide_eq_true_eq]

private theorem stringRest_escape (fuel : Nat) (rest : List Char) : stringRest (fuel + 1) ('\\'::rest) =
    (escape rest).bind (fun read => (stringRest fuel read.2).map (fun later => (read.1::later.1,later.2))) := by
  rw [stringRest,if_neg (by decide),if_pos rfl]
  cases escape rest with
  | none => rfl
  | some read =>
    simp only [bind_eq_bind,bind_some]
    cases stringRest fuel read.2 <;> rfl

private theorem stringRest_plain {fuel : Nat} {char : Char} {rest : List Char} (quote : char ≠ '"') (slash : char ≠ '\\')
    (large : 0x20 ≤ char.toNat) :
    stringRest (fuel + 1) (char::rest) = (stringRest fuel rest).map (fun later => (char::later.1,later.2)) := by
  rw [stringRest,if_neg quote,if_neg slash,if_neg (Nat.not_lt.mpr large)]
  cases stringRest fuel rest <;> rfl

private theorem stringRest_escaped {point : Nat} (few : point < 0x110000) {char : Char} (is : charOf point = some char)
    (fuel : Nat) (rest : List Char) :
    stringRest (fuel + 1) (escaped point ++ rest) = (stringRest fuel rest).map (fun later => (char::later.1,later.2)) := by
  unfold charOf at is
  split at is
  · cases is
  next whole =>
  cases is
  simp only [Bool.or_eq_true,not_or,Bool.not_eq_true] at whole
  have written := escaped_is point
  generalize escaped point = text at written
  cases written with
  | short mark small other back =>
    change stringRest (fuel + 1) ('\\'::mark::rest) = _
    rw [stringRest_escape,back]
    rfl
  | unit small =>
    change stringRest (fuel + 1) ('\\'::('u'::((unitEscape point).drop 2 ++ rest))) = _
    rw [stringRest_escape]
    change (unicode ((unitEscape point).drop 2 ++ rest)).bind _ = _
    rw [unicode_unit small rest,whole.1,whole.2]
    rfl
  | plain large quote slash lead trail =>
    have value := toNat_ofNat few lead trail
    refine stringRest_plain ?_ ?_ (by rw [value]; exact large)
    · intro same
      rw [same] at value
      exact quote value.symm
    · intro same
      rw [same] at value
      exact slash value.symm

private theorem stringRest_half {point : Nat} (none : charOf point = none) {rest : List Char}
    (apart : isLead point = true → ∀ more low later, rest = '\\' :: 'u' :: more → hex4 more = some (low,later) → isTrail low = false)
    (fuel : Nat) : stringRest (fuel + 1) (escaped point ++ rest) = .none := by
  have half : (isLead point || isTrail point) = true := by
    unfold charOf at none
    split at none
    · assumption
    · cases none
  have range : 0xD800 ≤ point ∧ point < 0xE000 := by
    simp only [isLead,isTrail,Bool.or_eq_true,Bool.and_eq_true,decide_eq_true_eq] at half
    omega
  have written : escaped point = unitEscape point := by
    unfold escaped
    rw [if_neg (by omega),if_neg (by omega),if_neg (by omega),if_neg (by omega),if_neg (by omega),if_neg (by omega),
      if_neg (by omega),if_pos (by rw [Bool.or_assoc,half,Bool.or_true])]
  rw [written]
  change stringRest (fuel + 1) ('\\'::('u'::((unitEscape point).drop 2 ++ rest))) = _
  rw [stringRest_escape]
  change (unicode ((unitEscape point).drop 2 ++ rest)).bind _ = _
  rw [unicode_unit (by omega) rest]
  cases trail : isTrail point with
  | true => rfl
  | false =>
    rw [trail,Bool.or_false] at half
    rw [half]
    have low : lowHalf point rest = .none := by
      unfold lowHalf
      split
      · next more =>
        cases digits : hex4 more with
        | none => rfl
        | some read =>
          have other := apart half more read.1 read.2 rfl digits
          simp only [isTrail,Bool.and_eq_false_iff,decide_eq_false_iff_not] at other
          exact if_neg (by omega)
      · rfl
    change Option.bind (lowHalf point rest) _ = _
    rw [low]
    rfl

theorem stringRest_written {points : List Nat} (few : ∀ point ∈ points, point < 0x110000) (apart : Apart points)
    {fuel : Nat} (enough : points.length < fuel) (rest : List Char) :
    stringRest fuel (points.flatMap escaped ++ '"'::rest) = (points.mapM charOf).map (fun text => (text,rest)) := by
  induction points generalizing fuel with
  | nil =>
    cases fuel with
    | zero => cases enough
    | succ fuel => rfl
  | cons point points ih =>
    cases fuel with
    | zero => cases enough
    | succ fuel =>
      have later := ih (fun other mem => few other (mem_cons_of_mem _ mem)) apart.2 (Nat.lt_of_succ_lt_succ enough)
      rw [flatMap_cons,append_assoc,mapM_cons]
      cases is : charOf point with
      | none =>
        refine (stringRest_half is ?_ fuel).trans rfl
        intro lead more low rest' same read
        cases points with
        | nil => cases same
        | cons next points =>
          have alone := apart.1 next rfl
          have written := escaped_is next
          rw [flatMap_cons,append_assoc] at same
          generalize escaped next = first at written same
          cases written with
          | short mark _ other _ =>
            simp only [cons_append,List.cons.injEq] at same
            exact absurd same.2.1 other
          | unit small =>
            change '\\' :: 'u' :: ((unitEscape next).drop 2 ++ (points.flatMap escaped ++ '"'::rest)) = _ at same
            simp only [List.cons.injEq,true_and] at same
            rw [← same,hex4_unitEscape small] at read
            cases read
            exact Bool.eq_false_iff.mpr (fun trail => alone ⟨lead,trail⟩)
          | plain _ _ slash first second =>
            simp only [cons_append,List.cons.injEq] at same
            have value := toNat_ofNat (few next (mem_cons_of_mem _ mem_cons_self)) first second
            rw [same.1] at value
            exact absurd value.symm slash
      | some char =>
        rw [stringRest_escaped (few point mem_cons_self) is,later]
        cases points.mapM charOf <;> rfl

private theorem escaped_length (point : Nat) : 1 ≤ (escaped point).length := by
  have written := escaped_is point
  generalize escaped point = text at written
  cases written <;> simp [unitEscape]

theorem string_written {units : List Nat} (few : ∀ unit ∈ units, unit < 0x10000) (rest : List Char) :
    string ((codePoints units).flatMap escaped ++ '"'::rest) = (text units).map (fun text => (text,rest)) := by
  have length (points : List Nat) : points.length ≤ (points.flatMap escaped).length := by
    induction points with
    | nil => exact Nat.le_refl _
    | cons point points ih =>
      have one := escaped_length point
      simp only [flatMap_cons,length_append,length_cons]
      omega
  refine stringRest_written (codePoints_lt few) (codePoints_apart units) ?_ rest
  have := length (codePoints units)
  simp only [length_append,length_cons]
  omega

private theorem number_head {literal : List Char} (sound : number representable literal = some (literal,[])) :
    ∃ char more, literal = char::more ∧ (char = '-' ∨ char.isDigit = true) := by
  obtain ⟨read,readIs,-⟩ := bind_eq_some_iff.mp sound
  unfold signed at readIs
  split at readIs
  · exact ⟨_,_,rfl,.inl rfl⟩
  · obtain ⟨units,unitsRead,-⟩ := bind_eq_some_iff.mp readIs
    have taken : ∃ read, digits literal = some read := by
      unfold whole at unitsRead
      split at unitsRead
      · cases unitsRead
      · exact ⟨units,unitsRead⟩
    obtain ⟨read,taken⟩ := taken
    cases literal with
    | nil => cases taken
    | cons char literal =>
      refine ⟨char,literal,rfl,.inr ?_⟩
      cases digit : char.isDigit with
      | true => rfl
      | false =>
        unfold digits at taken
        rw [takeWhile_cons_of_neg (by simp [digit])] at taken
        cases taken

theorem skip_cons {char : Char} (solid : isBlank char = false) (rest : List Char) : skip (char::rest) = char::rest :=
  dropWhile_cons_of_neg (by simp [solid])

private theorem starts_number {char : Char} (begins : char = '-' ∨ char.isDigit = true) :
    isBlank char = false ∧ char ≠ 'n' ∧ char ≠ 't' ∧ char ≠ 'f' ∧ char ≠ '"' ∧ char ≠ '[' ∧ char ≠ '{' ∧ char ≠ ']' := by
  rcases begins with rfl | digit
  · decide
  · refine ⟨?_,?_,?_,?_,?_,?_,?_,?_⟩
    · cases blank : isBlank char with
      | false => rfl
      | true =>
        simp only [isBlank,Bool.or_eq_true,decide_eq_true_eq] at blank
        rcases blank with ((rfl | rfl) | rfl) | rfl <;> cases digit
    all_goals
      rintro rfl
      cases digit

private theorem stringify_head {js : Js} (sound : Sound representable js) :
    ∃ char more, stringify js = char::more ∧ isBlank char = false ∧ char ≠ ']' := by
  cases js with
  | null => exact ⟨_,_,rfl,rfl,by decide⟩
  | bool value => cases value <;> exact ⟨_,_,rfl,rfl,by decide⟩
  | number literal =>
    obtain ⟨char,more,same,begins⟩ := number_head representable sound
    have other := starts_number begins
    exact ⟨char,more,same,other.1,other.2.2.2.2.2.2.2⟩
  | string units | array items | object fields => exact ⟨_,_,rfl,rfl,by decide⟩

variable {item : List Char → Option (Value × List Char)} {limit : Nat}

private theorem value_number {literal rest : List Char} (closes : Closes rest)
    (sound : number representable literal = some (literal,[])) :
    value representable limit (literal ++ rest) = some (.number literal,rest) := by
  obtain ⟨char,more,rfl,begins⟩ := number_head representable sound
  obtain ⟨solid,n,t,f,quote,bracket,brace,-⟩ := starts_number begins
  have read := number_append representable (.inr closes) sound
  rw [cons_append] at read ⊢
  have each (item : Option (List Char → Option (Value × List Char))) :
      valueWith representable item (char::(more ++ rest)) = some (.number (char::more),rest) := by
    rw [valueWith,skip_cons solid]
    simp only [if_neg n,if_neg t,if_neg f,if_neg quote,if_neg bracket,if_neg brace,read]
    rfl
  cases limit <;> exact each _

private theorem value_string {units : List Nat} (few : ∀ unit ∈ units, unit < 0x10000) (rest : List Char) :
    value representable limit (quote units ++ rest) = (text units).map (fun text => (.string text,rest)) := by
  have each (item : Option (List Char → Option (Value × List Char))) :
      valueWith representable item (quote units ++ rest) = (text units).map (fun text => (.string text,rest)) := by
    have inner := string_written few rest
    change (string ((codePoints units).flatMap escaped ++ ['"'] ++ rest)).map _ = _
    rw [append_assoc]
    change (string ((codePoints units).flatMap escaped ++ '"'::rest)).map _ = _
    rw [inner,Option.map_map]
    rfl
  cases limit <;> exact each _

private theorem items_length (items : List Js) (sound : SoundItems representable items) :
    items.length ≤ (stringifyItems items).length := by
  induction items with
  | nil => exact Nat.le_refl _
  | cons item items ih =>
    obtain ⟨char,more,same,-⟩ := stringify_head representable sound.1
    have later := ih sound.2
    cases items with
    | nil => simp [stringifyItems,same]
    | cons next rest =>
      simp only [stringifyItems,same,length_cons,length_append] at later ⊢
      omega

private theorem fields_length (fields : List (List Nat × Js)) : fields.length ≤ (stringifyFields fields).length := by
  induction fields with
  | nil => exact Nat.le_refl _
  | cons field fields ih =>
    cases fields with
    | nil => simp [stringifyFields,quote]
    | cons next rest =>
      simp only [stringifyFields,length_cons,length_append] at ih ⊢
      omega

/-- The reader takes this value as it is written, if it is whole and no deeper than the limit. -/
private def Reads (item : List Char → Option (Value × List Char)) (limit : Nat) (js : Js) : Prop :=
  ∀ rest, Closes rest → item (stringify js ++ rest) = (within limit js).map (fun read => (read,rest))

private theorem closes_cons {char : Char} (closing : char = ',' ∨ char = ']' ∨ char = '\x7d') (rest : List Char) :
    Closes (char::rest) := by
  intro first mem
  cases mem
  exact closing

private theorem elements_stringify {items : List Js}
    (some' : items ≠ []) (reads : ∀ js ∈ items, Reads item limit js) {fuel : Nat} (enough : items.length ≤ fuel)
    (rest : List Char) : elements item fuel (stringifyItems items ++ ']'::rest) =
      (withinItems limit items).map (fun read => (read,rest)) := by
  induction items generalizing fuel with
  | nil => exact absurd rfl some'
  | cons js items ih =>
    cases fuel with
    | zero => cases enough
    | succ fuel =>
      have first := reads js mem_cons_self
      rw [withinItems_cons]
      cases items with
      | nil =>
        rw [stringifyItems,elements,first _ (closes_cons (.inr (.inl rfl)) rest)]
        cases within limit js <;> rfl
      | cons next more =>
        have later := ih (cons_ne_nil _ _) (fun js mem => reads js (mem_cons_of_mem _ mem))
          (Nat.le_of_succ_le_succ enough)
        rw [stringifyItems,append_assoc,cons_append,elements,first _ (closes_cons (.inl rfl) _)]
        cases within limit js with
        | none => rfl
        | some value =>
          change (elements item fuel (stringifyItems (next::more) ++ ']'::rest) >>= _) = _
          rw [later]
          cases withinItems limit (next::more) <;> rfl

private theorem members_key (item : List Char → Option (Value × List Char)) (fuel : Nat) {key : List Nat}
    (few : ∀ unit ∈ key, unit < 0x10000) (rest : List Char) :
    members item (fuel + 1) (quote key ++ ':'::rest) = (text key).bind (fun key => (item rest).bind (fun read =>
      match skip read.2 with
      | '\x7d'::rest => some ([(key,read.1)],rest)
      | ','::rest => (members item fuel rest).bind (fun later => some ((key,read.1)::later.1,later.2))
      | _ => none)) := by
  have name := string_written few (':'::rest)
  have whole : quote key ++ ':'::rest = '"'::((codePoints key).flatMap escaped ++ '"'::(':'::rest)) := by
    simp [quote]
  rw [whole,members,skip_cons rfl]
  simp only [name]
  cases text key with
  | none => rfl
  | some key => rfl

private theorem members_stringify {fields : List (List Nat × Js)}
    (some' : fields ≠ []) (keys : ∀ field ∈ fields, ∀ unit ∈ field.1, unit < 0x10000)
    (reads : ∀ field ∈ fields, Reads item limit field.2) {fuel : Nat} (enough : fields.length ≤ fuel) (rest : List Char) :
    members item fuel (stringifyFields fields ++ '\x7d'::rest) =
      (withinFields limit fields).map (fun read => (read,rest)) := by
  induction fields generalizing fuel with
  | nil => exact absurd rfl some'
  | cons field fields ih =>
    obtain ⟨key,js⟩ := field
    cases fuel with
    | zero => cases enough
    | succ fuel =>
      have first := reads (key,js) mem_cons_self
      have few := keys (key,js) mem_cons_self
      rw [withinFields_cons]
      cases fields with
      | nil =>
        rw [stringifyFields,append_assoc,cons_append,members_key item fuel few,
          first _ (closes_cons (.inr (.inr rfl)) rest)]
        cases text key with
        | none => rfl
        | some key => cases within limit js <;> rfl
      | cons next more =>
        have later := ih (cons_ne_nil _ _) (fun field mem => keys field (mem_cons_of_mem _ mem))
          (fun field mem => reads field (mem_cons_of_mem _ mem)) (Nat.le_of_succ_le_succ enough)
        rw [stringifyFields,append_assoc,cons_append,append_assoc,cons_append,
          members_key item fuel few,first _ (closes_cons (.inl rfl) _)]
        cases text key with
        | none => rfl
        | some key =>
          cases within limit js with
          | none => rfl
          | some value =>
            change (members item fuel (stringifyFields (next::more) ++ '\x7d'::rest)).bind _ = _
            rw [later]
            cases withinFields limit (next::more) <;> rfl

private theorem sound_items {items : List Js} (sound : SoundItems representable items) : ∀ js ∈ items, Sound representable js := by
  induction items with
  | nil => exact fun _ mem => absurd mem not_mem_nil
  | cons item items ih => exact forall_mem_cons.mpr ⟨sound.1,ih sound.2⟩

private theorem sound_fields {fields : List (List Nat × Js)} (sound : SoundFields representable fields) :
    ∀ field ∈ fields, (∀ unit ∈ field.1, unit < 0x10000) ∧ Sound representable field.2 := by
  induction fields with
  | nil => exact fun _ mem => absurd mem not_mem_nil
  | cons field fields ih => exact forall_mem_cons.mpr ⟨⟨sound.1,sound.2.1⟩,ih sound.2.2⟩

private theorem within_array (limit : Nat) (items : List Js) :
    within (limit + 1) (.array items) = (withinItems limit items).map .array := by
  unfold within withinItems
  rw [depth,ofJs]
  by_cases fits : itemsDepth items ≤ limit
  · rw [if_pos (Nat.succ_le_succ fits),if_pos fits]
  · rw [if_neg (fun more => fits (Nat.le_of_succ_le_succ more)),if_neg fits]
    rfl

private theorem within_object (limit : Nat) (fields : List (List Nat × Js)) :
    within (limit + 1) (.object fields) = (withinFields limit fields).map .object := by
  unfold within withinFields
  rw [depth,ofJs]
  by_cases fits : fieldsDepth fields ≤ limit
  · rw [if_pos (Nat.succ_le_succ fits),if_pos fits]
  · rw [if_neg (fun more => fits (Nat.le_of_succ_le_succ more)),if_neg fits]
    rfl

private theorem array_stringify {items : List Js}
    (sound : SoundItems representable items) (reads : ∀ js ∈ items, Reads item limit js) (rest : List Char) :
    array item (stringifyItems items ++ ']'::rest) = (within (limit + 1) (.array items)).map (fun read => (read,rest)) := by
  rw [within_array]
  cases items with
  | nil => rfl
  | cons js items =>
    have length := items_length representable (js::items) sound
    obtain ⟨char,more,head,solid,other⟩ := stringify_head representable sound.1
    have written : ∃ tail, stringifyItems (js::items) ++ ']'::rest = char::tail := by
      cases items with
      | nil | cons next items => exact ⟨_,by rw [stringifyItems,head]; rfl⟩
    obtain ⟨tail,written⟩ := written
    have inner := elements_stringify (cons_ne_nil js items) reads (Nat.le_trans length (Nat.le_add_right _ (rest.length + 1))) rest
    have enough : (stringifyItems (js::items)).length + (rest.length + 1) = (stringifyItems (js::items) ++ ']'::rest).length := by
      rw [length_append,length_cons]
    rw [enough,written] at inner
    unfold array
    rw [written,skip_cons solid]
    split
    · next same => exact absurd (List.cons.inj same).1 other
    · rw [inner,Option.map_map,Option.map_map]
      rfl

private theorem object_stringify {fields : List (List Nat × Js)}
    (sound : SoundFields representable fields) (reads : ∀ field ∈ fields, Reads item limit field.2) (rest : List Char) :
    object item (stringifyFields fields ++ '\x7d'::rest) = (within (limit + 1) (.object fields)).map (fun read => (read,rest)) := by
  rw [within_object]
  cases fields with
  | nil => rfl
  | cons field fields =>
    obtain ⟨key,js⟩ := field
    have length := fields_length ((key,js)::fields)
    have written : ∃ tail, stringifyFields ((key,js)::fields) ++ '\x7d'::rest = '"'::tail := by
      cases fields with
      | nil => exact ⟨_,rfl⟩
      | cons next fields => exact ⟨_,rfl⟩
    obtain ⟨tail,written⟩ := written
    have inner := members_stringify (cons_ne_nil (key,js) fields)
      (fun field mem => (sound_fields representable sound field mem).1) reads
      (Nat.le_trans length (Nat.le_add_right _ (rest.length + 1))) rest
    have enough : (stringifyFields ((key,js)::fields)).length + (rest.length + 1) =
        (stringifyFields ((key,js)::fields) ++ '\x7d'::rest).length := by
      rw [length_append,length_cons]
    rw [enough,written] at inner
    unfold object
    rw [written,skip_cons rfl]
    change (members item _ _).map _ = _
    rw [inner,Option.map_map,Option.map_map]
    rfl

theorem value_stringify (js : Js) (limit : Nat) (sound : Sound representable js) {rest : List Char} (closes : Closes rest) :
    value representable limit (stringify js ++ rest) = (within limit js).map (fun read => (read,rest)) := by
  have each : ∀ limit, Sound representable js → Reads (value representable limit) limit js := by
    refine Inside.all (motive := fun js => ∀ limit, Sound representable js → Reads (value representable limit) limit js) ?_ js
    constructor
    case null =>
      intro limit _ rest _
      cases limit <;> rfl
    case bool =>
      intro value limit _ rest _
      cases limit <;> cases value <;> rfl
    case number =>
      intro literal limit sound rest closes
      exact value_number representable closes sound
    case string =>
      intro units limit sound rest _
      refine (value_string representable sound rest).trans ?_
      simp only [within,depth,Nat.zero_le,if_true,ofJs,Option.map_map]
      rfl
    case array =>
      intro items each limit sound rest _
      cases limit with
      | zero => rfl
      | succ limit =>
        refine Eq.trans ?_ (array_stringify representable sound
          (fun js mem => each js mem limit (sound_items representable sound js mem)) rest)
        rw [stringify,cons_append,append_assoc]
        rfl
    case object =>
      intro fields each limit sound rest _
      cases limit with
      | zero => rfl
      | succ limit =>
        refine Eq.trans ?_ (object_stringify representable sound
          (fun field mem => each field mem limit (sound_fields representable sound field mem).2) rest)
        rw [stringify,cons_append,append_assoc]
        rfl
  exact each limit sound rest closes

theorem read_stringify {js : Js} (sound : Sound representable js) : read representable (stringify js) = within MAX_DEPTH js := by
  have ends : Closes [] := fun _ mem => absurd mem (not_mem_none _)
  have first := value_stringify representable js MAX_DEPTH sound ends
  rw [append_nil] at first
  unfold read
  rw [first]
  cases within MAX_DEPTH js <;> rfl

end Depsis.Foundation.Json

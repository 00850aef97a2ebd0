import Depsis.Agent.Envelope

/-! What the API writes around a request, read by the agent: taken as it was meant, unless a cut
went through a pair of code units.
-/
namespace Depsis.Agent.Envelope

open Depsis.Foundation Depsis.Foundation.Json Depsis.Foundation.JsString List Option Bool

def blanked (chars : List Char) : List Char := chars.map (fun char => if charIsControl char then ' ' else char)

private theorem stripControl_units (chars : List Char) : stripControl (chars.flatMap units) = (blanked chars).flatMap units := by
  have points := codePoints_units chars []
  rw [append_nil] at points
  unfold stripControl blanked
  rw [points,codePoints,append_nil,flatMap_map,flatMap_map]
  apply flatMap_congr
  intro char _
  change (if charIsControl char then [0x20] else units char) = _
  split <;> rfl

private theorem blanked_clean (chars : List Char) : ∀ char ∈ blanked chars, charIsControl char = false := by
  intro char mem
  obtain ⟨char,_,rfl⟩ := mem_map.mp mem
  split
  · rfl
  · next plain => exact eq_false_iff.mpr plain

private def blankUnit (unit : Nat) : Nat := if isControl unit then 0x20 else unit

private theorem blanked_units (char : Char) :
    units (if charIsControl char then ' ' else char) = (units char).map blankUnit := by
  by_cases control : charIsControl char
  · have one : units char = [char.toNat] := by
      unfold charIsControl at control
      simp only [or_eq_true,and_eq_true,decide_eq_true_eq] at control
      exact if_pos (by omega)
    rw [if_pos control,one,map_singleton,blankUnit]
    exact congrArg (fun unit => [unit]) (if_pos control).symm
  · have high {unit : Nat} (surrogate : 0xD800 ≤ unit) : blankUnit unit = unit := by
      refine if_neg ?_
      simp only [isControl,or_eq_true,and_eq_true,decide_eq_true_eq]
      omega
    rw [if_neg control]
    unfold units
    split
    · rw [map_singleton,blankUnit]
      exact congrArg (fun unit => [unit]) (if_neg control).symm
    · rw [map_cons,map_singleton,high (by omega),high (by omega)]

private theorem parts_blanked (limit : Nat) (chars : List Char) : parts limit (blanked chars) = parts limit chars := by
  have mapped : (blanked chars).flatMap units = (chars.flatMap units).map blankUnit := by
    unfold blanked
    rw [flatMap_map,map_flatMap]
    exact flatMap_congr (fun char _ => blanked_units char)
  unfold parts
  rw [mapped,getElem?_map,Option.any_map]
  cases (chars.flatMap units)[limit - 1]? with
  | none => rfl
  | some unit =>
    change isLead (blankUnit unit) = isLead unit
    unfold blankUnit
    split
    · next control =>
      simp only [isControl,or_eq_true,and_eq_true,decide_eq_true_eq] at control
      have plain : isLead unit = false := by
        simp only [isLead,and_eq_false_iff,decide_eq_false_iff_not]
        omega
      rw [plain]
      rfl
    · rfl

private structure Fits (limit : Nat) (chars : List Char) : Prop where
  short : chars.length ≤ limit
  clean : ∀ char ∈ chars, charIsControl char = false

private theorem length_units (chars : List Char) : chars.length ≤ (chars.flatMap units).length := by
  induction chars with
  | nil => exact Nat.le_refl _
  | cons char chars ih =>
    have one : 1 ≤ (units char).length := by
      unfold units
      split <;> simp
    rw [flatMap_cons,length_append,length_cons]
    omega

private theorem Fits.sublist {limit : Nat} {chars fewer : List Char} (fits : Fits limit chars) (sub : fewer.Sublist chars) :
    Fits limit fewer := ⟨sub.length_le.trans fits.short,fun char mem => fits.clean char (sub.subset mem)⟩

private theorem kept {count : Nat} {chars : List Char} (whole : parts (count + 1) chars = false) :
    ∃ kept, Fits (count + 1) kept ∧ (stripControl (chars.flatMap units)).take (count + 1) = kept.flatMap units := by
  rw [stripControl_units]
  rcases take_units (blanked chars) count with ⟨half,_⟩ | ⟨_,kept,front,taken⟩
  · rw [parts_blanked,whole] at half
    cases half
  · refine ⟨kept,⟨?_,?_⟩,taken⟩
    · have short := length_units kept
      rw [← taken,length_take] at short
      omega
    · exact fun char mem => blanked_clean chars char (front.subset mem)

private theorem halved {count : Nat} {chars : List Char} (half : parts (count + 1) chars = true) :
    ∃ (front : List Char) (lead : Nat), isLead lead = true ∧ (stripControl (chars.flatMap units)).take (count + 1) = front.flatMap units ++ [lead] := by
  rw [stripControl_units]
  rcases take_units (blanked chars) count with ⟨_,front,lead,is,_,taken⟩ | ⟨whole,_⟩
  · exact ⟨front,lead,is,taken⟩
  · rw [parts_blanked,half] at whole
    cases whole

private theorem reason_text (chars : List Char) :
    (∀ text', text (sanitiseReason (chars.flatMap units)) = some text' → Fits MAX_REASON text') ∧
      ((text (sanitiseReason (chars.flatMap units))).isSome = true ↔ parts MAX_REASON chars = false) := by
  unfold sanitiseReason
  cases cut : parts MAX_REASON chars with
  | false =>
    obtain ⟨kept,fits,taken⟩ := kept cut
    rw [show MAX_REASON = 199 + 1 from rfl,taken,text_units]
    refine ⟨?_,by simp⟩
    intro text' same
    cases same
    exact fits
  | true =>
    obtain ⟨front,lead,is,taken⟩ := halved cut
    rw [show MAX_REASON = 199 + 1 from rfl,taken,text_lead front is]
    exact ⟨fun _ none => absurd none (not_mem_none _),by simp⟩

private theorem id_text {chars : List Char} {clean : List Nat} (accepted : sanitiseCorrelationId (chars.flatMap units) = some clean) :
    (∀ text', text clean = some text' → Fits MAX_CORRELATION_ID text') ∧
      ((text clean).isSome = true ↔ parts MAX_CORRELATION_ID chars = false) := by
  unfold sanitiseCorrelationId at accepted
  dsimp only at accepted
  split at accepted
  · cases accepted
  cases accepted
  cases cut : parts MAX_CORRELATION_ID chars with
  | false =>
    obtain ⟨kept,fits,taken⟩ := kept cut
    rw [show MAX_CORRELATION_ID = 63 + 1 from rfl,taken,trim_units,text_units]
    refine ⟨?_,by simp⟩
    intro text' same
    cases same
    exact fits.sublist (trimChars_sublist kept)
  | true =>
    obtain ⟨front,lead,is,taken⟩ := halved cut
    rw [show MAX_CORRELATION_ID = 63 + 1 from rfl,taken,trim_lead front is,text_lead _ is]
    exact ⟨fun _ none => absurd none (not_mem_none _),by simp⟩

variable {representable : List Char → Bool} {explain : List Char → String} {reencode : Value → List Char}

private theorem read_line {id reason : List Nat} {request : Js} (idFew : ∀ unit ∈ id, unit < 0x10000)
    (reasonFew : ∀ unit ∈ reason, unit < 0x10000) (sound : Sound representable request) :
    read representable (line id reason request) =
      if depth request ≤ 126 then
        (text id).bind (fun id => (text reason).bind (fun reason => (ofJs request).map (fun request =>
          .object [("correlation_id".toList,.string id),("reason".toList,.string reason),("request".toList,request)])))
      else none := by
  have whole : Sound representable (.object [(name "correlation_id",.string id),(name "reason",.string reason),(name "request",request)]) :=
    ⟨units_lt _,idFew,units_lt _,reasonFew,units_lt _,sound,trivial⟩
  unfold line
  rw [read_stringify representable whole,within]
  have deep : depth (.object [(name "correlation_id",.string id),(name "reason",.string reason),(name "request",request)]) =
      depth request + 1 := by
    simp only [depth,fieldsDepth,Nat.max_zero,Nat.zero_max]
  rw [deep]
  by_cases fits : depth request ≤ 126
  · rw [if_pos (show depth request + 1 ≤ MAX_DEPTH from Nat.succ_le_succ fits),if_pos fits]
    simp only [ofJs,ofFields,name,text_units,bind_eq_bind,bind_some]
    cases text id with
    | none => rfl
    | some id =>
      cases text reason with
      | none => rfl
      | some reason => cases ofJs request <;> rfl
  · rw [if_neg (fun more : depth request + 1 ≤ MAX_DEPTH => fits (Nat.le_of_succ_le_succ more)),if_neg fits]

private theorem settle_three {first second third : List Char} (order : first < second) (later : second < third) (a b c : Value) :
    settle (.object [(first,a),(second,b),(third,c)]) = .object [(first,settle a),(second,settle b),(third,settle c)] := by
  have across := lt_trans order later
  rw [settle,settleFields,settleFields,settleFields,settleFields]
  simp only [Json.insert,if_neg (ne_of_gt order),if_neg (not_lt_of_gt order),if_neg (ne_of_gt across),if_neg (not_lt_of_gt across),
    if_neg (ne_of_gt later),if_neg (not_lt_of_gt later)]

private theorem field_fits {fields : List (List Char × Value)} {key : String} {limit : Nat} {raw : List Char}
    (found : get fields key = some (.string raw)) (fits : Fits limit raw) : field fields key limit = .ok raw := by
  have clean : raw.any charIsControl = false := any_eq_false.mpr (fun char mem => by rw [fits.clean char mem]; exact Bool.false_ne_true)
  rw [field,found]
  dsimp only
  rw [if_neg (Nat.not_lt.mpr fits.short),clean,if_neg Bool.false_ne_true]

private theorem split_three {text : List Char} {id reason : List Char} {request : Value}
    (read : fromStr representable text =
      some (.object [("correlation_id".toList,.string id),("reason".toList,.string reason),("request".toList,request)]))
    (idFits : Fits 64 id) (reasonFits : Fits 200 reason) :
    splitEnvelope representable explain reencode text = .ok (id,reason,reencode request) := by
  let fields : List (List Char × Value) :=
    [("correlation_id".toList,.string id),("reason".toList,.string reason),("request".toList,request)]
  have first : field fields "correlation_id" 64 = .ok id := field_fits rfl idFits
  have second : field fields "reason" 200 = .ok reason := field_fits rfl reasonFits
  have third : get fields "request" = some request := rfl
  unfold splitEnvelope
  rw [read]
  dsimp only
  rw [first,second,third]
  rfl

/-- The agent takes the line as it was meant: the id and the reason as they were cleaned, and the
request that was sent.
-/
def Taken (representable : List Char → Bool) (explain : List Char → String) (reencode : Value → List Char)
    (clean reason : List Nat) (request : Js) : Prop :=
  ∃ id' reason' request', text clean = some id' ∧ text reason = some reason' ∧ ofJs request = some request' ∧
    splitEnvelope representable explain reencode (line clean reason request) = .ok (id',reason',reencode (settle request'))

structure Answered (representable : List Char → Bool) (explain : List Char → String) (reencode : Value → List Char)
    (id reason : List Char) (clean : List Nat) (request : Js) : Prop where
  taken : Taken representable explain reencode clean (sanitiseReason (reason.flatMap units)) request ↔
    parts MAX_CORRELATION_ID id = false ∧ parts MAX_REASON reason = false ∧ depth request ≤ 126
  refused : ¬(parts MAX_CORRELATION_ID id = false ∧ parts MAX_REASON reason = false ∧ depth request ≤ 126) →
    splitEnvelope representable explain reencode (line clean (sanitiseReason (reason.flatMap units)) request) =
      .error ("malformed envelope: " ++ explain (line clean (sanitiseReason (reason.flatMap units)) request))

private theorem sanitised_lt (chars : List Char) : ∀ unit ∈ stripControl (chars.flatMap units), unit < 0x10000 := by
  rw [stripControl_units]
  exact units_lt _

private theorem clean_lt {chars : List Char} {clean : List Nat} (accepted : sanitiseCorrelationId (chars.flatMap units) = some clean) :
    ∀ unit ∈ clean, unit < 0x10000 := by
  unfold sanitiseCorrelationId at accepted
  dsimp only at accepted
  split at accepted
  · cases accepted
  cases accepted
  intro unit mem
  have back := mem_reverse.mp mem
  have front := mem_reverse.mp ((dropWhile_sublist isSpaceUnit).subset back)
  exact sanitised_lt chars unit (mem_of_mem_take ((dropWhile_sublist isSpaceUnit).subset front))

private theorem answered (representable : List Char → Bool) (explain : List Char → String) (reencode : Value → List Char)
    (reason : List Char) {id : List Char} {clean : List Nat} {request : Js} (accepted : sanitiseCorrelationId (id.flatMap units) = some clean)
    (sound : Sound representable request) (whole : (ofJs request).isSome = true) :
    Answered representable explain reencode id reason clean request := by
  have reasonFew : ∀ unit ∈ sanitiseReason (reason.flatMap units), unit < 0x10000 :=
    fun unit mem => sanitised_lt reason unit (mem_of_mem_take mem)
  have got := read_line (clean_lt accepted) reasonFew sound
  obtain ⟨idFits,idWhole⟩ := id_text accepted
  obtain ⟨reasonFits,reasonWhole⟩ := reason_text reason
  obtain ⟨request',made⟩ := isSome_iff_exists.mp whole
  have refused (cut : ¬(parts MAX_CORRELATION_ID id = false ∧ parts MAX_REASON reason = false ∧ depth request ≤ 126)) :
      splitEnvelope representable explain reencode (line clean (sanitiseReason (reason.flatMap units)) request) =
        .error ("malformed envelope: " ++ explain (line clean (sanitiseReason (reason.flatMap units)) request)) := by
    have unread : read representable (line clean (sanitiseReason (reason.flatMap units)) request) = none := by
      rw [got]
      split
      · next deep =>
        cases idRead : text clean with
        | none => rfl
        | some id' =>
          cases reasonRead : text (sanitiseReason (reason.flatMap units)) with
          | none => rfl
          | some reason' =>
            rw [idRead,isSome_some] at idWhole
            rw [reasonRead,isSome_some] at reasonWhole
            exact absurd ⟨idWhole.mp rfl,reasonWhole.mp rfl,deep⟩ cut
      · rfl
    unfold splitEnvelope fromStr
    rw [unread]
    rfl
  refine ⟨⟨?_,?_⟩,refused⟩
  · rintro ⟨id',reason',request',_,_,_,split⟩
    by_contra cut
    rw [refused cut] at split
    cases split
  · rintro ⟨idCut,reasonCut,deep⟩
    obtain ⟨id',idRead⟩ := isSome_iff_exists.mp (idWhole.mpr idCut)
    obtain ⟨reason',reasonRead⟩ := isSome_iff_exists.mp (reasonWhole.mpr reasonCut)
    refine ⟨id',reason',request',idRead,reasonRead,made,split_three ?_ (idFits id' idRead) (reasonFits reason' reasonRead)⟩
    rw [if_pos deep,idRead,reasonRead,made] at got
    unfold fromStr
    rw [got]
    exact congrArg some (settle_three (by decide) (by decide) _ _ _)

/-- A line of the API is taken as it was meant exactly where neither the reason nor the id is cut
through a pair of code units.
-/
theorem envelope_taken (representable : List Char → Bool) (explain : List Char → String) (reencode : Value → List Char)
    (reason id : List Char) (clean : List Nat) (request : Js) (accepted : sanitiseCorrelationId (id.flatMap units) = some clean)
    (sound : Sound representable request) (whole : (ofJs request).isSome = true) :
    Answered representable explain reencode id reason clean request :=
  answered representable explain reencode reason accepted sound whole

theorem envelope_taken_plain :
    Answered (fun _ => true) (fun _ => "") (fun _ => []) ['a'] ['b'] [97] .null :=
  envelope_taken (fun _ => true) (fun _ => "") (fun _ => []) ['b'] ['a'] [97] .null (by decide) trivial rfl

/-- A reason whose two hundredth unit is the first half of a character is refused. -/
theorem halved_reason_refused :
    ¬Taken (fun _ => true) (fun _ => "") (fun _ => []) [97]
      (sanitiseReason ((List.replicate 199 'a' ++ [Char.ofNat 0x1F600]).flatMap units)) .null := by
  intro taken
  have accepted : sanitiseCorrelationId (['a'].flatMap units) = some [97] := by decide
  have sound : Sound (fun _ => true) .null := trivial
  have both := (answered (fun _ => true) (fun _ => "") (fun _ => []) (List.replicate 199 'a' ++ [Char.ofNat 0x1F600]) accepted
    sound rfl).taken.mp taken
  exact absurd both.2.1 (by decide +kernel)

end Depsis.Agent.Envelope

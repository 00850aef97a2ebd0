import Depsis.Remote.Members

/-! A member the owner has removed stays removed, as long as no round and no renaming has read it when the removal
is carried out, and no stamp is given with a clock behind the one it is compared with.
-/
namespace Depsis.Remote

open Depsis.Foundation List AList Option Bool

variable {state next final : State} {event : Event} {call : Nat} {asked later : Call} {member userId label : String} {now : Int}

def Call.holds (member : String) : Call → Bool
  | .authorize todo => todo.contains member
  | .recordRound other rest => other = member || rest.contains member
  | .rename other authorized _ => other = member && authorized
  | _ => false

def Call.rounds (member : String) : Call → Bool
  | .authorize todo => todo.contains member
  | .recordRound other rest => other = member || rest.contains member
  | _ => false

def Call.removes (member : String) : Call → Bool
  | .record _ other authorized _ => other = member && !authorized
  | _ => false

def State.idle (state : State) (test : Call → Bool) : Bool := state.calls.all (fun _ asked => !test asked)

def Event.spares (state : State) : Event → Bool
  | .goes call now => (state.calls.lookup call).all (fun asked =>
      match asked with
      | .set _ member false _ => state.idle (Call.holds member)
      | .record _ member false _ => state.idle (Call.holds member) &&
          ((state.records.lookup member).bind MemberRow.authorizedAt).all (fun before => before ≤ now)
      | .record _ member true _ => ((state.records.lookup member).bind MemberRow.deauthorizedAt).all (fun before => before < now)
      | .recordRound member _ => ((state.records.lookup member).bind MemberRow.deauthorizedAt).all (fun before => before < now)
      | .records found => found.all (fun member =>
          removedByOwner (state.records.lookup member) || state.idle (Call.removes member))
      | .current member _ => (state.controller.lookup member).all (fun row => !row.authorized) || state.idle (Call.removes member)
      | _ => true)
  | _ => true

structure Kept (state : State) : Prop where
  stamps : ∀ member, removedByOwner (state.records.lookup member) = true ↔ state.decided.lookup member = some false
  gone : ∀ member ∈ state.removed, state.decided.lookup member = some false ∧ state.asked.lookup member = some false
  out : ∀ member, member ∈ state.removed ∨ state.idle (Call.removes member) = false → state.asked.lookup member = some false →
    (state.controller.lookup member).all (fun row => !row.authorized) = true
  free : ∀ member, member ∈ state.removed ∨ state.idle (Call.removes member) = false → state.idle (Call.holds member) = true
  opened : ∀ member, state.idle (Call.rounds member) = false → state.decided.lookup member ≠ some false
  allowed : ∀ letting ∈ state.lettings, letting.against = false

theorem idle_false {test : Call → Bool} : state.idle test = false ↔ ∃ call asked, state.calls.lookup call = some asked ∧ test asked = true := by
  rw [← not_eq_true,State.idle,all_iff]
  push Not
  simp

theorem idle_of_found {test : Call → Bool} (found : state.calls.lookup call = some asked) (passes : test asked = true) : state.idle test = false :=
  idle_false.mpr ⟨call,asked,found,passes⟩

theorem idle_continues {test : Call → Bool} (busy : (state.continues call later).idle test = false) :
    test later = true ∨ state.idle test = false := by
  obtain ⟨other,there,found,passes⟩ := idle_false.mp busy
  have found : (state.calls.insert call later).lookup other = some there := found
  rcases lookup_insert_cases found with ⟨-,rfl⟩ | ⟨-,found⟩
  · exact .inl passes
  · exact .inr (idle_of_found found passes)

theorem idle_ends {test : Call → Bool} (busy : (state.ends call).idle test = false) : state.idle test = false := by
  obtain ⟨other,there,found,passes⟩ := idle_false.mp busy
  have found : (state.calls.erase call).lookup other = some there := found
  obtain ⟨-,found⟩ := lookup_erase_some found
  exact idle_of_found found passes

theorem Kept.held (kept : Kept state) (found : state.calls.lookup call = some asked) (holds : asked.holds member = true) :
    member ∉ state.removed ∧ state.idle (Call.removes member) = true := by
  have busy := @idle_of_found _ _ _ (Call.holds member) found holds
  constructor
  · intro removed
    cases (kept.free member (.inl removed)).symm.trans busy
  · cases removing : state.idle (Call.removes member) with
    | true => rfl
    | false => cases (kept.free member (.inr removing)).symm.trans busy

theorem Kept.ends (kept : Kept state) (call : Nat) : Kept (state.ends call) := by
  have fewer : ∀ {member}, member ∈ state.removed ∨ (state.ends call).idle (Call.removes member) = false →
      member ∈ state.removed ∨ state.idle (Call.removes member) = false := fun either => either.imp id idle_ends
  refine ⟨kept.stamps,kept.gone,fun member either => kept.out member (fewer either),fun member either => ?_,
    fun member busy => kept.opened member (idle_ends busy),kept.allowed⟩
  cases busy : (state.ends call).idle (Call.holds member) with
  | true => rfl
  | false => cases (kept.free member (fewer either)).symm.trans (idle_ends busy)

theorem Kept.continues (kept : Kept state) (call : Nat) (plain : ∀ member, later.removes member = false)
    (holds : ∀ member, later.holds member = true → member ∉ state.removed ∧ state.idle (Call.removes member) = true)
    (rounds : ∀ member, later.rounds member = true → state.decided.lookup member ≠ some false) : Kept (state.continues call later) := by
  have fewer : ∀ {member}, member ∈ state.removed ∨ (state.continues call later).idle (Call.removes member) = false →
      member ∈ state.removed ∨ state.idle (Call.removes member) = false := by
    intro member either
    refine either.imp id (fun busy => ?_)
    rcases idle_continues busy with new | old
    · cases (plain member).symm.trans new
    · exact old
  refine ⟨kept.stamps,kept.gone,fun member either => kept.out member (fewer either),fun member either => ?_,fun member busy => ?_,kept.allowed⟩
  · cases busy : (state.continues call later).idle (Call.holds member) with
    | true => rfl
    | false =>
      rcases idle_continues busy with new | old
      · obtain ⟨unremoved,still⟩ := holds member new
        rcases fewer either with removed | removing
        · exact absurd removed unremoved
        · cases still.symm.trans removing
      · cases (kept.free member (fewer either)).symm.trans old
  · rcases idle_continues busy with new | old
    · exact rounds member new
    · exact kept.opened member old

theorem setAuthorized_lookup (state : State) (member other : String) (authorized : Bool) (text : Option String) :
    ((state.setAuthorized member authorized text).controller.lookup other).all (fun row => !row.authorized) =
      if other = member then !authorized else (state.controller.lookup other).all (fun row => !row.authorized) := by
  simp only [State.setAuthorized,lookup_insert_eq]
  split <;> rfl

theorem recorded_removal (before : Option MemberRow) (text : Option String)
    (clock : (before.bind MemberRow.authorizedAt).all (fun stamp => stamp ≤ now) = true) :
    removedByOwner (some (recorded before userId false text now)) = true := by
  cases before with
  | none => rfl
  | some row =>
    simp only [recorded,removedByOwner,false_eq_true,if_false]
    cases stamp : row.authorizedAt with
    | none => rfl
    | some authorized => simpa [stamp] using clock

theorem recorded_authorization (before : Option MemberRow) (text : Option String)
    (clock : (before.bind MemberRow.deauthorizedAt).all (fun stamp => stamp < now) = true) :
    removedByOwner (some (recorded before userId true text now)) = false := by
  cases before with
  | none => rfl
  | some row =>
    simp only [recorded,removedByOwner,if_true]
    cases stamp : row.deauthorizedAt with
    | none => rfl
    | some deauthorized => simpa [stamp] using clock

theorem relabelled_removed (before : Option MemberRow) (label : String) : removedByOwner (some (relabelled before label)) = removedByOwner before := by
  cases before <;> rfl

theorem record_lookup (state : State) (userId member other : String) (authorized : Bool) (text : Option String) (now : Int) :
    (state.record userId member authorized text now).records.lookup other =
      if other = member then some (recorded (state.records.lookup member) userId authorized text now) else state.records.lookup other :=
  lookup_insert_eq _ _ _ _

section

variable (kept : Kept state)
include kept

theorem Kept.lets (text : Option String) (unremoved : member ∉ state.removed)
    (still : state.idle (Call.removes member) = true) : Kept ((state.setAuthorized member true text).lets member) := by
  refine ⟨kept.stamps,kept.gone,fun other either asked => ?_,kept.free,kept.opened,fun letting listed => ?_⟩
  · change ((state.setAuthorized member true text).controller.lookup other).all (fun row => !row.authorized) = true
    rw [setAuthorized_lookup]
    split
    next here =>
      subst here
      rcases either with removed | removing
      · exact absurd removed unremoved
      · cases still.symm.trans removing
    next => exact kept.out other either asked
  · rcases mem_append.mp listed with before | here
    · exact kept.allowed letting before
    · cases mem_singleton.mp here
      exact contains_eq_mem member state.removed ▸ decide_eq_false unremoved

theorem Kept.shuts (member : String) (text : Option String) : Kept (state.setAuthorized member false text) := by
  refine ⟨kept.stamps,kept.gone,fun other either asked => ?_,kept.free,kept.opened,kept.allowed⟩
  rw [setAuthorized_lookup]
  split
  next => rfl
  next => exact kept.out other either asked

theorem Kept.relabels (member label : String) : Kept (state.recordLabel member label) := by
  refine ⟨fun other => ?_,kept.gone,kept.out,kept.free,kept.opened,kept.allowed⟩
  change removedByOwner ((state.records.insert member (relabelled (state.records.lookup member) label)).lookup other) = true ↔ _
  rw [lookup_insert_eq]
  split
  next here =>
    subst here
    rw [relabelled_removed]
    exact kept.stamps other
  next => exact kept.stamps other

theorem Kept.removing {text : Option String} (clear : state.idle (Call.holds member) = true) :
    Kept (((state.setAuthorized member false text).asks member false).continues call (.record userId member false text)) := by
  have fewer : ∀ {other}, other ≠ member → other ∈ state.removed ∨
      (((state.setAuthorized member false text).asks member false).continues call (.record userId member false text)).idle
        (Call.removes other) = false → other ∈ state.removed ∨ state.idle (Call.removes other) = false := by
    intro other apart either
    refine either.imp id (fun busy => ?_)
    rcases idle_continues busy with new | old
    · have same : member = other := by simpa [Call.removes] using new
      exact absurd same.symm apart
    · exact old
  have asked : ∀ other, (state.asked.insert member false).lookup other = if other = member then some false else state.asked.lookup other :=
    fun other => lookup_insert_eq _ _ _ _
  refine ⟨kept.stamps,fun other removed => ⟨(kept.gone other removed).1,?_⟩,fun other either word => ?_,fun other either => ?_,
    fun other busy => ?_,kept.allowed⟩
  · refine (asked other).trans ?_
    split
    next => rfl
    next => exact (kept.gone other removed).2
  · change ((state.setAuthorized member false text).controller.lookup other).all (fun row => !row.authorized) = true
    rw [setAuthorized_lookup]
    split
    next => rfl
    next apart =>
      have word := (asked other).symm.trans word
      rw [if_neg apart] at word
      exact kept.out other (fewer apart either) word
  · cases busy : (((state.setAuthorized member false text).asks member false).continues call (.record userId member false text)).idle
        (Call.holds other) with
    | true => rfl
    | false =>
      rcases idle_continues busy with new | old
      · cases new
      · have old : state.idle (Call.holds other) = false := old
        by_cases here : other = member
        · subst here
          cases clear.symm.trans old
        · cases (kept.free other (fewer here either)).symm.trans old
  · rcases idle_continues busy with new | old
    · cases new
    · exact kept.opened other old

theorem Kept.admitting (member : String) (text : Option String) :
    Kept ((state.setAuthorized member true text).asks member true) := by
  have asked : ∀ other, (state.asked.insert member true).lookup other = if other = member then some true else state.asked.lookup other :=
    fun other => lookup_insert_eq _ _ _ _
  have kept' : ∀ {other}, other ∈ state.removed.filter (· ≠ member) → other ∈ state.removed ∧ other ≠ member := by
    intro other listed
    obtain ⟨before,apart⟩ := mem_filter.mp listed
    exact ⟨before,of_decide_eq_true apart⟩
  refine ⟨kept.stamps,fun other removed => ?_,fun other either word => ?_,fun other either => ?_,kept.opened,kept.allowed⟩
  · obtain ⟨before,apart⟩ := kept' removed
    refine ⟨(kept.gone other before).1,(asked other).trans ?_⟩
    rw [if_neg apart]
    exact (kept.gone other before).2
  · have word := (asked other).symm.trans word
    split at word
    next => cases word
    next apart =>
      change ((state.setAuthorized member true text).controller.lookup other).all (fun row => !row.authorized) = true
      rw [setAuthorized_lookup,if_neg apart]
      exact kept.out other (either.imp (fun removed => (kept' removed).1) id) word
  · exact kept.free other (either.imp (fun removed => (kept' removed).1) id)

theorem Kept.removed {text : Option String} (found : state.calls.lookup call = some (.record userId member false text))
    (clear : state.idle (Call.holds member) = true)
    (clock : ((state.records.lookup member).bind MemberRow.authorizedAt).all (fun stamp => stamp ≤ now) = true) :
    Kept ((state.record userId member false text now).decides member false) := by
  have removing : state.idle (Call.removes member) = false := idle_of_found found (by simp [Call.removes])
  have decided : ∀ other, (state.decided.insert member false).lookup other = if other = member then some false else state.decided.lookup other :=
    fun other => lookup_insert_eq _ _ _ _
  have before : ∀ {other}, other ∈ ((state.record userId member false text now).decides member false).removed →
      other ∈ state.removed ∨ other = member ∧ state.asked.lookup member = some false := by
    intro other listed
    have listed : other ∈ (if state.asked.lookup member = some false then member :: state.removed else state.removed) := listed
    split at listed
    next word => exact (mem_cons.mp listed).elim (fun same => .inr ⟨same,word⟩) .inl
    next => exact .inl listed
  have either' : ∀ {other}, other ∈ ((state.record userId member false text now).decides member false).removed ∨
      state.idle (Call.removes other) = false → other ∈ state.removed ∨ state.idle (Call.removes other) = false := by
    intro other either
    rcases either with listed | busy
    · rcases before listed with old | ⟨rfl,-⟩
      · exact .inl old
      · exact .inr removing
    · exact .inr busy
  refine ⟨fun other => ?_,fun other listed => ?_,fun other either word => kept.out other (either' either) word,
    fun other either => kept.free other (either' either),fun other busy => ?_,kept.allowed⟩
  · change removedByOwner ((state.record userId member false text now).records.lookup other) = true ↔
      (state.decided.insert member false).lookup other = some false
    rw [record_lookup,decided]
    split
    next => exact ⟨fun _ => rfl,fun _ => recorded_removal _ _ clock⟩
    next => exact kept.stamps other
  · rcases before listed with old | ⟨rfl,word⟩
    · refine ⟨(decided other).trans ?_,(kept.gone other old).2⟩
      split
      next => rfl
      next => exact (kept.gone other old).1
    · exact ⟨(decided other).trans (if_pos rfl),word⟩
  · intro word
    have word := (decided other).symm.trans word
    split at word
    next here =>
      subst here
      obtain ⟨holder,there,stored,rounds⟩ := idle_false.mp busy
      have stored : state.calls.lookup holder = some there := stored
      have holds : there.holds other = true := by
        cases there with
        | authorize todo => exact rounds
        | recordRound first rest => exact rounds
        | _ => cases rounds
      cases clear.symm.trans (idle_of_found stored holds)
    next => exact kept.opened other busy word

theorem Kept.admitted {text : Option String}
    (clock : ((state.records.lookup member).bind MemberRow.deauthorizedAt).all (fun stamp => stamp < now) = true) :
    Kept ((state.record userId member true text now).decides member true) := by
  have decided : ∀ other, (state.decided.insert member true).lookup other = if other = member then some true else state.decided.lookup other :=
    fun other => lookup_insert_eq _ _ _ _
  have before : ∀ {other}, other ∈ state.removed.filter (· ≠ member) → other ∈ state.removed ∧ other ≠ member := by
    intro other listed
    obtain ⟨before,apart⟩ := mem_filter.mp listed
    exact ⟨before,of_decide_eq_true apart⟩
  refine ⟨fun other => ?_,fun other listed => ?_,fun other either word => ?_,fun other either => ?_,fun other busy word => ?_,kept.allowed⟩
  · change removedByOwner ((state.record userId member true text now).records.lookup other) = true ↔
      (state.decided.insert member true).lookup other = some false
    rw [record_lookup,decided]
    split
    next =>
      rw [recorded_authorization _ _ clock]
      exact ⟨nofun,nofun⟩
    next => exact kept.stamps other
  · obtain ⟨old,apart⟩ := before listed
    refine ⟨(decided other).trans ?_,(kept.gone other old).2⟩
    rw [if_neg apart]
    exact (kept.gone other old).1
  · exact kept.out other (either.imp (fun listed => (before listed).1) id) word
  · exact kept.free other (either.imp (fun listed => (before listed).1) id)
  · have word := (decided other).symm.trans word
    split at word
    next => cases word
    next => exact kept.opened other busy word

theorem Kept.recordRound {rest : List String} (found : state.calls.lookup call = some (.recordRound member rest))
    (clock : ((state.records.lookup member).bind MemberRow.deauthorizedAt).all (fun stamp => stamp < now) = true) :
    Kept (state.record state.founder member true none now) := by
  have opened : state.decided.lookup member ≠ some false := kept.opened member (idle_of_found found (by simp [Call.rounds]))
  refine ⟨fun other => ?_,kept.gone,kept.out,kept.free,kept.opened,kept.allowed⟩
  rw [record_lookup]
  split
  next here =>
    subst here
    rw [recorded_authorization _ _ clock]
    exact ⟨nofun,fun word => absurd word opened⟩
  next => exact kept.stamps other

theorem Kept.waits (call : Nat) (removes : ∀ member, later.removes member = false)
    (holds : ∀ member, later.holds member = false) (rounds : ∀ member, later.rounds member = false) : Kept (state.continues call later) :=
  kept.continues call removes (fun member held => by cases (holds member).symm.trans held)
    (fun member held => by cases (rounds member).symm.trans held)

theorem Kept.goesOn (found : state.calls.lookup call = some asked) (plain : ∀ member, later.removes member = false)
    (holds : ∀ member, later.holds member = true → asked.holds member = true)
    (rounds : ∀ member, later.rounds member = true → asked.rounds member = true) : Kept (state.continues call later) := by
  apply kept.continues call plain
  · exact fun member held => kept.held found (holds member held)
  · exact fun member held => kept.opened member (idle_of_found found (rounds member held))

end

theorem contains_cons {first : String} {rest : List String} (held : (decide (first = member) || rest.contains member) = true) :
    (first::rest).contains member = true := by
  rcases or_eq_true_iff.mp held with same | later
  · rw [of_decide_eq_true same]
    exact contains_iff_mem.mpr mem_cons_self
  · exact contains_iff_mem.mpr (mem_cons_of_mem _ (contains_iff_mem.mp later))

theorem Kept.go (kept : Kept state) (found : state.calls.lookup call = some asked) (spared : (Event.goes call now).spares state = true) :
    Kept (state.go call now asked) := by
  simp only [Event.spares,found,all_some] at spared
  cases asked with
  | set userId member authorized text =>
    cases authorized with
    | false => exact kept.removing spared
    | true =>
      refine (kept.admitting member text).waits call (fun other => ?_) (fun _ => rfl) (fun _ => rfl)
      simp [Call.removes]
  | record userId member authorized text =>
    cases authorized with
    | false =>
      obtain ⟨clear,clock⟩ := and_eq_true_iff.mp spared
      exact (kept.removed found clear clock).ends call
    | true => exact (kept.admitted spared).ends call
  | members => exact kept.waits call (fun _ => rfl) (fun _ => rfl) (fun _ => rfl)
  | records listed =>
    have kept' : ∀ {member}, (listed.filter (fun member => !removedByOwner (state.records.lookup member))).contains member = true →
        member ∈ listed ∧ removedByOwner (state.records.lookup member) = false := by
      intro member inside
      simpa using inside
    apply kept.continues call
    · exact fun _ => rfl
    · intro member inside
      obtain ⟨there,allowed⟩ := kept' inside
      constructor
      · intro removed
        cases allowed.symm.trans ((kept.stamps member).mpr (kept.gone member removed).1)
      · have either := all_eq_true.mp spared member there
        rw [allowed,Bool.false_or] at either
        exact either
    · intro member inside word
      cases (kept' inside).2.symm.trans ((kept.stamps member).mpr word)
  | authorize todo =>
    cases todo with
    | nil => exact kept.ends call
    | cons member rest =>
      obtain ⟨unremoved,still⟩ := @Kept.held _ call _ member kept found (by simp [Call.holds])
      refine (kept.lets none unremoved still).goesOn found (fun _ => rfl) (fun other held => ?_) (fun other held => ?_)
      all_goals exact contains_cons held
  | recordRound member rest =>
    refine (kept.recordRound found spared).goesOn found (fun _ => rfl) (fun other held => ?_) (fun other held => ?_)
    all_goals exact or_eq_true_iff.mpr (.inr held)
  | current member label =>
    simp only [State.go]
    cases stored : state.controller.lookup member with
    | none => exact kept.ends call
    | some row =>
      apply kept.continues call
      · exact fun _ => rfl
      · intro other held
        obtain ⟨here,authorized⟩ : member = other ∧ row.authorized = true := by simpa [Call.holds] using held
        subst here
        constructor
        · intro removed
          have out := kept.out member (.inl removed) (kept.gone member removed).2
          simp [stored,authorized] at out
        · simpa [stored,authorized] using spared
      · exact nofun
  | rename member authorized label =>
    cases authorized with
    | false => exact (kept.shuts member (some label)).waits call (fun _ => rfl) (fun _ => rfl) (fun _ => rfl)
    | true =>
      obtain ⟨unremoved,still⟩ := @Kept.held _ call _ member kept found (by simp [Call.holds])
      exact (kept.lets (some label) unremoved still).waits call (fun _ => rfl) (fun _ => rfl) (fun _ => rfl)
  | recordLabel member label => exact (kept.relabels member label).ends call

theorem Kept.fail (kept : Kept state) (found : state.calls.lookup call = some asked) : Kept (state.fail call asked) := by
  cases asked with
  | authorize todo =>
    cases todo with
    | nil => exact kept.ends call
    | cons member rest =>
      refine kept.goesOn found (fun _ => rfl) (fun other held => ?_) (fun other held => ?_)
      · have inside : other ∈ rest := by simpa [Call.holds] using held
        simp [Call.holds,inside]
      · have inside : other ∈ rest := by simpa [Call.rounds] using held
        simp [Call.rounds,inside]
  | recordRound member rest =>
    refine kept.goesOn found (fun _ => rfl) (fun other held => ?_) (fun other held => ?_)
    all_goals exact or_eq_true_iff.mpr (.inr held)
  | _ => exact kept.ends call

theorem step_kept (kept : Kept state) (spared : event.spares state = true) (taken : step state event = some next) : Kept next := by
  cases event with simp only [step] at taken
  | joins member =>
    obtain ⟨-,taken⟩ := of_unless taken
    cases taken
    refine ⟨kept.stamps,kept.gone,fun other either word => ?_,kept.free,kept.opened,kept.allowed⟩
    change ((state.controller.insert member ⟨false,""⟩).lookup other).all (fun row => !row.authorized) = true
    rw [lookup_insert_eq]
    split
    next => rfl
    next => exact kept.out other either word
  | sets call userId member authorized text | starts call | renames call member label =>
    obtain ⟨-,taken⟩ := of_unless taken
    cases taken
    exact kept.waits call (fun _ => rfl) (fun _ => rfl) (fun _ => rfl)
  | goes call now =>
    obtain ⟨asked,found,rfl⟩ := map_eq_some_iff.mp taken
    exact kept.go found spared
  | fails call =>
    obtain ⟨asked,found,rfl⟩ := map_eq_some_iff.mp taken
    exact kept.fail found

theorem kept_first (founder : String) : Kept (State.first founder) := by
  refine ⟨fun _ => ⟨nofun,nofun⟩,nofun,
    fun _ _ _ => rfl,fun _ _ => rfl,nofun,nofun⟩

/-- No round and no renaming lets a member in whose removal has been answered, until the owner lets it in; and the
stamps always say what the owner has decided last. -/
theorem stays_removed {founder : String} {events : List Event}
    (met : Machine.Meets step (fun state event => event.spares state = true) (State.first founder) events)
    (ran : Machine.run step (State.first founder) events = some final) :
    (∀ letting ∈ final.lettings, letting.against = false) ∧
      ∀ member, removedByOwner (final.records.lookup member) = true ↔ final.decided.lookup member = some false := by
  have kept : Kept final :=
    Machine.run_invariant step (fun _ _ _ kept spared taken => step_kept kept spared taken) (kept_first founder) met ran
  exact ⟨kept.allowed,kept.stamps⟩

def removal : List Event := [.joins "telefon",.starts 1,.goes 1 0,.goes 1 0,.goes 1 0,.goes 1 1,.goes 1 1,
  .sets 2 "sahip" "telefon" false none,.goes 2 2,.goes 2 3]

theorem stays_removed_removal : ∃ final, Machine.run step (State.first "kurucu") removal = some final ∧
    final.decided.lookup "telefon" = some false ∧ removedByOwner (final.records.lookup "telefon") = true := by
  have runs : (Machine.run step (State.first "kurucu") removal).any (fun final =>
      final.decided.lookup "telefon" = some false) = true := by decide +kernel
  have met : Machine.Meets step (fun state event => event.spares state = true) (State.first "kurucu") removal := by decide +kernel
  obtain ⟨final,ran,decided⟩ := (any_eq_true _ _).mp runs
  have decided := of_decide_eq_true decided
  exact ⟨final,ran,decided,((stays_removed met ran).2 "telefon").mpr decided⟩

/-- A round has read the members and the records before the removal, and lets the device in again after it. -/
theorem removed_returns : ¬∀ events final, Machine.run step (State.first "kurucu") events = some final →
    ∀ letting ∈ final.lettings, letting.against = false := by
  intro claimed
  have runs : (Machine.run step (State.first "kurucu") [.joins "telefon",.starts 1,.goes 1 0,.goes 1 0,
      .sets 2 "sahip" "telefon" false none,.goes 2 1,.goes 2 2,.goes 1 3]).any (fun final =>
        final.lettings = [⟨"telefon",true⟩]) = true := by decide +kernel
  obtain ⟨final,ran,let'⟩ := (any_eq_true _ _).mp runs
  have never := claimed _ final ran ⟨"telefon",true⟩ (of_decide_eq_true let' ▸ mem_cons_self)
  cases never

end Depsis.Remote

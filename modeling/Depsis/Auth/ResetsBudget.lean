import Depsis.Auth.ResetsOnce

/-! The budget and the end of a reset ticket, and what whole runs keep of both.
-/
namespace Depsis.Auth.Resets

open Depsis.Foundation AList Option Bool Machine

variable {crypto : Crypto} {state next final : State} {event : Event} {call ticket : Nat} {asked later : Call}
variable {opens : Bool} {unixSeconds : Int} {check : Check}

private theorem toNat_imp {one two : Bool} (imp : one = true → two = true) : one.toNat ≤ two.toNat := by
  cases one with
  | false => exact Nat.zero_le _
  | true =>
    rw [imp rfl]

theorem Within.continues (within : Within state) (found : state.calls.lookup call = some asked) (same : later.subject = asked.subject)
    (pending : later.pending = true → asked.pending = true) (underway : later.underway = true → asked.underway = true)
    (owes : asked.owes = true → later.owes = true) : Within (state.continues call later) := by
  refine ⟨fun other there stored passes => ?_,fun id spare => ?_,fun id spare => ?_,fun id => ?_⟩
  · have stored : (state.calls.insert call later).lookup other = some there := stored
    rcases lookup_insert_cases stored with ⟨-,rfl⟩ | ⟨-,stored⟩
    · have known := within.known call asked found (underway passes)
      rw [← same] at known
      exact known
    · exact within.known other there stored passes
  · have moved := count_insert asked.subject later found rfl same Call.owes id
    have more := toNat_imp owes
    have before := within.owing id spare
    change state.checked.count id ≤ attempts state.tickets id + (state.calls.insert call later).tallyOf Call.subject Call.owes id
    split at moved <;> omega
  · have moved := count_insert asked.subject later found rfl same Call.underway id
    have less := toNat_imp underway
    have before := within.room id spare
    change attempts state.tickets id + (state.calls.insert call later).tallyOf Call.subject Call.underway id ≤ MAX_ATTEMPTS
    split at moved <;> omega
  · have moved := count_insert asked.subject later found rfl same Call.pending id
    have less := toNat_imp pending
    have before := within.most id
    change state.checked.count id + (state.calls.insert call later).tallyOf Call.subject Call.pending id ≤ MAX_ATTEMPTS
    split at moved <;> omega

theorem Within.ends (within : Within state)
    (settled : ∀ asked, state.calls.lookup call = some asked → asked.owes = true → consumed state.tickets asked.subject = true) :
    Within (state.ends call) := by
  refine ⟨fun other there stored passes => ?_,fun id spare => ?_,fun id spare => ?_,fun id => ?_⟩
  · have stored : (state.calls.erase call).lookup other = some there := stored
    obtain ⟨-,stored⟩ := lookup_erase_some stored
    exact within.known other there stored passes
  · refine le_trans (within.owing id spare) (Nat.add_le_add_left ?_ _)
    change state.count Call.owes id ≤ (state.calls.erase call).tallyOf Call.subject Call.owes id
    cases found : state.calls.lookup call with
    | none =>
      rw [erase_missing found]
      exact le_refl _
    | some asked =>
      have moved := count_erase asked.subject found rfl Call.owes id
      split at moved
      next here =>
        cases owed : asked.owes with
        | false =>
          rw [owed] at moved
          exact le_of_eq moved.symm
        | true =>
          have spent := settled asked found owed
          rw [here] at spent
          exact absurd (spare.symm.trans spent) (by decide)
      next => exact le_of_eq moved.symm
  · exact le_trans (Nat.add_le_add_left (tallyOf_erase_le _ _ _) _) (within.room id spare)
  · exact le_trans (Nat.add_le_add_left (tallyOf_erase_le _ _ _) _) (within.most id)

theorem Within.rows {tickets : Table Nat Ticket} {disabled : Bool} {latest : Option Nat} (within : Within state)
    (more : ∀ id, (state.tickets.lookup id).isSome → (tickets.lookup id).isSome)
    (same : ∀ id, attempts tickets id = attempts state.tickets id)
    (freed : ∀ id, consumed tickets id = false → consumed state.tickets id = false) :
    Within { state with tickets := tickets, disabled := disabled, latest := latest } := by
  refine ⟨fun other there stored passes => more _ (within.known other there stored passes),fun id spare => ?_,fun id spare => ?_,within.most⟩
  · exact le_of_le_of_eq (within.owing id (freed id spare)) (congrArg (· + state.count Call.owes id) (same id).symm)
  · exact le_of_eq_of_le (congrArg (· + state.count Call.underway id) (same id)) (within.room id (freed id spare))

theorem pending_owes (state : State) (id : Nat) : state.count Call.pending id + state.count Call.owes id ≤ state.count Call.underway id := by
  refine tallyOf_add_le state.calls id (fun asked => ?_)
  cases asked with
  | verify ticket compared check =>
    cases compares : check.compares <;> cases compared <;> simp [Call.pending,Call.owes,Call.underway,compares]
  | recordAttempt ticket compared => cases compared <;> simp [Call.pending,Call.owes,Call.underway]
  | _ => simp [Call.pending,Call.owes,Call.underway]

section

variable (within : Within state)
include within

theorem Within.resolves {submitted : List Char} (found : state.calls.lookup call = some (.resolve ticket submitted))
    (opened : state.resolves ticket = true) (room : attempts state.tickets ticket + state.count Call.underway ticket < MAX_ATTEMPTS) :
    Within (state.continues call (.isEnrolled ticket submitted)) := by
  obtain ⟨row,stored,fits⟩ := (any_eq_true _ _).mp opened
  have free : consumed state.tickets ticket = false := by
    simp only [and_eq_true,not_eq_true'] at fits
    simp [consumed,stored,fits.1.1.1]
  refine ⟨fun other there known passes => ?_,fun id spare => ?_,fun id spare => ?_,fun id => ?_⟩
  · have known : (state.calls.insert call (.isEnrolled ticket submitted)).lookup other = some there := known
    rcases lookup_insert_cases known with ⟨-,rfl⟩ | ⟨-,known⟩
    · exact isSome_iff_exists.mpr ⟨row,stored⟩
    · exact within.known other there known passes
  · have moved := count_insert ticket (.isEnrolled ticket submitted) found rfl rfl Call.owes id
    simp only [Call.owes] at moved
    refine le_trans (within.owing id spare) (Nat.add_le_add_left ?_ _)
    change state.count Call.owes id ≤ (state.calls.insert call (.isEnrolled ticket submitted)).tallyOf Call.subject Call.owes id
    omega
  · have moved := count_insert ticket (.isEnrolled ticket submitted) found rfl rfl Call.underway id
    have before := within.room id spare
    simp only [Call.underway,toNat_true,toNat_false,ite_self] at moved
    change attempts state.tickets id + (state.calls.insert call (.isEnrolled ticket submitted)).tallyOf Call.subject Call.underway id ≤ _
    split at moved
    next here =>
      subst here
      omega
    next => omega
  · have moved := count_insert ticket (.isEnrolled ticket submitted) found rfl rfl Call.pending id
    have before := within.most id
    simp only [Call.pending,toNat_true,toNat_false,ite_self] at moved
    change state.checked.count id + (state.calls.insert call (.isEnrolled ticket submitted)).tallyOf Call.subject Call.pending id ≤ _
    split at moved
    next here =>
      subst here
      have owed := within.owing ticket free
      have split := pending_owes state ticket
      omega
    next => omega

theorem Within.verify {compared : Bool} (found : state.calls.lookup call = some (.verify ticket compared check)) :
    Within (state.verify crypto call ticket compared opens unixSeconds check) := by
  have quiet : (state.mfa.advance crypto opens unixSeconds check).2.compares = false := advance_compares rfl
  have counted : ∀ id, (if check.compares then state.checked ++ [ticket] else state.checked).count id =
      state.checked.count id + if ticket = id then check.compares.toNat else 0 := by
    intro id
    cases compares : check.compares with
    | false => simp
    | true => simp [List.count_append,List.count_singleton]
  unfold State.verify
  simp only []
  generalize (state.mfa.advance crypto opens unixSeconds check).2 = after at *
  refine ⟨fun other there known passes => ?_,fun id spare => ?_,fun id spare => ?_,fun id => ?_⟩
  · have known : (state.calls.insert call (.verify ticket (compared || check.compares) after)).lookup other = some there := known
    rcases lookup_insert_cases known with ⟨-,rfl⟩ | ⟨-,known⟩
    · exact within.known call (.verify ticket compared check) found rfl
    · exact within.known other there known passes
  · have moved := count_insert ticket (.verify ticket (compared || check.compares) after) found rfl rfl Call.owes id
    have before := within.owing id spare
    change (if check.compares then state.checked ++ [ticket] else state.checked).count id ≤ attempts state.tickets id +
      (state.calls.insert call (.verify ticket (compared || check.compares) after)).tallyOf Call.subject Call.owes id
    rw [counted]
    simp only [Call.owes,quiet,Bool.not_false,Bool.and_true] at moved
    split at moved
    next here =>
      simp only [if_pos here]
      have more : (compared && !check.compares).toNat + check.compares.toNat ≤ (compared || check.compares).toNat := by
        cases compared <;> cases check.compares <;> decide
      omega
    next different =>
      simp only [if_neg different]
      omega
  · have moved := count_insert ticket (.verify ticket (compared || check.compares) after) found rfl rfl Call.underway id
    have before := within.room id spare
    simp only [Call.underway] at moved
    change attempts state.tickets id +
      (state.calls.insert call (.verify ticket (compared || check.compares) after)).tallyOf Call.subject Call.underway id ≤ _
    omega
  · have moved := count_insert ticket (.verify ticket (compared || check.compares) after) found rfl rfl Call.pending id
    have before := within.most id
    change (if check.compares then state.checked ++ [ticket] else state.checked).count id +
      (state.calls.insert call (.verify ticket (compared || check.compares) after)).tallyOf Call.subject Call.pending id ≤ _
    rw [counted]
    simp only [Call.pending,quiet,toNat_false,ite_self] at moved
    omega

theorem Within.recordAttempt {compared : Bool} (found : state.calls.lookup call = some (.recordAttempt ticket compared)) :
    Within (state.recordAttempt call ticket) := by
  obtain ⟨row,stored⟩ := isSome_iff_exists.mp (within.known call _ found rfl)
  have stored : state.tickets.lookup ticket = some row := stored
  have counted : ∀ id, attempts (state.tickets.insert ticket { row with attempts := row.attempts + 1 }) id =
      attempts state.tickets id + if ticket = id then 1 else 0 := by
    intro id
    rw [attempts_insert]
    by_cases here : id = ticket
    · subst here
      simp [attempts,stored]
    · have apart : ticket ≠ id := Ne.symm here
      simp [here,apart]
  have freed : ∀ id, consumed (state.tickets.insert ticket { row with attempts := row.attempts + 1 }) id = consumed state.tickets id := by
    intro id
    rw [consumed_insert]
    split
    next here =>
      subst here
      simp [consumed,stored]
    next => rfl
  unfold State.recordAttempt
  rw [stored]
  refine ⟨fun other there known passes => ?_,fun id spare => ?_,fun id spare => ?_,fun id => ?_⟩
  · have known : (state.calls.erase call).lookup other = some there := known
    change ((state.tickets.insert ticket _).lookup there.subject).isSome
    rw [lookup_insert_eq]
    split
    next => rfl
    next =>
      obtain ⟨-,known⟩ := lookup_erase_some known
      exact within.known other there known passes
  · have moved := count_erase ticket found rfl Call.owes id
    have spare : consumed (state.tickets.insert ticket { row with attempts := row.attempts + 1 }) id = false := spare
    have before := within.owing id ((freed id).symm.trans spare)
    have most := toNat_le compared
    change state.checked.count id ≤ attempts (state.tickets.insert ticket { row with attempts := row.attempts + 1 }) id +
      (state.calls.erase call).tallyOf Call.subject Call.owes id
    rw [counted]
    simp only [Call.owes] at moved
    split at moved
    next here =>
      simp only [if_pos here]
      omega
    next different => omega
  · have moved := count_erase ticket found rfl Call.underway id
    have spare : consumed (state.tickets.insert ticket { row with attempts := row.attempts + 1 }) id = false := spare
    have before := within.room id ((freed id).symm.trans spare)
    change attempts (state.tickets.insert ticket { row with attempts := row.attempts + 1 }) id +
      (state.calls.erase call).tallyOf Call.subject Call.underway id ≤ _
    rw [counted]
    simp only [Call.underway,toNat_true] at moved
    omega
  · exact le_trans (Nat.add_le_add_left (tallyOf_erase_le _ _ _) _) (within.most id)

theorem Within.consume (found : state.calls.lookup call = some (.consume ticket)) :
    Within (state.consume call ticket) := by
  obtain ⟨row,stored⟩ := isSome_iff_exists.mp (within.known call _ found rfl)
  have stored : state.tickets.lookup ticket = some row := stored
  unfold State.consume
  rw [stored]
  simp only []
  split
  next spent =>
    refine within.ends (fun asked there _ => ?_)
    cases found.symm.trans there
    simp [consumed,Call.subject,stored,spent]
  next =>
    have freed : ∀ id, consumed (state.tickets.insert ticket { row with consumed := true }) id = false →
        consumed state.tickets id = false ∧ ticket ≠ id := by
      intro id spare
      rw [consumed_insert] at spare
      split at spare
      next => cases spare
      next different => exact ⟨spare,Ne.symm different⟩
    have same : ∀ id, attempts (state.tickets.insert ticket { row with consumed := true }) id = attempts state.tickets id := by
      intro id
      rw [attempts_insert]
      split
      next here =>
        subst here
        simp [attempts,stored]
      next => rfl
    refine ⟨fun other there known passes => ?_,fun id spare => ?_,fun id spare => ?_,fun id => ?_⟩
    · have known : (state.calls.insert call (.setPasswordHash ticket)).lookup other = some there := known
      rcases lookup_insert_cases known with ⟨-,rfl⟩ | ⟨-,known⟩
      · cases passes
      · change ((state.tickets.insert ticket _).lookup there.subject).isSome
        rw [lookup_insert_eq]
        split
        next => rfl
        next => exact within.known other there known passes
    · have moved := count_insert ticket (.setPasswordHash ticket) found rfl rfl Call.owes id
      obtain ⟨spare,different⟩ := freed id spare
      have before := within.owing id spare
      change state.checked.count id ≤ attempts (state.tickets.insert ticket { row with consumed := true }) id +
        (state.calls.insert call (.setPasswordHash ticket)).tallyOf Call.subject Call.owes id
      rw [same]
      simp only [if_neg different] at moved
      omega
    · have moved := count_insert ticket (.setPasswordHash ticket) found rfl rfl Call.underway id
      obtain ⟨spare,different⟩ := freed id spare
      have before := within.room id spare
      change attempts (state.tickets.insert ticket { row with consumed := true }) id +
        (state.calls.insert call (.setPasswordHash ticket)).tallyOf Call.subject Call.underway id ≤ _
      rw [same]
      simp only [if_neg different] at moved
      omega
    · have moved := count_insert ticket (.setPasswordHash ticket) found rfl rfl Call.pending id
      have before := within.most id
      change state.checked.count id + (state.calls.insert call (.setPasswordHash ticket)).tallyOf Call.subject Call.pending id ≤ _
      simp only [Call.pending] at moved
      omega

theorem Within.go (enrolled : state.enrolled = true) (found : state.calls.lookup call = some asked)
    (spared : (Event.goes call opens unixSeconds).spares state = true) : Within (state.go crypto call opens unixSeconds asked) := by
  have leaves : asked.owes = false → Within (state.ends call) := by
    intro free
    refine within.ends (fun other there owed => ?_)
    cases found.symm.trans there
    cases free.symm.trans owed
  cases asked with
  | resolve ticket submitted =>
    simp only [State.go]
    split
    next opened =>
      refine within.resolves found opened ?_
      have room : barred state.tickets ticket = false ∧ (state.enrolled = false ∨
          attempts state.tickets ticket + state.count Call.underway ticket < MAX_ATTEMPTS) := by
        simpa [Event.spares,found,opened] using spared
      rcases room.2 with not | room
      · cases enrolled.symm.trans not
      · exact room
    next => exact leaves rfl
  | isEnrolled ticket submitted =>
    simp only [State.go,enrolled,Bool.not_true,Bool.false_eq_true,if_false]
    split
    next => exact within.continues found rfl (by rintro ⟨⟩) (fun _ => rfl) (by rintro ⟨⟩)
    next => exact within.continues found rfl (fun _ => rfl) (fun _ => rfl) (by rintro ⟨⟩)
  | verify ticket compared check =>
    cases check with
    | ends ok =>
      cases ok with
      | true => exact within.continues found rfl (by rintro ⟨⟩) (fun _ => rfl) (fun _ => rfl)
      | false =>
        refine within.continues found rfl (by rintro ⟨⟩) (fun _ => rfl) (fun owed => ?_)
        simpa [Call.owes,Check.compares] using owed
    | _ => exact within.verify found
  | recordAttempt ticket compared => exact within.recordAttempt found
  | consume ticket => exact within.consume found
  | setPasswordHash ticket =>
    have ended := leaves rfl
    exact ⟨ended.known,ended.owing,ended.room,ended.most⟩

theorem step_within (enrolled : state.enrolled = true) (spared : event.spares state = true)
    (taken : step crypto state event = some next) : Within next := by
  cases event with
  | opens ticket =>
    simp only [step] at taken
    obtain ⟨fresh,taken⟩ := of_unless taken
    cases taken
    have fresh := not_isSome_iff_eq_none.mp fresh
    refine within.rows (fun id there => ?_) (fun id => ?_) (fun id spare => ?_)
    · rw [lookup_insert_eq,lookup_mapRows]
      split
      next => rfl
      next => simpa using there
    · rw [attempts_insert]
      split
      next here =>
        subst here
        simp [attempts,fresh]
      next =>
        unfold attempts
        rw [lookup_mapRows]
        cases state.tickets.lookup id <;> rfl
    · rw [consumed_insert] at spare
      split at spare
      next here =>
        subst here
        simp [consumed,fresh]
      next =>
        unfold consumed at *
        rw [lookup_mapRows] at spare
        cases there : state.tickets.lookup id with
        | none => rfl
        | some row =>
          rw [there] at spare
          cases spare
  | expires ticket =>
    cases taken
    have mapped := mapRows_same state.tickets (fun id row => if id = ticket then { row with expired := true } else row)
      (fun id row => by split <;> rfl) (fun id row => by split <;> rfl)
    refine within.rows (fun id there => ?_) (fun id => (mapped id).1) (fun id spare => (mapped id).2.symm.trans spare)
    rw [lookup_mapRows]
    simpa using there
  | disables disabled =>
    cases taken
    have mapped := mapRows_same state.tickets (fun _ row => { row with barred := row.barred || disabled }) (fun _ _ => rfl) (fun _ _ => rfl)
    refine within.rows (fun id there => ?_) (fun id => (mapped id).1) (fun id spare => (mapped id).2.symm.trans spare)
    rw [lookup_mapRows]
    simpa using there
  | redeems call ticket submitted =>
    simp only [step] at taken
    obtain ⟨absent,taken⟩ := of_unless taken
    cases taken
    have absent := not_isSome_iff_eq_none.mp absent
    refine ⟨fun other there known passes => ?_,fun id spare => ?_,fun id spare => ?_,fun id => ?_⟩
    · have known : (state.calls.insert call (.resolve ticket submitted)).lookup other = some there := known
      rcases lookup_insert_cases known with ⟨-,rfl⟩ | ⟨-,known⟩
      · cases passes
      · exact within.known other there known passes
    · refine le_trans (within.owing id spare) (Nat.add_le_add_left ?_ _)
      change state.calls.tally _ ≤ (state.calls.insert call (.resolve ticket submitted)).tally _
      rw [tally_insert absent]
      exact Nat.le_add_right _ _
    · exact le_trans (Nat.add_le_add_left (tallyOf_insert_le _ call rfl _) _) (within.room id spare)
    · exact le_trans (Nat.add_le_add_left (tallyOf_insert_le _ call rfl _) _) (within.most id)
  | goes call opens unixSeconds =>
    obtain ⟨asked,found,rfl⟩ := map_eq_some_iff.mp taken
    exact within.go enrolled found spared
  | fails call =>
    cases taken
    refine within.ends (fun asked found owed => ?_)
    simpa [Event.spares,enrolled,found,owed] using spared

end

section

variable (timely : Timely state)
include timely

theorem Timely.ends (call : Nat) : Timely (state.ends call) := by
  have before : ∀ other there, (state.calls.erase call).lookup other = some there → state.calls.lookup other = some there := by
    intro other there found
    obtain ⟨-,found⟩ := lookup_erase_some found
    exact found
  exact ⟨timely.newest,fun other ticket found => timely.current other ticket (before other _ found),
    fun other there found => timely.fresh other there (before other there found),timely.writes⟩

theorem Timely.continues (call : Nat) (sets : ∀ ticket, later = .setPasswordHash ticket → state.latest = some ticket)
    (fresh : later.advances = true → barred state.tickets later.subject = false) : Timely (state.continues call later) := by
  refine ⟨timely.newest,fun other ticket found => ?_,fun other there found advances => ?_,timely.writes⟩
  · have found : (state.calls.insert call later).lookup other = some (.setPasswordHash ticket) := found
    rcases lookup_insert_cases found with ⟨-,is⟩ | ⟨-,found⟩
    · exact sets ticket is.symm
    · exact timely.current other ticket found
  · have found : (state.calls.insert call later).lookup other = some there := found
    rcases lookup_insert_cases found with ⟨-,rfl⟩ | ⟨-,found⟩
    · exact fresh advances
    · exact timely.fresh other there found advances

theorem Timely.row {row changed : Ticket} (stored : state.tickets.lookup ticket = some row)
    (freed : changed.consumed = false → row.consumed = false) (same : changed.barred = row.barred) :
    Timely { state with tickets := state.tickets.insert ticket changed } := by
  have still : ∀ id, barred (state.tickets.insert ticket changed) id = barred state.tickets id := by
    intro id
    rw [barred_insert]
    split
    next here =>
      subst here
      simp [barred,stored,same]
    next => rfl
  refine ⟨fun id other found spare => ?_,timely.current,fun call asked found advances => ?_,timely.writes⟩
  · have found : (state.tickets.insert ticket changed).lookup id = some other := found
    rcases lookup_insert_cases found with ⟨rfl,rfl⟩ | ⟨-,found⟩
    · exact timely.newest id row stored (freed spare)
    · exact timely.newest id other found spare
  · exact (still _).trans (timely.fresh call asked found advances)

theorem Timely.go (found : state.calls.lookup call = some asked)
    (spared : (Event.goes call opens unixSeconds).spares state = true) : Timely (state.go crypto call opens unixSeconds asked) := by
  have fresh := timely.fresh call asked found
  cases asked with
  | resolve ticket submitted =>
    simp only [State.go]
    split
    next opened =>
      refine timely.continues call (by rintro _ ⟨⟩) (fun _ => ?_)
      have free : barred state.tickets ticket = false ∧ (state.enrolled = false ∨
          attempts state.tickets ticket + state.count Call.underway ticket < MAX_ATTEMPTS) := by
        simpa [Event.spares,found,opened] using spared
      exact free.1
    next => exact timely.ends call
  | isEnrolled ticket submitted =>
    simp only [State.go]
    split
    next => exact timely.continues call (by rintro _ ⟨⟩) (fun _ => fresh rfl)
    next =>
      split
      next => exact timely.continues call (by rintro _ ⟨⟩) (by rintro ⟨⟩)
      next => exact timely.continues call (by rintro _ ⟨⟩) (fun _ => fresh rfl)
  | verify ticket compared check =>
    have verified : Timely (state.verify crypto call ticket compared opens unixSeconds check) := by
      have on := @Timely.continues _ (.verify ticket (compared || check.compares) (state.mfa.advance crypto opens unixSeconds check).2)
        timely call (by rintro _ ⟨⟩) (fun _ => fresh rfl)
      exact ⟨on.newest,on.current,on.fresh,on.writes⟩
    cases check with
    | ends ok =>
      cases ok with
      | true => exact timely.continues call (by rintro _ ⟨⟩) (fun _ => fresh rfl)
      | false => exact timely.continues call (by rintro _ ⟨⟩) (by rintro ⟨⟩)
    | _ => exact verified
  | recordAttempt ticket compared =>
    simp only [State.go,State.recordAttempt]
    split
    next => exact timely.ends call
    next row stored =>
      have counted : Timely { state with tickets := state.tickets.insert ticket { row with attempts := row.attempts + 1 } } :=
        timely.row stored (fun spare => spare) rfl
      exact counted.ends call
  | consume ticket =>
    simp only [State.go,State.consume]
    split
    next => exact timely.ends call
    next row stored =>
      split
      next => exact timely.ends call
      next unspent =>
        have newest := timely.newest ticket row stored (by simpa using unspent)
        have changed : Timely { state with tickets := state.tickets.insert ticket { row with consumed := true } } :=
          timely.row stored (by rintro ⟨⟩) rfl
        exact changed.continues call (fun _ same => by cases same; exact newest) (fun _ => changed.fresh call (.consume ticket) found rfl)
  | setPasswordHash ticket =>
    have current := timely.current call ticket found
    have ended := timely.ends call
    refine ⟨ended.newest,ended.current,ended.fresh,fun write member => ?_⟩
    rcases List.mem_append.mp member with before | here
    · exact timely.writes write before
    · cases List.mem_singleton.mp here
      exact ⟨by simp [current],fresh rfl⟩

theorem step_timely (spared : event.spares state = true) (taken : step crypto state event = some next) :
    Timely next := by
  cases event with
  | opens ticket =>
    simp only [step] at taken
    obtain ⟨fresh,taken⟩ := of_unless taken
    cases taken
    have idle : ∀ call asked, state.calls.lookup call = some asked → asked.sets = false := by
      simpa [Event.spares,all_iff] using spared
    refine ⟨fun id row found spare => ?_,fun call id found => ?_,fun call asked found advances => ?_,timely.writes⟩
    · have found : ((state.tickets.mapRows (fun _ row => { row with consumed := true })).insert ticket ⟨0,false,false,false⟩).lookup id =
          some row := found
      rw [lookup_insert_eq] at found
      split at found
      next here => exact congrArg some here.symm
      next =>
        rw [lookup_mapRows] at found
        obtain ⟨old,-,rfl⟩ := map_eq_some_iff.mp found
        cases spare
    · cases idle call _ found
    · change barred (AList.insert ticket _ _) asked.subject = false
      rw [barred_insert]
      split
      next => rfl
      next =>
        have before := timely.fresh call asked found advances
        unfold barred at *
        rw [lookup_mapRows]
        cases there : state.tickets.lookup asked.subject with
        | none => rfl
        | some row =>
          rw [there] at before
          exact before
  | expires ticket =>
    cases taken
    refine ⟨fun id row found spare => ?_,timely.current,fun call asked found advances => ?_,timely.writes⟩
    · have found := (lookup_mapRows _ _ _).symm.trans found
      obtain ⟨old,stored,rfl⟩ := map_eq_some_iff.mp found
      refine timely.newest id old stored ?_
      split at spare <;> exact spare
    · have before := timely.fresh call asked found advances
      unfold barred at *
      simp only [lookup_mapRows]
      cases there : state.tickets.lookup asked.subject with
      | none => rfl
      | some row =>
        rw [there] at before
        simp only [map_some,any_some]
        split <;> exact before
  | disables disabled =>
    cases taken
    refine ⟨fun id row found spare => ?_,timely.current,fun call asked found advances => ?_,timely.writes⟩
    · have found := (lookup_mapRows _ _ _).symm.trans found
      obtain ⟨old,stored,rfl⟩ := map_eq_some_iff.mp found
      exact timely.newest id old stored spare
    · have before := timely.fresh call asked found advances
      have kept : disabled = false := by
        cases disabled with
        | false => rfl
        | true =>
          have idle : ∀ call asked, state.calls.lookup call = some asked → asked.advances = false := by
            simpa [Event.spares,all_iff] using spared
          cases (idle call asked found).symm.trans advances
      subst kept
      unfold barred at *
      simp only [lookup_mapRows]
      cases there : state.tickets.lookup asked.subject with
      | none => rfl
      | some row =>
        rw [there] at before
        simpa using before
  | redeems call ticket submitted =>
    simp only [step] at taken
    obtain ⟨-,taken⟩ := of_unless taken
    cases taken
    exact timely.continues call (by rintro _ ⟨⟩) (by rintro ⟨⟩)
  | goes call opens unixSeconds =>
    obtain ⟨asked,found,rfl⟩ := map_eq_some_iff.mp taken
    exact timely.go found spared
  | fails call =>
    cases taken
    exact timely.ends call

end

theorem sole_first (mfa : Mfa) : Sole (State.first mfa) :=
  ⟨fun _ => Nat.zero_le _,fun _ _ => Nat.zero_le _,fun _ => rfl,nofun⟩

theorem within_first (mfa : Mfa) : Within (State.first mfa) :=
  ⟨nofun,fun _ _ => Nat.zero_le _,fun _ _ => Nat.zero_le _,fun _ => Nat.zero_le _⟩

theorem timely_first (mfa : Mfa) : Timely (State.first mfa) :=
  ⟨nofun,nofun,nofun,nofun⟩

/-- However the calls overlap and wherever they fail, a ticket sets the password once at most, and for an account
with a second factor only as often as one has been accepted for it. At most six codes are checked for a ticket, and
none sets the password after a newer one or after the account has been disabled, as long as no call is caught
between its statements. -/
theorem redeemed_once {mfa : Mfa} {events : List Event}
    (met : Machine.Meets (step crypto) (fun state event => event.spares state = true) (State.first mfa) events)
    (ran : Machine.run (step crypto) (State.first mfa) events = some final) :
    (∀ ticket, final.written ticket ≤ 1) ∧ (∀ ticket, final.checked.count ticket ≤ MAX_ATTEMPTS) ∧
      (∀ write ∈ final.writes, write.superseded = false ∧ write.barred = false) ∧
      (mfa.row.any TotpRow.confirmed = true → ∀ ticket, final.written ticket ≤ final.accepted.count ticket) := by
  have sole : Sole final :=
    run_invariant_always (step crypto) (fun _ _ _ sole taken => step_sole sole taken) (sole_first mfa) ran
  have enrolled : final.enrolled = (State.first mfa).enrolled := by
    have stays : ∀ middle event next, middle.enrolled = (State.first mfa).enrolled → step crypto middle event = some next →
        next.enrolled = (State.first mfa).enrolled := fun _ _ _ same taken => (step_enrolled taken).trans same
    exact run_invariant_always (step crypto) stays rfl ran
  have timely : Timely final :=
    run_invariant (step crypto) (fun _ _ _ timely spared taken => step_timely timely spared taken) (timely_first mfa) met ran
  refine ⟨fun ticket => ?_,fun ticket => ?_,timely.writes,fun confirmed ticket => ?_⟩
  · have single := sole.single ticket
    have most := toNat_le (consumed final.tickets ticket)
    omega
  · cases held : final.enrolled with
    | false =>
      rw [sole.plain held]
      exact Nat.zero_le _
    | true =>
      have steps : ∀ middle event next, (middle.enrolled = true ∧ Within middle) → event.spares middle = true →
          step crypto middle event = some next → next.enrolled = true ∧ Within next :=
        fun _ _ _ kept spared taken => ⟨(step_enrolled taken).trans kept.1,step_within kept.2 kept.1 spared taken⟩
      have within := (run_invariant (step crypto) steps ⟨enrolled.symm.trans held,within_first mfa⟩ met ran).2
      exact le_trans (Nat.le_add_right _ _) (within.most ticket)
  · exact le_trans (Nat.le_add_right _ _) (sole.factor (enrolled.trans confirmed) ticket)

def zeros : Crypto := ⟨fun _ _ => List.replicate 20 0,fun text => text,fun text => text,true⟩

def enrolled : Mfa := ⟨some ⟨[],true,true,none,0⟩,∅⟩

def redemption : List Event := [.opens 1,.redeems 1 1 ['0','0','0','0','0','0']] ++ List.replicate 7 (.goes 1 true 60)

theorem redeemed_once_redemption : ∃ final, Machine.run (step zeros) (State.first enrolled) redemption = some final ∧
    final.writes = [⟨1,false,false⟩] ∧ final.written 1 ≤ 1 ∧ final.written 1 ≤ final.accepted.count 1 := by
  have runs : (Machine.run (step zeros) (State.first enrolled) redemption).any (fun final =>
      final.writes = [⟨1,false,false⟩]) = true := by decide +kernel
  have met : Machine.Meets (step zeros) (fun state event => event.spares state = true) (State.first enrolled) redemption := by
    decide +kernel
  obtain ⟨final,ran,writes⟩ := (any_eq_true _ _).mp runs
  obtain ⟨single,-,-,factor⟩ := redeemed_once met ran
  exact ⟨final,ran,of_decide_eq_true writes,single 1,factor rfl 1⟩

/-- The account is disabled after the call has consumed its ticket, and the password is set all the same. -/
theorem redeemed_barred : ¬∀ events final, Machine.run (step zeros) (State.first ⟨none,∅⟩) events = some final →
    ∀ write ∈ final.writes, write.superseded = false ∧ write.barred = false := by
  intro claimed
  have runs : (Machine.run (step zeros) (State.first ⟨none,∅⟩)
      [.opens 1,.redeems 1 1 [],.goes 1 true 0,.goes 1 true 0,.goes 1 true 0,.disables true,.goes 1 true 0]).any (fun final =>
        final.writes = [⟨1,false,true⟩]) = true := by decide +kernel
  obtain ⟨final,ran,writes⟩ := (any_eq_true _ _).mp runs
  have timely := claimed _ final ran
  rw [of_decide_eq_true writes] at timely
  cases (timely _ List.mem_cons_self).2

/-- However the calls overlap, a ticket sets the password once at most, and for an account with a second factor
only as often as one has been accepted for it. -/
theorem written_once {mfa : Mfa} {events : List Event} (ran : Machine.run (step crypto) (State.first mfa) events = some final) :
    ∀ ticket, final.written ticket ≤ 1 ∧
      (mfa.row.any TotpRow.confirmed = true → final.written ticket ≤ final.accepted.count ticket) := by
  have kept : Sole final ∧ final.enrolled = (State.first mfa).enrolled :=
    @run_invariant_always _ _ (step crypto) (fun state => Sole state ∧ state.enrolled = (State.first mfa).enrolled)
      (fun _ _ _ held taken => ⟨step_sole held.1 taken,(step_enrolled taken).trans held.2⟩) _ _ _ ⟨sole_first mfa,rfl⟩ ran
  refine fun ticket => ⟨?_,fun confirmed => le_trans (Nat.le_add_right _ _) (kept.1.factor (kept.2.trans confirmed) ticket)⟩
  have single := kept.1.single ticket
  have most := toNat_le (consumed final.tickets ticket)
  omega

theorem written_once_redemption : ∃ final, Machine.run (step zeros) (State.first enrolled) redemption = some final ∧
    final.written 1 ≤ final.accepted.count 1 := ⟨_,rfl,(@written_once zeros _ enrolled redemption rfl 1).2 rfl⟩

end Depsis.Auth.Resets

import Depsis.Auth.PendingLogins
import Depsis.Foundation.Tally

/-! The budget of a challenge, which holds as long as no more calls have found it open than it has tries left;
and the single use of challenges, steps and recovery codes, which always holds.
-/
namespace Depsis.Auth.Pending

open Depsis.Foundation List AList Option Bool Machine

variable {crypto : Crypto} {state next final : State} {event : Event} {call challenge : Nat} {asked later : Call}
variable {opens : Bool} {unixSeconds : Int} {check : Check}

def Call.uncounted (challenge : Nat) : Call → Bool
  | .countAttempt id _ => id = challenge
  | _ => false

def Call.compares (challenge : Nat) : Call → Bool
  | .verify id check => id = challenge && check.compares
  | _ => false

def Call.issues (challenge : Nat) : Call → Bool
  | .issue id => id = challenge
  | _ => false

def attempts (challenges : Table Nat Challenge) (challenge : Nat) : Nat := ((challenges.lookup challenge).map Challenge.attempts).getD 0

def consumed (challenges : Table Nat Challenge) (challenge : Nat) : Bool := (challenges.lookup challenge).any Challenge.consumed

def State.uncounted (state : State) (challenge : Nat) : Nat := state.calls.tally (fun _ => Call.uncounted challenge)

/-- A challenge is found open only while it has tries left for the calls that have found it so before. -/
def Event.spares (state : State) : Event → Bool
  | .goes call _ _ => (state.calls.lookup call).all (fun asked =>
      match asked with
      | .resolve challenge _ => !state.resolves challenge || attempts state.challenges challenge + state.uncounted challenge < MAX_ATTEMPTS
      | _ => true)
  | _ => true

structure Within (state : State) : Prop where
  known : ∀ call challenge submitted, state.calls.lookup call = some (.countAttempt challenge submitted) →
    (state.challenges.lookup challenge).isSome
  budget : ∀ challenge, attempts state.challenges challenge + state.uncounted challenge ≤ MAX_ATTEMPTS
  checked : ∀ challenge, state.checked.count challenge + state.calls.tally (fun _ => Call.compares challenge) ≤ attempts state.challenges challenge

structure Sole (state : State) : Prop where
  issued : ∀ challenge, state.issued.count challenge + state.calls.tally (fun _ => Call.issues challenge) ≤
    (consumed state.challenges challenge).toNat
  rising : state.burnt.Pairwise (· < ·)
  counter : ∀ used ∈ state.burnt, ∃ row last, state.mfa.row = some row ∧ row.lastUsedStep = some last ∧ used ≤ last
  once : state.spent.Nodup
  used : ∀ hash ∈ state.spent, state.mfa.codes.lookup hash = some true

/-! A step changes the row of one challenge at most, and the place of one call. -/

theorem attempts_insert (challenges : Table Nat Challenge) (id other : Nat) (row : Challenge) :
    attempts (challenges.insert id row) other = if other = id then row.attempts else attempts challenges other := by
  unfold attempts
  rw [lookup_insert_eq]
  split <;> rfl

theorem attempts_mapRows (challenges : Table Nat Challenge) (change : Nat → Challenge → Challenge)
    (same : ∀ id row, (change id row).attempts = row.attempts) (other : Nat) :
    attempts (challenges.mapRows change) other = attempts challenges other := by
  unfold attempts
  rw [lookup_mapRows]
  cases challenges.lookup other with
  | none => rfl
  | some row => exact same other row

theorem Within.ends (within : Within state) (call : Nat) : Within (state.ends call) := by
  refine ⟨fun other id submitted found => ?_,fun id => ?_,fun id => ?_⟩
  · have found : (state.calls.erase call).lookup other = some (.countAttempt id submitted) := found
    obtain ⟨-,found⟩ := lookup_erase_some found
    exact within.known other id submitted found
  · exact le_trans (Nat.add_le_add_left (tally_erase_le _ _) _) (within.budget id)
  · exact le_trans (Nat.add_le_add_left (tally_erase_le _ _) _) (within.checked id)

theorem Within.continues (within : Within state) (call : Nat)
    (plain : ∀ id, later.uncounted id = false ∧ later.compares id = false) : Within (state.continues call later) := by
  refine ⟨fun other id submitted found => ?_,fun id => ?_,fun id => ?_⟩
  · have found : (state.calls.insert call later).lookup other = some (.countAttempt id submitted) := found
    rcases lookup_insert_cases found with ⟨-,rfl⟩ | ⟨-,found⟩
    · have := (plain id).1
      simp [Call.uncounted] at this
    · exact within.known other id submitted found
  · exact le_trans (Nat.add_le_add_left (tally_insert_le _ call (plain id).1) _) (within.budget id)
  · exact le_trans (Nat.add_le_add_left (tally_insert_le _ call (plain id).2) _) (within.checked id)

variable {challenges : Table Nat Challenge}

section

variable (within : Within state)
include within

theorem Within.rows
    (more : ∀ id, (state.challenges.lookup id).isSome → (challenges.lookup id).isSome)
    (same : ∀ id, attempts challenges id = attempts state.challenges id) :
    Within { state with challenges := challenges } := by
  refine ⟨fun other id submitted found => more id (within.known other id submitted found),fun id => ?_,fun id => ?_⟩
  · exact le_of_eq_of_le (congrArg (· + state.uncounted id) (same id)) (within.budget id)
  · exact le_of_le_of_eq (within.checked id) (same id).symm

theorem Within.resolves {submitted : List Char} (found : state.calls.lookup call = some (.resolve challenge submitted))
    (opened : state.resolves challenge = true) (room : attempts state.challenges challenge + state.uncounted challenge < MAX_ATTEMPTS) :
    Within (state.continues call (.countAttempt challenge submitted)) := by
  refine ⟨fun other id text there => ?_,fun id => ?_,fun id => ?_⟩
  · have there : (state.calls.insert call (.countAttempt challenge submitted)).lookup other = some (.countAttempt id text) := there
    rw [lookup_insert_eq] at there
    split at there
    next =>
      cases there
      obtain ⟨row,stored,-⟩ := (any_eq_true _ _).mp opened
      exact isSome_iff_exists.mpr ⟨row,stored⟩
    next => exact within.known other id text there
  · have moved := @tally_update _ _ _ (fun _ => Call.uncounted id) _ _ _ (Call.countAttempt challenge submitted) found
    have before := within.budget id
    change attempts state.challenges id + (state.calls.insert call (.countAttempt challenge submitted)).tally (fun _ => Call.uncounted id) ≤ _
    unfold State.uncounted at *
    by_cases same : challenge = id
    · subst same
      simp only [Call.uncounted,decide_true,toNat_true,toNat_false] at moved
      omega
    · simp only [Call.uncounted,same,decide_false,toNat_false] at moved
      omega
  · exact le_trans (Nat.add_le_add_left (tally_insert_le _ _ rfl) _) (within.checked id)

theorem Within.countAttempt {submitted : List Char}
    (found : state.calls.lookup call = some (.countAttempt challenge submitted)) :
    Within (state.countAttempt call challenge (.verify challenge check)) := by
  obtain ⟨row,stored⟩ := isSome_iff_exists.mp (within.known call challenge submitted found)
  have shown : state.countAttempt call challenge (.verify challenge check) =
      { state with challenges := state.challenges.insert challenge { row with attempts := row.attempts + 1 } }.continues call
        (.verify challenge check) := by
    unfold State.countAttempt
    rw [stored]
  have counted : ∀ id, attempts (state.challenges.insert challenge { row with attempts := row.attempts + 1 }) id =
      attempts state.challenges id + (decide (id = challenge)).toNat := by
    intro id
    rw [attempts_insert]
    split
    next here =>
      subst here
      simp [attempts,stored]
    next different => simp [different]
  rw [shown]
  refine ⟨fun other id text there => ?_,fun id => ?_,fun id => ?_⟩
  · have there : (state.calls.insert call (.verify challenge check)).lookup other = some (.countAttempt id text) := there
    rw [lookup_insert_eq] at there
    split at there
    next => cases there
    next =>
      change ((state.challenges.insert challenge _).lookup id).isSome
      rw [lookup_insert_eq]
      split
      next => rfl
      next => exact within.known other id text there
  · have moved := @tally_update _ _ _ (fun _ => Call.uncounted id) _ _ _ (Call.verify challenge check) found
    have before := within.budget id
    change attempts (state.challenges.insert challenge { row with attempts := row.attempts + 1 }) id +
      (state.calls.insert call (.verify challenge check)).tally (fun _ => Call.uncounted id) ≤ _
    rw [counted]
    unfold State.uncounted at *
    by_cases same : id = challenge
    · subst same
      simp only [Call.uncounted,decide_true,toNat_true,toNat_false] at moved ⊢
      omega
    · simp only [Call.uncounted,same,Ne.symm same,decide_false,toNat_false] at moved ⊢
      omega
  · have moved := @tally_update _ _ _ (fun _ => Call.compares id) _ _ _ (Call.verify challenge check) found
    have before := within.checked id
    change state.checked.count id + (state.calls.insert call (.verify challenge check)).tally (fun _ => Call.compares id) ≤
      attempts (state.challenges.insert challenge { row with attempts := row.attempts + 1 }) id
    rw [counted]
    by_cases same : id = challenge
    · subst same
      have most := toNat_le (decide (id = id) && check.compares)
      simp only [Call.compares,decide_true,toNat_true,toNat_false] at moved most ⊢
      omega
    · simp only [Call.compares,same,Ne.symm same,decide_false,Bool.false_and,Bool.toNat_false] at moved ⊢
      omega

theorem Within.verify (found : state.calls.lookup call = some (.verify challenge check)) :
    Within (state.verify crypto call challenge opens unixSeconds check) := by
  have quiet : (state.mfa.advance crypto opens unixSeconds check).2.compares = false := advance_compares rfl
  refine ⟨fun other id text there => ?_,fun id => ?_,fun id => ?_⟩
  · have there : (state.calls.insert call (.verify challenge (state.mfa.advance crypto opens unixSeconds check).2)).lookup other =
        some (.countAttempt id text) := there
    rw [lookup_insert_eq] at there
    split at there
    next => cases there
    next => exact within.known other id text there
  · exact le_trans (Nat.add_le_add_left (tally_insert_le _ call rfl) _) (within.budget id)
  · have moved := @tally_update _ _ _ (fun _ => Call.compares id) _ _ _
      (Call.verify challenge (state.mfa.advance crypto opens unixSeconds check).2) found
    have before := within.checked id
    change (if check.compares then state.checked ++ [challenge] else state.checked).count id +
      (state.calls.insert call (.verify challenge (state.mfa.advance crypto opens unixSeconds check).2)).tally
        (fun _ => Call.compares id) ≤ attempts state.challenges id
    simp only [Call.compares,quiet,Bool.and_false,Bool.toNat_false] at moved
    split
    next compares =>
      rw [count_append,count_singleton]
      simp only [compares,Bool.and_true] at moved
      by_cases same : challenge = id
      · subst same
        simp only [decide_true,Bool.toNat_true,beq_self_eq_true,if_true] at moved ⊢
        omega
      · have apart : (challenge == id) = false := beq_false_of_ne same
        simp only [same,decide_false,Bool.toNat_false,apart] at moved ⊢
        simp only [Bool.false_eq_true,if_false]
        omega
    next => omega

theorem Within.consume : Within (state.consume call challenge) := by
  unfold State.consume
  split
  next => exact within.ends call
  next row stored =>
    split
    next => exact within.ends call
    next =>
      refine Within.continues (within.rows (fun id there => ?_) (fun id => ?_)) call (fun id => ⟨rfl,rfl⟩)
      · rw [lookup_insert_eq]
        split
        next => rfl
        next => exact there
      · rw [attempts_insert]
        split
        next here =>
          subst here
          simp [attempts,stored]
        next => rfl

theorem Within.go (found : state.calls.lookup call = some asked)
    (spared : (Event.goes call opens unixSeconds).spares state = true) : Within (state.go crypto call opens unixSeconds asked) := by
  cases asked with
  | resolve challenge submitted =>
    simp only [State.go]
    split
    next opened =>
      refine within.resolves found opened ?_
      simpa [Event.spares,found,opened] using spared
    next => exact within.ends call
  | countAttempt challenge submitted => exact within.countAttempt found
  | verify challenge check =>
    cases check with
    | ends ok =>
      cases ok with
      | true => exact within.continues call (fun id => ⟨rfl,rfl⟩)
      | false => exact within.ends call
    | _ => exact within.verify found
  | consume challenge => exact within.consume
  | issue challenge =>
    have ended := within.ends call
    exact ⟨ended.known,ended.budget,ended.checked⟩

theorem step_within (spared : event.spares state = true)
    (taken : step crypto state event = some next) : Within next := by
  cases event with
  | creates challenge =>
    simp only [step] at taken
    obtain ⟨fresh,taken⟩ := of_unless taken
    cases taken
    have fresh := not_isSome_iff_eq_none.mp fresh
    refine within.rows (fun id there => ?_) (fun id => ?_)
    · rw [lookup_insert_eq,lookup_mapRows]
      split
      next => rfl
      next => simpa using there
    · rw [attempts_insert,attempts_mapRows state.challenges (fun _ row => { row with consumed := true }) (fun _ _ => rfl)]
      split
      next here =>
        subst here
        simp [attempts,fresh]
      next => rfl
  | expires challenge =>
    cases taken
    refine within.rows (fun id there => ?_) (fun id => attempts_mapRows _ _ (fun _ _ => ?_) id)
    · rw [lookup_mapRows]
      simpa using there
    · split <;> rfl
  | disables disabled =>
    cases taken
    exact ⟨within.known,within.budget,within.checked⟩
  | answers call challenge submitted =>
    simp only [step] at taken
    obtain ⟨-,taken⟩ := of_unless taken
    cases taken
    exact within.continues call (fun id => ⟨rfl,rfl⟩)
  | goes call opens unixSeconds =>
    obtain ⟨asked,found,rfl⟩ := map_eq_some_iff.mp taken
    exact within.go found spared
  | fails call =>
    cases taken
    exact within.ends call

end

theorem consumed_insert (challenges : Table Nat Challenge) (id other : Nat) (row : Challenge) :
    consumed (challenges.insert id row) other = if other = id then row.consumed else consumed challenges other := by
  unfold consumed
  rw [lookup_insert_eq]
  split <;> rfl

section

variable (sole : Sole state)
include sole

theorem Sole.moves {calls : Table Nat Call} {issued checked : List Nat} {disabled : Bool}
    (single : ∀ id, issued.count id + calls.tally (fun _ => Call.issues id) ≤ (consumed challenges id).toNat) :
    Sole { state with challenges := challenges, calls := calls, issued := issued, checked := checked, disabled := disabled } :=
  ⟨single,sole.rising,sole.counter,sole.once,sole.used⟩

theorem Sole.ends (call : Nat) : Sole (state.ends call) :=
  sole.moves (fun id => le_trans (Nat.add_le_add_left (tally_erase_le _ _) _) (sole.issued id))

theorem Sole.continues (call : Nat) (plain : ∀ id, later.issues id = false) : Sole (state.continues call later) :=
  sole.moves (fun id => le_trans (Nat.add_le_add_left (tally_insert_le _ call (plain id)) _) (sole.issued id))

theorem Sole.rows {disabled : Bool}
    (kept : ∀ id, consumed state.challenges id = true → consumed challenges id = true) :
    Sole { state with challenges := challenges, disabled := disabled } := by
  refine sole.moves (fun id => le_trans (sole.issued id) ?_)
  cases held : consumed state.challenges id with
  | false => simp
  | true => rw [kept id held]

theorem Sole.consume (found : state.calls.lookup call = some (.consume challenge)) :
    Sole (state.consume call challenge) := by
  unfold State.consume
  split
  next => exact sole.ends call
  next row stored =>
    split
    next => exact sole.ends call
    next unspent =>
      refine sole.moves (fun id => ?_)
      have moved := @tally_update _ _ _ (fun _ => Call.issues id) _ _ _ (Call.issue challenge) found
      have before := sole.issued id
      rw [consumed_insert]
      by_cases same : id = challenge
      · subst same
        have free : consumed state.challenges id = false := by simp [consumed,stored,unspent]
        simp only [Call.issues,decide_true,toNat_true,toNat_false,free,if_true] at moved before ⊢
        change state.issued.count id + (state.calls.insert call (.issue id)).tally (fun _ => Call.issues id) ≤ 1
        omega
      · simp only [Call.issues,Ne.symm same,decide_false,toNat_false,if_neg same] at moved ⊢
        change state.issued.count id + (state.calls.insert call (.issue challenge)).tally (fun _ => Call.issues id) ≤ _
        omega

theorem Sole.issue (found : state.calls.lookup call = some (.issue challenge)) :
    Sole ({ state with issued := state.issued ++ [challenge] }.ends call) := by
  refine sole.moves (fun id => ?_)
  have moved := @tally_erase _ _ _ (fun _ => Call.issues id) _ _ _ found
  have before := sole.issued id
  rw [count_append,count_singleton]
  by_cases same : challenge = id
  · subst same
    simp only [Call.issues,decide_true,toNat_true,beq_self_eq_true,if_true] at moved ⊢
    change state.issued.count challenge + 1 + (state.calls.erase call).tally (fun _ => Call.issues challenge) ≤
      (consumed state.challenges challenge).toNat
    omega
  · have apart : (challenge == id) = false := beq_false_of_ne same
    simp only [Call.issues,same,decide_false,toNat_false,apart,false_eq_true,if_false] at moved ⊢
    change state.issued.count id + 0 + (state.calls.erase call).tally (fun _ => Call.issues id) ≤ (consumed state.challenges id).toNat
    omega

theorem Sole.verify : Sole (state.verify crypto call challenge opens unixSeconds check) := by
  have idle : ∀ id, state.issued.count id + (state.calls.insert call
      (.verify challenge (state.mfa.advance crypto opens unixSeconds check).2)).tally (fun _ => Call.issues id) ≤
        (consumed state.challenges id).toNat :=
    fun id => le_trans (Nat.add_le_add_left (tally_insert_le _ call rfl) _) (sole.issued id)
  unfold State.verify
  generalize after : state.mfa.advance crypto opens unixSeconds check = result
  obtain ⟨mfa,later⟩ := result
  rw [after] at idle
  rcases advance_cases after with ⟨used,rfl,burnt,rfl⟩ | ⟨hash,rfl,spent,rfl⟩ | ⟨row,code,rfl,rfl,rfl⟩ | ⟨rfl,well⟩
  · obtain ⟨row,stored,below,rfl⟩ := burn_some burnt
    refine ⟨idle,?_,?_,?_,?_⟩
    · refine pairwise_append.mpr ⟨sole.rising,pairwise_singleton _ _,fun one member other last => ?_⟩
      cases mem_singleton.mp last
      obtain ⟨row',counter,there,found,most⟩ := sole.counter one member
      cases stored.symm.trans there
      exact Int.lt_of_le_of_lt most (below counter found)
    · intro one member
      refine ⟨_,used,rfl,rfl,?_⟩
      rcases mem_append.mp member with old | new
      · obtain ⟨row',counter,there,found,most⟩ := sole.counter one old
        cases stored.symm.trans there
        exact Int.le_of_lt (Int.lt_of_le_of_lt most (below counter found))
      · exact Int.le_of_eq (mem_singleton.mp new)
    · exact (append_nil state.spent).symm ▸ sole.once
    · exact fun one member => sole.used one (append_nil state.spent ▸ (member : one ∈ state.spent ++ []))
  · obtain ⟨unused,rfl⟩ := spend_some spent
    refine ⟨idle,?_,?_,?_,?_⟩
    · exact (append_nil state.burnt).symm ▸ sole.rising
    · exact fun one member => sole.counter one (append_nil state.burnt ▸ (member : one ∈ state.burnt ++ []))
    · refine nodup_append.mpr ⟨sole.once,nodup_singleton _,fun one member other last same => ?_⟩
      subst same
      cases mem_singleton.mp last
      cases unused.symm.trans (sole.used _ member)
    · intro one member
      change (state.mfa.codes.insert hash true).lookup one = some true
      rw [lookup_insert_eq]
      split
      next => rfl
      next different =>
        rcases mem_append.mp member with old | new
        · exact sole.used one old
        · exact absurd (mem_singleton.mp new) different
  · have waits : ∀ (burnt : List Int) (spent : List String), burnt = state.burnt → spent = state.spent →
        Sole ({ state with mfa := state.mfa.reseal row, checked := if (Check.reseal row code).compares then state.checked ++ [challenge]
          else state.checked, burnt := burnt, spent := spent }.continues call (.verify challenge (row.judge crypto code unixSeconds))) := by
      rintro _ _ rfl rfl
      obtain ⟨codes,same⟩ := reseal_row state.mfa row
      refine ⟨idle,sole.rising,fun used member => ?_,sole.once,fun hash member => ?_⟩
      · obtain ⟨row',counter,there,found,most⟩ := sole.counter used member
        rcases same with ⟨none,-⟩ | ⟨before,after,stored,later,counters,-⟩
        · cases none.symm.trans there
        · cases stored.symm.trans there
          exact ⟨after,counter,later,counters.trans found,most⟩
      · exact (congrArg (·.lookup hash) codes).trans (sole.used hash member)
    refine waits _ _ ?_ ?_
    · simp [Check.step]
    · simp [Check.code]
  · have waits : ∀ (burnt : List Int) (spent : List String), burnt = state.burnt → spent = state.spent →
        Sole ({ state with checked := if check.compares then state.checked ++ [challenge]
          else state.checked, burnt := burnt, spent := spent }.continues call (.verify challenge later)) := by
      rintro _ _ rfl rfl
      exact ⟨idle,sole.rising,sole.counter,sole.once,sole.used⟩
    refine waits _ _ ?_ ?_
    all_goals
      split
      next done =>
        obtain rfl := well done
        exact append_nil _
      next => rfl

theorem Sole.go (found : state.calls.lookup call = some asked) :
    Sole (state.go crypto call opens unixSeconds asked) := by
  cases asked with
  | resolve challenge submitted =>
    simp only [State.go]
    split
    next => exact sole.continues call (fun _ => rfl)
    next => exact sole.ends call
  | countAttempt challenge submitted =>
    simp only [State.go,State.countAttempt]
    split
    next => exact sole.continues call (fun _ => rfl)
    next row stored =>
      refine Sole.continues (sole.rows (fun id held => ?_)) call (fun _ => rfl)
      rw [consumed_insert]
      split
      next here =>
        subst here
        simpa [consumed,stored] using held
      next => exact held
  | verify challenge check =>
    cases check with
    | ends ok =>
      cases ok with
      | true => exact sole.continues call (fun _ => rfl)
      | false => exact sole.ends call
    | _ => exact sole.verify
  | consume challenge => exact sole.consume found
  | issue challenge => exact sole.issue found

theorem step_sole (taken : step crypto state event = some next) : Sole next := by
  cases event with
  | creates challenge =>
    simp only [step] at taken
    obtain ⟨fresh,taken⟩ := of_unless taken
    cases taken
    have fresh := not_isSome_iff_eq_none.mp fresh
    refine sole.rows (fun id held => ?_)
    rw [consumed_insert]
    split
    next here =>
      subst here
      simp [consumed,fresh] at held
    next =>
      obtain ⟨row,stored,-⟩ := (any_eq_true _ _).mp held
      simp [consumed,lookup_mapRows,stored]
  | expires challenge =>
    cases taken
    refine sole.rows (fun id held => ?_)
    obtain ⟨row,stored,spent⟩ := (any_eq_true _ _).mp held
    refine (any_eq_true _ _).mpr ?_
    rw [lookup_mapRows,stored]
    refine ⟨_,rfl,?_⟩
    split <;> exact spent
  | disables disabled =>
    cases taken
    exact sole.rows (fun _ held => held)
  | answers call challenge submitted =>
    simp only [step] at taken
    obtain ⟨-,taken⟩ := of_unless taken
    cases taken
    exact sole.continues call (fun _ => rfl)
  | goes call opens unixSeconds =>
    obtain ⟨asked,found,rfl⟩ := map_eq_some_iff.mp taken
    exact sole.go found
  | fails call =>
    cases taken
    exact sole.ends call

end

theorem within_first (mfa : Mfa) : Within (State.first mfa) :=
  ⟨nofun,fun _ => Nat.zero_le _,fun _ => Nat.zero_le _⟩

theorem sole_first (mfa : Mfa) : Sole (State.first mfa) :=
  ⟨fun _ => Nat.zero_le _,List.Pairwise.nil,nofun,nodup_nil,nofun⟩

/-- At most six codes are checked for a challenge, as long as it is found open only while it has tries left for
the calls that have found it so before. However the calls overlap, a challenge gives one session at most, the
steps accepted increase, and a recovery code is accepted once. -/
theorem budget_holds {mfa : Mfa} {events : List Event}
    (met : Machine.Meets (step crypto) (fun state event => event.spares state = true) (State.first mfa) events)
    (ran : Machine.run (step crypto) (State.first mfa) events = some final) :
    (∀ challenge, final.checked.count challenge ≤ MAX_ATTEMPTS) ∧ (∀ challenge, final.issued.count challenge ≤ 1) ∧
      final.burnt.Pairwise (· < ·) ∧ final.spent.Nodup := by
  have within : Within final :=
    run_invariant (step crypto) (fun _ _ _ within spared taken => step_within within spared taken) (within_first mfa) met ran
  have sole : Sole final :=
    run_invariant_always (step crypto) (fun _ _ _ sole taken => step_sole sole taken) (sole_first mfa) ran
  refine ⟨fun challenge => ?_,fun challenge => ?_,sole.rising,sole.once⟩
  · have checked := within.checked challenge
    have budget := within.budget challenge
    omega
  · have issued := sole.issued challenge
    have most := toNat_le (consumed final.challenges challenge)
    omega

def zeros : Crypto := ⟨fun _ _ => List.replicate 20 0,fun text => text,fun text => text,true⟩

def enrolled : Mfa := ⟨some ⟨[],true,true,none,0⟩,∅⟩

theorem budget_holds_login : ∃ final, Machine.run (step zeros) (State.first enrolled)
    ([.creates 1,.answers 1 1 "000000".toList] ++ List.replicate 7 (.goes 1 true 60)) = some final ∧
      final.issued = [1] ∧ final.checked.count 1 ≤ MAX_ATTEMPTS ∧ final.issued.count 1 ≤ 1 := by
  have runs : (Machine.run (step zeros) (State.first enrolled)
      ([.creates 1,.answers 1 1 "000000".toList] ++ List.replicate 7 (.goes 1 true 60))).any (fun final =>
        final.issued = [1]) = true := by decide +kernel
  have met : Machine.Meets (step zeros) (fun state event => event.spares state = true) (State.first enrolled)
      ([.creates 1,.answers 1 1 "000000".toList] ++ List.replicate 7 (.goes 1 true 60)) := by decide +kernel
  obtain ⟨final,ran,issued⟩ := (any_eq_true _ _).mp runs
  obtain ⟨checked,single,-,-⟩ := budget_holds met ran
  exact ⟨final,ran,of_decide_eq_true issued,checked 1,single 1⟩

/-- Seven calls find the challenge open before any of them has counted its try. -/
theorem budget_exceeded : ¬∀ events final, Machine.run (step zeros) (State.first enrolled) events = some final →
    ∀ challenge, final.checked.count challenge ≤ MAX_ATTEMPTS := by
  intro claimed
  have runs : (Machine.run (step zeros) (State.first enrolled) ([.creates 1] ++
      (List.range 7).map (fun call => .answers call 1 "123456".toList) ++ (List.range 7).map (fun call => .goes call true 60) ++
      (List.range 7).map (fun call => .goes call true 60) ++ (List.range 7).map (fun call => .goes call true 60))).any (fun final =>
        final.checked.count 1 = 7) = true := by decide +kernel
  obtain ⟨final,ran,seven⟩ := (any_eq_true _ _).mp runs
  have most := claimed _ final ran 1
  rw [of_decide_eq_true seven] at most
  exact absurd most (by decide)

/-- Whatever calls find a challenge open at once and wherever they fail, it gives one session at most, accepted
steps rise, and no recovery code is accepted twice. -/
theorem used_once {mfa : Mfa} {events : List Event} (ran : Machine.run (step crypto) (State.first mfa) events = some final) :
    (∀ challenge, final.issued.count challenge ≤ 1) ∧ final.burnt.Pairwise (· < ·) ∧ final.spent.Nodup := by
  have sole : Sole final :=
    run_invariant_always (step crypto) (fun _ _ _ sole taken => step_sole sole taken) (sole_first mfa) ran
  refine ⟨fun challenge => ?_,sole.rising,sole.once⟩
  have single := sole.issued challenge
  have most := toNat_le (consumed final.challenges challenge)
  omega

private def overlapping : List Event := [.creates 1,.answers 1 1 "000000".toList,.answers 2 1 [],.goes 2 true 60] ++
  List.replicate 7 (.goes 1 true 60)

theorem used_once_overlapping : ∃ final, Machine.run (step zeros) (State.first enrolled) overlapping = some final ∧
    final.issued.count 1 ≤ 1 := by
  have ends : (Machine.run (step zeros) (State.first enrolled) overlapping).isSome = true := by decide +kernel
  obtain ⟨final,ran⟩ := isSome_iff_exists.mp ends
  exact ⟨final,ran,(used_once ran).1 1⟩

end Depsis.Auth.Pending

import Depsis.Auth.Resets
import Depsis.Foundation.Tally

/-! What a reset ticket gives: one password at most, and none without the second factor an account has. Its
budget and its end hold as long as no call is caught between two of its statements.
-/
namespace Depsis.Auth.Resets

open Depsis.Foundation AList Bool

variable {crypto : Crypto} {state next final : State} {event : Event} {call ticket : Nat} {asked later : Call}
variable {opens : Bool} {unixSeconds : Int} {check : Check}

def Call.subject : Call → Nat
  | .resolve ticket _ | .isEnrolled ticket _ | .verify ticket _ _ | .recordAttempt ticket _ | .consume ticket
  | .setPasswordHash ticket => ticket

def Call.sets : Call → Bool
  | .setPasswordHash _ => true
  | _ => false

def Call.holds : Call → Bool
  | .verify _ _ (.ends true) | .consume _ | .setPasswordHash _ => true
  | _ => false

def Call.pending : Call → Bool
  | .isEnrolled _ _ => true
  | .verify _ _ check => check.compares
  | _ => false

def Call.owes : Call → Bool
  | .verify _ compared check => compared && !check.compares
  | .recordAttempt _ compared => compared
  | .consume _ => true
  | _ => false

def Call.underway : Call → Bool
  | .isEnrolled _ _ | .verify _ _ _ | .recordAttempt _ _ | .consume _ => true
  | _ => false

def Call.advances : Call → Bool
  | .isEnrolled _ _ | .verify _ _ _ | .consume _ | .setPasswordHash _ => true
  | _ => false

def attempts (tickets : Table Nat Ticket) (ticket : Nat) : Nat := ((tickets.lookup ticket).map Ticket.attempts).getD 0

def consumed (tickets : Table Nat Ticket) (ticket : Nat) : Bool := (tickets.lookup ticket).any Ticket.consumed

def State.count (state : State) (test : Call → Bool) (ticket : Nat) : Nat := state.calls.tallyOf Call.subject test ticket

def State.written (state : State) (ticket : Nat) : Nat := (state.writes.map Write.ticket).count ticket

/-- No ticket is opened while a call is about to set the password, and no account disabled while one has found a
ticket open; a ticket of an account that has been disabled is not found open again, and one of an account with a
second factor only while it has tries left for the calls under way; the try of a checked code is recorded. -/
def Event.spares (state : State) : Event → Bool
  | .opens _ => state.calls.all (fun _ asked => !asked.sets)
  | .disables disabled => !disabled || state.calls.all (fun _ asked => !asked.advances)
  | .goes call _ _ => (state.calls.lookup call).all (fun asked =>
      match asked with
      | .resolve ticket _ => !state.resolves ticket || !barred state.tickets ticket &&
          (!state.enrolled || attempts state.tickets ticket + state.count Call.underway ticket < MAX_ATTEMPTS)
      | _ => true)
  | .fails call => !state.enrolled ||
      (state.calls.lookup call).all (fun asked => !asked.owes || consumed state.tickets asked.subject)
  | _ => true

structure Sole (state : State) : Prop where
  single : ∀ ticket, state.written ticket + state.count Call.sets ticket ≤ (consumed state.tickets ticket).toNat
  factor : state.enrolled = true → ∀ ticket, state.written ticket + state.count Call.holds ticket ≤ state.accepted.count ticket
  plain : state.enrolled = false → state.checked = []
  unasked : state.enrolled = false → ∀ call ticket compared check, state.calls.lookup call ≠ some (.verify ticket compared check)

structure Within (state : State) : Prop where
  known : ∀ call asked, state.calls.lookup call = some asked → asked.underway = true → (state.tickets.lookup asked.subject).isSome
  owing : ∀ ticket, consumed state.tickets ticket = false →
    state.checked.count ticket ≤ attempts state.tickets ticket + state.count Call.owes ticket
  room : ∀ ticket, consumed state.tickets ticket = false →
    attempts state.tickets ticket + state.count Call.underway ticket ≤ MAX_ATTEMPTS
  most : ∀ ticket, state.checked.count ticket + state.count Call.pending ticket ≤ MAX_ATTEMPTS

structure Timely (state : State) : Prop where
  newest : ∀ ticket row, state.tickets.lookup ticket = some row → row.consumed = false → state.latest = some ticket
  current : ∀ call ticket, state.calls.lookup call = some (.setPasswordHash ticket) → state.latest = some ticket
  fresh : ∀ call asked, state.calls.lookup call = some asked → asked.advances = true → barred state.tickets asked.subject = false
  writes : ∀ write ∈ state.writes, write.superseded = false ∧ write.barred = false

section

variable (tickets : Table Nat Ticket)
include tickets

theorem consumed_insert (id other : Nat) (row : Ticket) :
    consumed (tickets.insert id row) other = if other = id then row.consumed else consumed tickets other := by
  unfold consumed
  rw [lookup_insert_eq]
  split <;> rfl

theorem attempts_insert (id other : Nat) (row : Ticket) :
    attempts (tickets.insert id row) other = if other = id then row.attempts else attempts tickets other := by
  unfold attempts
  rw [lookup_insert_eq]
  split <;> rfl

theorem barred_insert (id other : Nat) (row : Ticket) :
    barred (tickets.insert id row) other = if other = id then row.barred else barred tickets other := by
  unfold barred
  rw [lookup_insert_eq]
  split <;> rfl

theorem mapRows_same (change : Nat → Ticket → Ticket)
    (attemptsSame : ∀ id row, (change id row).attempts = row.attempts)
    (consumedSame : ∀ id row, (change id row).consumed = row.consumed) (other : Nat) :
    attempts (tickets.mapRows change) other = attempts tickets other ∧ consumed (tickets.mapRows change) other = consumed tickets other := by
  unfold attempts consumed
  rw [lookup_mapRows]
  cases tickets.lookup other with
  | none => exact ⟨rfl,rfl⟩
  | some row => exact ⟨attemptsSame other row,consumedSame other row⟩

end

/-! Whether the account has a second factor stays. -/

theorem advance_confirmed {mfa after : Mfa} {following : Check} (advanced : mfa.advance crypto opens unixSeconds check = (after,following)) :
    after.row.any TotpRow.confirmed = mfa.row.any TotpRow.confirmed := by
  rcases advance_cases advanced with ⟨used,rfl,burnt,rfl⟩ | ⟨hash,rfl,spent,rfl⟩ | ⟨row,code,rfl,rfl,rfl⟩ | ⟨rfl,-⟩
  · obtain ⟨row,stored,-,rfl⟩ := burn_some burnt
    rw [stored]
    rfl
  · obtain ⟨-,rfl⟩ := spend_some spent
    rfl
  · rcases (reseal_row mfa row).2 with ⟨none,still⟩ | ⟨before,after,stored,later,-,same⟩
    · rw [none,still]
    · rw [stored,later]
      exact same
  · rfl

theorem go_enrolled (asked : Call) : (state.go crypto call opens unixSeconds asked).enrolled = state.enrolled := by
  have verified : ∀ ticket compared check, (state.verify crypto call ticket compared opens unixSeconds check).enrolled = state.enrolled :=
    fun _ _ _ => advance_confirmed rfl
  cases asked with
  | resolve ticket submitted =>
    simp only [State.go]
    split <;> rfl
  | isEnrolled ticket submitted =>
    simp only [State.go]
    split
    next => rfl
    next => split <;> rfl
  | verify ticket compared check =>
    cases check with
    | ends ok => cases ok <;> rfl
    | _ => exact verified ticket compared _
  | recordAttempt ticket compared =>
    simp only [State.go,State.recordAttempt]
    split <;> rfl
  | consume ticket =>
    simp only [State.go,State.consume]
    split
    next => rfl
    next => split <;> rfl
  | setPasswordHash ticket => rfl

theorem step_enrolled (taken : step crypto state event = some next) : next.enrolled = state.enrolled := by
  cases event with
  | opens ticket | redeems call ticket submitted =>
    simp only [step] at taken
    obtain ⟨-,taken⟩ := of_unless taken
    cases taken
    rfl
  | goes call opens unixSeconds =>
    obtain ⟨asked,-,rfl⟩ := Option.map_eq_some_iff.mp taken
    exact go_enrolled asked
  | expires ticket | disables disabled | fails call =>
    cases taken
    rfl

theorem count_insert (ticket : Nat) (later : Call) (found : state.calls.lookup call = some asked) (named : asked.subject = ticket) (same : later.subject = ticket)
    (test : Call → Bool) (id : Nat) :
    (state.calls.insert call later).tallyOf Call.subject test id + (if ticket = id then (test asked).toNat else 0) =
      state.count test id + if ticket = id then (test later).toNat else 0 := by
  subst named
  exact tallyOf_update found same id

theorem count_erase (ticket : Nat) (found : state.calls.lookup call = some asked) (named : asked.subject = ticket) (test : Call → Bool) (id : Nat) :
    (state.calls.erase call).tallyOf Call.subject test id + (if ticket = id then (test asked).toNat else 0) = state.count test id := by
  subst named
  exact tallyOf_erase found id

section

variable (sole : Sole state)
include sole

theorem Sole.moves {tickets : Table Nat Ticket} {calls : Table Nat Call} {disabled : Bool} {latest : Option Nat}
    (single : ∀ id, state.written id + calls.tallyOf Call.subject Call.sets id ≤ (consumed tickets id).toNat)
    (factor : state.enrolled = true → ∀ id, calls.tallyOf Call.subject Call.holds id ≤ state.count Call.holds id)
    (unasked : state.enrolled = false → ∀ call ticket compared check, calls.lookup call ≠ some (.verify ticket compared check)) :
    Sole { state with tickets := tickets, calls := calls, disabled := disabled, latest := latest } :=
  ⟨single,fun enrolled id => le_trans (Nat.add_le_add_left (factor enrolled id) _) (sole.factor enrolled id),sole.plain,unasked⟩

theorem Sole.unasked_erase (call : Nat) (not : state.enrolled = false) (other ticket : Nat) (compared : Bool)
    (check : Check) : (state.calls.erase call).lookup other ≠ some (.verify ticket compared check) := by
  intro found
  obtain ⟨-,found⟩ := lookup_erase_some found
  exact sole.unasked not other ticket compared check found

theorem Sole.unasked_insert (call : Nat) (not : state.enrolled = false)
    (plain : ∀ ticket compared check, later ≠ .verify ticket compared check) (other ticket : Nat) (compared : Bool) (check : Check) :
    (state.calls.insert call later).lookup other ≠ some (.verify ticket compared check) := by
  intro found
  rcases lookup_insert_cases found with ⟨-,is⟩ | ⟨-,found⟩
  · exact plain ticket compared check is.symm
  · exact sole.unasked not other ticket compared check found

theorem Sole.ends (call : Nat) : Sole (state.ends call) := by
  apply sole.moves
  · exact fun id => le_trans (Nat.add_le_add_left (tallyOf_erase_le _ _ _) _) (sole.single id)
  · exact fun _ id => tallyOf_erase_le _ _ _
  · exact sole.unasked_erase call

theorem Sole.continues (call : Nat) (neither : later.sets = false) (holds : state.enrolled = true → later.holds = false)
    (plain : state.enrolled = false → ∀ ticket compared check, later ≠ .verify ticket compared check) :
    Sole (state.continues call later) := by
  apply sole.moves
  · exact fun id => le_trans (Nat.add_le_add_left (tallyOf_insert_le _ _ neither _) _) (sole.single id)
  · exact fun enrolled id => tallyOf_insert_le _ _ (holds enrolled) _
  · exact fun not => sole.unasked_insert call not (plain not)

theorem Sole.rows {tickets : Table Nat Ticket} {disabled : Bool} {latest : Option Nat}
    (kept : ∀ id, consumed state.tickets id = true → consumed tickets id = true) :
    Sole { state with tickets := tickets, disabled := disabled, latest := latest } := by
  apply sole.moves
  · intro id
    refine le_trans (sole.single id) ?_
    cases held : consumed state.tickets id with
    | false => exact Nat.zero_le _
    | true => rw [kept id held]
  · exact fun _ id => le_refl _
  · exact sole.unasked

theorem Sole.holding (found : state.calls.lookup call = some asked) (same : later.subject = asked.subject)
    (held : asked.holds = true) (neither : later.sets = false)
    (plain : ∀ ticket compared check, later ≠ .verify ticket compared check) : Sole (state.continues call later) := by
  apply sole.moves
  · exact fun id => le_trans (Nat.add_le_add_left (tallyOf_insert_le _ _ neither _) _) (sole.single id)
  · intro _ id
    have moved := count_insert asked.subject later found rfl same Call.holds id
    have most := toNat_le later.holds
    rw [held] at moved
    split at moved
    next =>
      simp only [toNat_true] at moved
      omega
    next => omega
  · exact fun not => sole.unasked_insert call not plain

theorem Sole.consume (found : state.calls.lookup call = some (.consume ticket)) :
    Sole (state.consume call ticket) := by
  unfold State.consume
  split
  next => exact sole.ends call
  next row stored =>
    split
    next => exact sole.ends call
    next unspent =>
      apply sole.moves
      · intro id
        have moved := count_insert ticket (.setPasswordHash ticket) found rfl rfl Call.sets id
        have before := sole.single id
        have free : consumed state.tickets ticket = false := by simp [consumed,stored,unspent]
        rw [consumed_insert]
        simp only [Call.sets,toNat_true,toNat_false] at moved
        by_cases here : id = ticket
        · subst here
          simp only [free,toNat_false,if_true,toNat_true] at before moved ⊢
          omega
        · have apart : ticket ≠ id := Ne.symm here
          simp only [if_neg here,if_neg apart] at moved ⊢
          omega
      · intro _ id
        have moved := count_insert ticket (.setPasswordHash ticket) found rfl rfl Call.holds id
        simp only [Call.holds] at moved
        change (state.calls.insert call (.setPasswordHash ticket)).tallyOf Call.subject Call.holds id ≤ state.count Call.holds id
        omega
      · exact fun not => sole.unasked_insert call not nofun

end

theorem written_append (state : State) (ticket : Nat) (superseded barred : Bool) (id : Nat) :
    ((state.writes ++ [Write.mk ticket superseded barred]).map Write.ticket).count id = state.written id + if ticket = id then 1 else 0 := by
  rw [List.map_append,List.count_append]
  simp [State.written,List.count_singleton]

theorem Sole.setPasswordHash (sole : Sole state) (found : state.calls.lookup call = some (.setPasswordHash ticket)) :
    Sole (state.setPasswordHash call ticket) := by
  refine ⟨fun id => ?_,fun enrolled id => ?_,sole.plain,sole.unasked_erase call⟩
  · have moved := count_erase ticket found rfl Call.sets id
    have before := sole.single id
    change ((state.writes ++ [_]).map Write.ticket).count id + (state.calls.erase call).tallyOf Call.subject Call.sets id ≤
      (consumed state.tickets id).toNat
    rw [written_append]
    simp only [Call.sets,toNat_true] at moved
    omega
  · have moved := count_erase ticket found rfl Call.holds id
    have before := sole.factor enrolled id
    change ((state.writes ++ [_]).map Write.ticket).count id + (state.calls.erase call).tallyOf Call.subject Call.holds id ≤
      state.accepted.count id
    rw [written_append]
    simp only [Call.holds,toNat_true] at moved
    omega

theorem Sole.verify {compared : Bool} (sole : Sole state) (found : state.calls.lookup call = some (.verify ticket compared check)) :
    Sole (state.verify crypto call ticket compared opens unixSeconds check) := by
  have same : (state.verify crypto call ticket compared opens unixSeconds check).enrolled = state.enrolled := advance_confirmed rfl
  have enrolled : state.enrolled = true := by
    cases held : state.enrolled with
    | false => exact absurd found (sole.unasked held call ticket compared check)
    | true => rfl
  refine ⟨fun id => ?_,fun _ id => ?_,fun not => ?_,fun not => ?_⟩
  · exact le_trans (Nat.add_le_add_left (tallyOf_insert_le _ _ rfl _) _) (sole.single id)
  · have moved := count_insert ticket (.verify ticket (compared || check.compares) (state.mfa.advance crypto opens unixSeconds check).2)
      found rfl rfl Call.holds id
    have before := sole.factor enrolled id
    change state.written id + (state.calls.insert call (.verify ticket (compared || check.compares)
      (state.mfa.advance crypto opens unixSeconds check).2)).tallyOf Call.subject Call.holds id ≤
        (if (state.mfa.advance crypto opens unixSeconds check).2 = Check.ends true then state.accepted ++ [ticket]
          else state.accepted).count id
    generalize (state.mfa.advance crypto opens unixSeconds check).2 = after at *
    split
    next done =>
      rw [List.count_append,List.count_singleton]
      have most := toNat_le (Call.verify ticket (compared || check.compares) after).holds
      by_cases here : ticket = id
      · subst here
        simp only [if_true,beq_self_eq_true] at moved ⊢
        omega
      · simp only [if_neg here] at moved
        omega
    next waits =>
      have none : (Call.verify ticket (compared || check.compares) after).holds = false := by
        unfold Call.holds
        split
        next matched => exact absurd (Call.verify.inj matched).2.2 waits
        all_goals first | rfl | (rename_i matched; cases matched)
      rw [none] at moved
      simp only [toNat_false,ite_self] at moved
      omega
  all_goals exact absurd (same.symm.trans not) (by simp [enrolled])

theorem Sole.go (sole : Sole state) (found : state.calls.lookup call = some asked) :
    Sole (state.go crypto call opens unixSeconds asked) := by
  cases asked with
  | resolve ticket submitted =>
    simp only [State.go]
    split
    next => exact sole.continues call rfl (fun _ => rfl) nofun
    next => exact sole.ends call
  | isEnrolled ticket submitted =>
    simp only [State.go]
    split
    next not =>
      have not : state.enrolled = false := by simpa using not
      exact sole.continues call rfl (fun enrolled => by simp [not] at enrolled) nofun
    next enrolled =>
      have enrolled : state.enrolled = true := by simpa using enrolled
      split
      next => exact sole.continues call rfl (fun _ => rfl) nofun
      next =>
        refine sole.continues call rfl (fun _ => ?_) (fun not => by simp [enrolled] at not)
        unfold verifySecondFactor
        simp only []
        split
        next => rfl
        next => split <;> rfl
  | verify ticket compared check =>
    cases check with
    | ends ok =>
      cases ok with
      | true => exact sole.holding found rfl rfl rfl nofun
      | false => exact sole.continues call rfl (fun _ => rfl) nofun
    | _ => exact sole.verify found
  | recordAttempt ticket compared =>
    simp only [State.go,State.recordAttempt]
    split
    next => exact sole.ends call
    next row stored =>
      refine Sole.ends (sole.rows (fun id held => ?_)) call
      rw [consumed_insert]
      split
      next here =>
        subst here
        simpa [consumed,stored] using held
      next => exact held
  | consume ticket => exact sole.consume found
  | setPasswordHash ticket => exact sole.setPasswordHash found

theorem step_sole (sole : Sole state) (taken : step crypto state event = some next) : Sole next := by
  cases event with
  | opens ticket =>
    simp only [step] at taken
    obtain ⟨fresh,taken⟩ := of_unless taken
    cases taken
    have fresh := Option.not_isSome_iff_eq_none.mp fresh
    refine sole.rows (fun id held => ?_)
    rw [consumed_insert]
    split
    next here =>
      subst here
      simp [consumed,fresh] at held
    next =>
      obtain ⟨row,stored,-⟩ := (Option.any_eq_true _ _).mp held
      simp [consumed,lookup_mapRows,stored]
  | expires ticket =>
    cases taken
    refine sole.rows (fun id held => (mapRows_same _ _ ?_ ?_ id).2.trans held)
    all_goals
      intro id row
      split <;> rfl
  | disables disabled =>
    cases taken
    exact sole.rows (fun id held => (mapRows_same _ (fun _ row => { row with barred := row.barred || disabled })
      (fun _ _ => rfl) (fun _ _ => rfl) id).2.trans held)
  | redeems call ticket submitted =>
    simp only [step] at taken
    obtain ⟨-,taken⟩ := of_unless taken
    cases taken
    exact sole.continues call rfl (fun _ => rfl) nofun
  | goes call opens unixSeconds =>
    obtain ⟨asked,found,rfl⟩ := Option.map_eq_some_iff.mp taken
    exact sole.go found
  | fails call =>
    cases taken
    exact sole.ends call

end Depsis.Auth.Resets

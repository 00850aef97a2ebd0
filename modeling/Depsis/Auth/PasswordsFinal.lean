import Depsis.Auth.Passwords

/-! What has been taken away stays away, as long as no session is issued for a password whose sessions have
already been revoked, and none is restored that something else has revoked.
-/
namespace Depsis.Auth.Passwords

open Depsis.Foundation AList Option Machine

variable {crypto : Crypto} {state next final : State} {event : Event} {call id version : Nat} {asked later : Call}

def State.current (state : State) (version : Nat) : Bool := state.past.all (fun replaced => replaced.version ≤ version)

def Event.spares (state : State) : Event → Bool
  | .goes call _ _ =>
    match state.calls.lookup call with
    | some (.issue version) => state.current version
    | some (.restore own) => (state.sessions.lookup own).all (fun row => !row.barred)
    | _ => true
  | .second event _ => (state.issuing event).all (fun challenge => state.current (state.behind challenge))
  | _ => true

structure Kept (state : State) : Prop where
  older : ∀ replaced ∈ state.past, ∀ id row, state.sessions.lookup id = some row → row.version < replaced.version →
    replaced.own = some id ∨ row.barred = true
  dead : ∀ id row, state.sessions.lookup id = some row → row.barred = true → row.revoked = true

def Lasts (state next : State) : Prop := ∀ id row, state.sessions.lookup id = some row → row.barred = true →
  ∃ now, next.sessions.lookup id = some now ∧ now.barred = true

theorem lasts_refl (state : State) : Lasts state state := fun _ row stored barred => ⟨row,stored,barred⟩

theorem Lasts.trans {middle : State} (one : Lasts state middle) (two : Lasts middle final) : Lasts state final := by
  intro id row stored barred
  obtain ⟨between,there,still⟩ := one id row stored barred
  exact two id between there still

theorem Kept.same (kept : Kept state) (sessions : next.sessions = state.sessions) (past : next.past = state.past) :
    Kept next ∧ Lasts state next := by
  constructor
  · constructor
    · intro replaced member id row stored
      rw [past] at member
      rw [sessions] at stored
      exact kept.older replaced member id row stored
    · intro id row stored
      rw [sessions] at stored
      exact kept.dead id row stored
  · intro id row stored barred
    exact ⟨row,sessions ▸ stored,barred⟩

theorem Kept.continues (kept : Kept state) (call : Nat) (later : Call) : Kept (state.continues call later) := ⟨kept.older,kept.dead⟩

theorem Kept.ends (kept : Kept state) (call : Nat) : Kept (state.ends call) := ⟨kept.older,kept.dead⟩

theorem Kept.issue (kept : Kept state) (issued : state.issue id version = some next) (current : state.current version = true) :
    Kept next ∧ Lasts state next := by
  unfold State.issue at issued
  obtain ⟨fresh,issued⟩ := of_unless issued
  cases issued
  have fresh := not_isSome_iff_eq_none.mp fresh
  refine ⟨⟨fun replaced member other row stored less => ?_,fun other row stored barred => ?_⟩,fun other row stored barred => ?_⟩
  · have stored := (lookup_insert_eq _ _ _ _).symm.trans stored
    split at stored
    next =>
      cases stored
      have least := of_decide_eq_true (List.all_eq_true.mp current replaced member)
      exact absurd less (Nat.not_lt.mpr least)
    next => exact kept.older replaced member other row stored less
  · have stored := (lookup_insert_eq _ _ _ _).symm.trans stored
    split at stored
    next =>
      cases stored
      cases barred
    next => exact kept.dead other row stored barred
  · refine ⟨row,(lookup_insert_eq _ _ _ _).trans ?_,barred⟩
    split
    next same =>
      subst same
      cases fresh.symm.trans stored
    next => exact stored

theorem Kept.rows {change : Nat → Session → Session} (kept : Kept state) (version : ∀ id row, (change id row).version = row.version)
    (lasts : ∀ id row, row.barred = true → (change id row).barred = true)
    (dead : ∀ id row, (row.barred = true → row.revoked = true) → (state.sessions.lookup id = some row) →
      (change id row).barred = true → (change id row).revoked = true) :
    Kept { state with sessions := state.sessions.mapRows change } ∧ Lasts state { state with sessions := state.sessions.mapRows change } := by
  have back : ∀ id row, (state.sessions.mapRows change).lookup id = some row →
      ∃ before, state.sessions.lookup id = some before ∧ row = change id before := by
    intro id row stored
    rw [lookup_mapRows] at stored
    obtain ⟨before,there,same⟩ := map_eq_some_iff.mp stored
    exact ⟨before,there,same.symm⟩
  refine ⟨⟨fun replaced member id row stored less => ?_,fun id row stored barred => ?_⟩,fun id row stored barred => ?_⟩
  · obtain ⟨before,there,rfl⟩ := back id row stored
    rw [version] at less
    rcases kept.older replaced member id before there less with own | held
    · exact .inl own
    · exact .inr (lasts id before held)
  · obtain ⟨before,there,rfl⟩ := back id row stored
    exact dead id before (kept.dead id before there) there barred
  · refine ⟨change id row,?_,lasts id row barred⟩
    exact (lookup_mapRows change state.sessions id).trans (congrArg (Option.map (change id)) stored)

theorem Kept.revokeAll (kept : Kept state) (own : Option Nat) : Kept (state.revokeAll own) ∧ Lasts state (state.revokeAll own) := by
  apply kept.rows
  · exact fun _ _ => rfl
  · intro id row barred
    simp [barred]
  · exact fun _ _ _ _ _ => rfl

theorem Kept.replaced {own : Option Nat} (kept : Kept (state.revokeAll own)) : Kept ((state.revokeAll own).replaced version own) := by
  refine ⟨fun replaced member id row stored less => ?_,kept.dead⟩
  rcases List.mem_append.mp member with before | here
  · exact kept.older replaced before id row stored less
  · cases List.mem_singleton.mp here
    have stored := (lookup_mapRows _ _ _).symm.trans stored
    obtain ⟨before,-,rfl⟩ := map_eq_some_iff.mp stored
    by_cases same : own = some id
    · exact .inl same
    · exact .inr (by simp [same])

theorem Kept.restore {own : Nat} (kept : Kept state) (free : (state.sessions.lookup own).all (fun row => !row.barred) = true) :
    Kept (state.restore own) ∧ Lasts state (state.restore own) := by
  apply kept.rows
  · intro id row
    split <;> rfl
  · intro id row barred
    split <;> exact barred
  · intro id row dead stored barred
    split at barred
    next same =>
      subst same
      have not : row.barred = false := by simpa [stored] using free
      exact absurd (not.symm.trans barred) (by decide)
    next different =>
      rw [if_neg different]
      exact dead barred

theorem Kept.revoke (kept : Kept state) (session : Nat) : Kept (state.revoke session) ∧ Lasts state (state.revoke session) := by
  apply kept.rows
  · intro id row
    split <;> rfl
  · intro id row barred
    split
    next => rfl
    next => exact barred
  · intro id row dead _ barred
    split
    next => rfl
    next still =>
      rw [if_neg still] at barred
      exact dead barred

theorem Kept.go {right : Bool} (kept : Kept state) (found : state.calls.lookup call = some asked)
    (spared : (Event.goes call right id).spares state = true) (went : state.go crypto call right id asked = some next) :
    Kept next ∧ Lasts state next := by
  cases asked with
  | findUser | verifyPassword version =>
    cases went
    split <;> exact kept.same rfl rfl
  | isEnrolled version =>
    cases went
    exact kept.same rfl rfl
  | createPending version =>
    obtain ⟨logins,-,rfl⟩ := map_eq_some_iff.mp went
    exact kept.same rfl rfl
  | issue version =>
    have current : state.current version = true := by simpa [Event.spares,found] using spared
    exact (kept.ends call).issue went current
  | reauth own =>
    cases went
    split <;> exact kept.same rfl rfl
  | updatePassword own =>
    cases went
    exact kept.same rfl rfl
  | revokeAllForUser own version =>
    cases went
    obtain ⟨revoked,lasts⟩ := kept.revokeAll (some own)
    have replaced : Kept ((state.revokeAll (some own)).replaced version (some own)) := revoked.replaced
    exact ⟨replaced.continues call _,lasts⟩
  | restore own =>
    cases went
    have free : (state.sessions.lookup own).all (fun row => !row.barred) = true := by simpa [Event.spares,found] using spared
    obtain ⟨restored,lasts⟩ := kept.restore free
    exact ⟨restored.ends call,lasts⟩
  | setPasswordHash =>
    cases went
    exact kept.same rfl rfl
  | revokeAfterReset version =>
    cases went
    obtain ⟨revoked,lasts⟩ := kept.revokeAll none
    have replaced : Kept ((state.revokeAll none).replaced version none) := revoked.replaced
    exact ⟨replaced.ends call,lasts⟩

theorem Kept.second {event : Pending.Event} (kept : Kept state) (spared : (Event.second event id).spares state = true)
    (went : state.second crypto event id = some next) : Kept next ∧ Lasts state next := by
  unfold State.second at went
  split at went
  next => cases went
  next logins _ =>
    split at went
    next =>
      cases went
      exact kept.same rfl rfl
    next challenge issuing =>
      have current : state.current (state.behind challenge) = true := by simpa [Event.spares,issuing] using spared
      have moved : Kept { state with logins := logins } := (@Kept.same state { state with logins := logins } kept rfl rfl).1
      exact moved.issue went current

theorem step_kept (kept : Kept state) (spared : event.spares state = true) (taken : step crypto state event = some next) :
    Kept next ∧ Lasts state next := by
  cases event with simp only [step] at taken
  | logsIn call | changes call own | resets call =>
    obtain ⟨-,taken⟩ := of_unless taken
    cases taken
    exact kept.same rfl rfl
  | revokes session =>
    cases taken
    exact kept.revoke session
  | revokesAll =>
    cases taken
    exact kept.revokeAll none
  | goes call right id =>
    obtain ⟨asked,found,went⟩ := bind_eq_some_iff.mp taken
    exact kept.go found spared went
  | fails call =>
    cases taken
    exact kept.same rfl rfl
  | second event id =>
    cases event with
    | creates challenge => cases taken
    | _ => exact @Kept.second crypto _ _ _ _ kept spared taken

theorem kept_first (mfa : Mfa) : Kept (State.first mfa) := ⟨nofun,nofun⟩

theorem run_kept {events : List Event} (kept : Kept state)
    (met : Machine.Meets (step crypto) (fun state event => event.spares state = true) state events)
    (ran : Machine.run (step crypto) state events = some final) : Kept final ∧ Lasts state final := by
  have steps : ∀ middle event next, Kept middle ∧ Lasts state middle → event.spares middle = true →
      step crypto middle event = some next → Kept next ∧ Lasts state next := by
    intro middle event next held spared taken
    obtain ⟨kept,lasts⟩ := step_kept held.1 spared taken
    exact ⟨kept,held.2.trans lasts⟩
  exact run_invariant (step crypto) steps ⟨kept,lasts_refl state⟩ met ran

/-- After a change or a reset has revoked the sessions, the only live one obtained with an older password is the one
it came from; and a session that anything else has revoked is revoked ever after. -/
theorem taken_away {mfa : Mfa} {events : List Event}
    (met : Machine.Meets (step crypto) (fun state event => event.spares state = true) (State.first mfa) events)
    (ran : Machine.run (step crypto) (State.first mfa) events = some final) :
    (∀ replaced ∈ final.past, ∀ id row, final.sessions.lookup id = some row → row.revoked = false →
      row.version < replaced.version → replaced.own = some id) ∧
      ∀ earlier later middle, events = earlier ++ later → Machine.run (step crypto) (State.first mfa) earlier = some middle →
        ∀ id row, middle.sessions.lookup id = some row → row.barred = true →
          ∃ now, final.sessions.lookup id = some now ∧ now.revoked = true := by
  have kept := (run_kept (kept_first mfa) met ran).1
  constructor
  · intro replaced member id row stored live less
    rcases kept.older replaced member id row stored less with own | barred
    · exact own
    · exact absurd (live.symm.trans (kept.dead id row stored barred)) (by decide)
  · rintro earlier later middle rfl ranBefore id row stored barred
    obtain ⟨before,after⟩ := meets_append (step crypto) met ranBefore
    have middleKept := (run_kept (kept_first mfa) before ranBefore).1
    rw [run_append,ranBefore,bind_some] at ran
    obtain ⟨now,there,still⟩ := (run_kept middleKept after ran).2 id row stored barred
    exact ⟨now,there,kept.dead id now there still⟩

def unused : Crypto := ⟨fun _ _ => [],fun text => text,fun text => text,true⟩

def login (call id : Nat) : List Event := .logsIn call :: List.replicate 4 (.goes call true id)

def changed : List Event := login 1 10 ++ login 2 20 ++ [.changes 3 10] ++ List.replicate 4 (.goes 3 true 0)

theorem taken_away_changed : ∃ final, Machine.run (step unused) (State.first ⟨none,∅⟩) changed = some final ∧
    (final.sessions.lookup 20).any Session.barred = true ∧
      ∀ replaced ∈ final.past, ∀ id row, final.sessions.lookup id = some row → row.revoked = false →
        row.version < replaced.version → replaced.own = some id := by
  have runs : (Machine.run (step unused) (State.first ⟨none,∅⟩) changed).any (fun final =>
      (final.sessions.lookup 20).any Session.barred) = true := by decide +kernel
  have met : Machine.Meets (step unused) (fun state event => event.spares state = true) (State.first ⟨none,∅⟩) changed := by
    decide +kernel
  obtain ⟨final,ran,barred⟩ := (any_eq_true _ _).mp runs
  exact ⟨final,ran,barred,(taken_away met ran).1⟩

/-- A login that has compared the old password issues its session after the change is complete. -/
theorem taken_away_late : ¬∀ events final, Machine.run (step unused) (State.first ⟨none,∅⟩) events = some final →
    ∀ replaced ∈ final.past, ∀ id row, final.sessions.lookup id = some row → row.revoked = false →
      row.version < replaced.version → replaced.own = some id := by
  intro claimed
  have runs : (Machine.run (step unused) (State.first ⟨none,∅⟩) (login 1 10 ++
      [.logsIn 2,.goes 2 true 20,.goes 2 true 20,.goes 2 true 20,.changes 3 10] ++ List.replicate 4 (.goes 3 true 0) ++
        [.goes 2 true 20])).any (fun final => final.past = [⟨1,some 10⟩] ∧ final.sessions.lookup 20 = some ⟨0,false,false⟩) = true := by
    decide +kernel
  obtain ⟨final,ran,shown⟩ := (any_eq_true _ _).mp runs
  obtain ⟨past,stored⟩ := of_decide_eq_true shown
  have own := claimed _ final ran ⟨1,some 10⟩ (past ▸ List.mem_cons_self) 20 _ stored rfl (by decide)
  cases own

end Depsis.Auth.Passwords

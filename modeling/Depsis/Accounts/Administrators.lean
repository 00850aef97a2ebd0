import Depsis.Accounts.Effects

/-! The lockout guard over interleaved transactions. Its count reads rows another
session may already have stripped, so it holds exactly as far as one of the
administrators it counts is left alone.
-/
namespace Depsis.Accounts

open Depsis.Foundation Depsis.Foundation.ReadCommitted List Bool

def Administers (organizationId : String) : Key → Row → Prop
  | .user _,.user row => row.enabledAdmin organizationId = true
  | _,_ => False

def View.otherAdmin (view : View) (organizationId id : String) (test : String → Bool) : Bool :=
  view.users.any (fun (other,row) => row.enabledAdmin organizationId && other ≠ id && test other)

/-- The account that loses its last means to administer: `OLD` of the trigger. -/
def Program.strips (organizationId : String) (view : View) : Program → Option String
  | .updateUser owner id role disabled =>
    match view.userAt owner id with
    | none => none
    | some old =>
      let new : User := {old with role := role.getD old.role, disabled := disabled.getD old.disabled}
      if old.enabledAdmin organizationId && !new.enabledAdmin organizationId then some id else none
  | .deleteUser owner id _ =>
    match view.userAt owner id with
    | none => none
    | some old => if old.enabledAdmin organizationId then some id else none
  | _ => none

section Sessions

variable {Session : Type} [DecidableEq Session]

def untouched (organizationId : String) (database : Database Key Row Program Session) (id : String) : Bool :=
  database.running.all (fun _ transaction =>
    (View.users (database.view transaction)).any (fun (same,row) => same = id && row.enabledAdmin organizationId))

/-- When the guard counts another administrator, one of them is not being
stripped by a session that has yet to commit. -/
def CountSettled (organizationId : String) (database : Database Key Row Program Session) :
    Action Request Session → Prop
  | .execute session => ∀ transaction id, database.running.lookup session = some transaction →
      transaction.program.strips organizationId (database.view transaction) = some id →
      View.otherAdmin (database.view transaction) organizationId id (fun _ => true) = true →
      View.otherAdmin database.committed organizationId id (untouched organizationId database) = true
  | _ => True

variable {organizationId id : String} {view : View} {test : String → Bool}

private theorem otherAdmin_iff : view.otherAdmin organizationId id test = true ↔
    ∃ other, other ≠ id ∧ Shows (Administers organizationId) view (.user other) ∧ test other = true := by
  simp only [View.otherAdmin,any_eq_true,Prod.exists,and_eq_true,decide_eq_true_eq]
  constructor
  · intro ⟨other,row,member,⟨enabled,different⟩,passed⟩
    exact ⟨other,different,⟨.user row,View.mem_users.mp member,enabled⟩,passed⟩
  · intro ⟨other,different,⟨row,stored,enabled⟩,passed⟩
    cases row with
    | user row => exact ⟨other,row,View.mem_users.mpr stored,⟨enabled,different⟩,passed⟩
    | _ => exact enabled.elim

variable {database : Database Key Row Program Session} {writes : List (Key × Option Row)}

private theorem untouched_iff :
    untouched organizationId database id = true ↔ ∀ session transaction,
      database.running.lookup session = some transaction →
      Shows (Administers organizationId) (database.view transaction) (.user id) := by
  simp only [untouched,AList.all_iff,any_eq_true,Prod.exists,and_eq_true,decide_eq_true_eq]
  constructor
  · intro every session transaction found
    obtain ⟨same,row,member,rfl,enabled⟩ := every session transaction found
    exact ⟨.user row,View.mem_users.mp member,enabled⟩
  · intro every session transaction found
    obtain ⟨row,stored,enabled⟩ := every session transaction found
    cases row with
    | user row => exact ⟨id,row,View.mem_users.mpr stored,rfl,enabled⟩
    | _ => exact enabled.elim

theorem enabledAdmin_owner {row : User} (enabled : row.enabledAdmin organizationId = true) :
    row.organizationId = organizationId := by
  simp only [User.enabledAdmin,and_eq_true,decide_eq_true_eq] at enabled
  exact enabled.1.1

theorem strips_counted {program next : Program} {locks : List (Key × Mode)}
    (stripped : program.strips organizationId view = some id)
    (proceeded : statement program view = .proceed locks writes next) :
    view.otherAdmin organizationId id (fun _ => true) = true := by
  have counted {old : User} (enabled : old.enabledAdmin organizationId = true)
      (passed : lastAdmin view id old = false) : view.otherAdmin organizationId id (fun _ => true) = true := by
    rw [lastAdmin,enabledAdmin_owner enabled,decide_eq_false_iff_not] at passed
    obtain ⟨⟨other,row⟩,member,counts⟩ := countP_pos_iff.mp (Nat.pos_of_ne_zero passed)
    refine any_eq_true.mpr ⟨(other,row),member,?_⟩
    simpa using counts
  cases program with
  | updateUser owner target role disabled =>
    simp only [Program.strips] at stripped
    split at stripped
    next => cases stripped
    next old found =>
      obtain ⟨losing,stripped⟩ := of_when stripped
      cases stripped
      obtain ⟨enabled,lost⟩ := and_eq_true_iff.mp losing
      simp only [statement,found] at proceeded
      split at proceeded
      next => cases proceeded
      next unrefused =>
        rw [enabledAdmin_owner enabled,enabled] at unrefused
        rw [enabledAdmin_owner enabled] at lost
        rw [lost] at unrefused
        simp only [Bool.and_self,Bool.true_and,Bool.not_eq_true] at unrefused
        exact counted enabled unrefused
  | deleteUser owner target posixUid =>
    simp only [Program.strips] at stripped
    split at stripped
    next => cases stripped
    next old found =>
      obtain ⟨enabled,stripped⟩ := of_when stripped
      cases stripped
      simp only [statement,found] at proceeded
      split at proceeded
      next => cases proceeded
      next unrefused =>
        rw [enabledAdmin_owner enabled] at unrefused
        simp only [enabled,Bool.true_and,Bool.not_eq_true] at unrefused
        exact counted enabled unrefused
  | _ => cases stripped

theorem admin_written {program next : Program} {key : Key}
    (effect : Effect view program writes next) (shown : Shows (Administers organizationId) view key)
    (written : key ∈ writes.map Prod.fst) :
    (∃ row, Administers organizationId key row ∧ ∀ value, (key,value) ∈ writes → value = some row) ∨
      ∃ id, program.strips organizationId view = some id ∧
        ∀ other, other ≠ id → Key.user other ∉ writes.map Prod.fst := by
  obtain ⟨row,stored,enabled⟩ := shown
  cases effect with
  | quiet => cases written
  | create absent =>
    simp only [map_cons,map_nil,mem_singleton] at written
    rw [written,absent] at stored
    cases stored
  | @numberUser _ _ _ old number found =>
    simp only [map_cons,map_nil,mem_singleton] at written
    subst written
    cases found.symm.trans stored
    refine .inl ⟨.user {old with posixUid := some number},enabled,fun value member => ?_⟩
    cases mem_singleton.mp member
    rfl
  | numberTeam number found =>
    simp only [map_cons,map_nil,mem_singleton] at written
    subst written
    cases found.symm.trans stored
    exact enabled.elim
  | @update owner id role disabled old found same =>
    simp only [map_cons,map_nil,mem_singleton] at written
    subst written
    cases found.symm.trans stored
    change old.enabledAdmin organizationId = true at enabled
    by_cases remains : User.enabledAdmin {old with role := role.getD old.role, disabled := disabled.getD old.disabled}
        organizationId = true
    · refine .inl ⟨.user _,remains,fun value member => ?_⟩
      cases mem_singleton.mp member
      rfl
    · refine .inr ⟨id,?_,fun other different => by simpa using different⟩
      subst same
      simp [Program.strips,View.userAt,found,enabled,remains]
  | @deleteUser owner id posixUid old found same =>
    rw [deleted_keys] at written ⊢
    rcases mem_cons.mp written with rfl | cascaded
    · cases found.symm.trans stored
      change old.enabledAdmin organizationId = true at enabled
      refine .inr ⟨id,?_,fun other different member => ?_⟩
      · simp [Program.strips,View.userAt,found,same,enabled]
      · rcases mem_cons.mp member with same | cascaded
        · exact different (Key.user.inj same)
        · exact erased_user cascaded
    · obtain ⟨other,grant,rfl,-⟩ := mem_erased.mp cascaded
      exact enabled.elim
  | deleteTeam found | deleteEntry =>
    rw [deleted_keys] at written
    rcases mem_cons.mp written with rfl | cascaded
    · exact enabled.elim
    · obtain ⟨other,grant,rfl,-⟩ := mem_erased.mp cascaded
      exact enabled.elim
  | deleteAtNode =>
    rw [deleted_keys] at written
    obtain ⟨other,grant,rfl,-⟩ := mem_erased.mp written
    exact enabled.elim
  | insertGrant absent =>
    simp only [map_cons,map_nil,mem_singleton] at written
    subst written
    exact enabled.elim
  | retired => cases written
  | retire =>
    simp only [map_cons,map_nil,mem_singleton] at written
    subst written
    exact enabled.elim

theorem admin_rescued {session : Session}
    {transaction : Transaction Key Row Program} {locks : List (Key × Mode)}
    {program : Program} {key : Key}
    (settled : CountSettled organizationId database (.execute session))
    (found : database.running.lookup session = some transaction)
    (proceeded : statement transaction.program (database.view transaction) = .proceed locks writes program)
    (kept : Kept (Administers organizationId) (fun _ => False) database key)
    (after : ¬Shows (Administers organizationId) (database.view (transaction.advance locks writes program)) key) :
    Survives (Administers organizationId) (fun _ => False)
      (database.progress session (transaction.advance locks writes program)) := by
  have before := (kept.seen session transaction found).resolve_right id
  have written : key ∈ writes.map Prod.fst := by
    by_contra unwritten
    exact after ((shows_congr (lookup_advance unwritten)).mpr before)
  rcases admin_written (statement_effect proceeded) before written with
    ⟨row,enabled,agree⟩ | ⟨id,stripped,apart⟩
  · exact absurd ⟨row,lookup_advance_agree written agree,enabled⟩ after
  · have counted := settled transaction id found stripped (strips_counted stripped proceeded)
    obtain ⟨other,different,stored,seen⟩ := otherAdmin_iff.mp counted
    have shown := untouched_iff.mp seen
    refine ⟨.user other,kept_progress stored (fun another right _ there => .inl (shown another right there)) (.inl ?_)⟩
    exact (shows_congr (lookup_advance (apart other different))).mpr (shown session transaction found)

theorem safe_step {next : Database Key Row Program Session} {action : Action Request Session}
    (orderly : Orderly database)
    (safe : Survives (Administers organizationId) (fun _ => False) database)
    (settled : CountSettled organizationId database action)
    (taken : system.step database action = some next) :
    Survives (Administers organizationId) (fun _ => False) next :=
  survives_step (fun _ _ _ pledge => pledge.elim)
    (fun _ _ _ _ _ _ _ (_ : True) kept admitted found proceeded after _ =>
      admin_rescued admitted found proceeded kept after) orderly trivial safe settled taken

/-- An organization keeps an enabled administrator over every interleaving in which
the guard never rests its count on accounts other sessions are stripping. -/
theorem stays_administered {initial : View} {actions : List (Action Request Session)}
    {final : Database Key Row Program Session}
    (administered : initial.users.any (fun (_,row) => row.enabledAdmin organizationId) = true)
    (settled : Machine.Meets system.step (CountSettled organizationId) (quiet initial) actions)
    (ran : Machine.run system.step (quiet initial) actions = some final) :
    (View.users final.committed).any (fun (_,row) => row.enabledAdmin organizationId) = true := by
  obtain ⟨⟨id,row⟩,member,enabled⟩ := any_eq_true.mp administered
  have stored : Shows (Administers organizationId) initial (.user id) :=
    ⟨.user row,View.mem_users.mp member,enabled⟩
  have step (database : Database Key Row Program Session) (action : Action Request Session)
      (next : Database Key Row Program Session)
      (held : Orderly database ∧ Survives (Administers organizationId) (fun _ => False) database)
      (admitted : CountSettled organizationId database action) (taken : system.step database action = some next) :
      Orderly next ∧ Survives (Administers organizationId) (fun _ => False) next :=
    ⟨orderly_step held.1 taken,safe_step held.1 held.2 admitted taken⟩
  have safe := Machine.run_invariant system.step step
    ⟨quiet_orderly initial,Key.user id,quiet_kept stored⟩ settled ran
  obtain ⟨-,key,kept⟩ := safe
  obtain ⟨row,stored,enabled⟩ := kept.stored
  cases key with
  | user id =>
    cases row with
    | user row => exact any_eq_true.mpr ⟨(id,row),View.mem_users.mpr stored,enabled⟩
    | _ => exact enabled.elim
  | _ => exact enabled.elim

end Sessions

private def pair : View :=
  ((∅ : View).insert (.user "ayse") (.user ⟨"ofis",.admin,false,none⟩)).insert (.user "baris")
    (.user ⟨"ofis",.admin,false,none⟩)

private def demotion : List (Action Request Bool) :=
  [.start true (.updateUser "ofis" "ayse" (some .member) none),.execute true,.execute true]

theorem stays_administered_after_demotion :
    ∃ final, Machine.run system.step (quiet pair) demotion = some final ∧
      (View.users final.committed).any (fun (_,row) => row.enabledAdmin "ofis") = true := by
  refine ⟨_,rfl,?_⟩
  refine stays_administered (by decide) ?_ (rfl : Machine.run system.step (quiet pair) demotion = _)
  refine ⟨trivial,fun transaction id found stripped _ => ?_,fun transaction id found stripped _ => ?_,trivial⟩
  · cases found
    cases stripped
    decide
  · cases found
    cases stripped

def Request.changesUser : Request → Bool
  | .updateUser _ _ _ _ => true
  | .removeUser _ _ => true
  | _ => false

/-- Two administrators who demote each other at once are each counted by the other. -/
theorem administrators_lost : ¬∀ (initial : View) (actions : List (Action Request Bool))
    (final : Database Key Row Program Bool),
    initial.users.any (fun (_,row) => row.enabledAdmin "ofis") = true →
    (∀ session request, .start session request ∈ actions → request.changesUser = true) →
    Machine.run system.step (quiet initial) actions = some final →
    (View.users final.committed).any (fun (_,row) => row.enabledAdmin "ofis") = true := by
  intro always
  have lost := always pair [.start true (.updateUser "ofis" "ayse" (some .member) none),
    .start false (.updateUser "ofis" "baris" (some .member) none),
    .execute true,.execute false,.execute true,.execute false] _ (by decide) (by
      intro session request member
      simp only [mem_cons,not_mem_nil] at member
      rcases member with same | same | same | same | same | same | same <;> cases same <;> rfl) rfl
  exact absurd lost (by decide)

end Depsis.Accounts

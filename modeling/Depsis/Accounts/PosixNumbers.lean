import Depsis.Accounts.Effects

/-! The POSIX numbers over the life of the box. The allocator looks above every
number it can see, so a number is safe as long as its owner's row, or its
retirement, stays in sight of every open transaction.
-/
namespace Depsis.Accounts

open Depsis.Foundation Depsis.Foundation.ReadCommitted List AList Machine

def Holds (number : Nat) (key : Key) (row : Row) : Prop := numberOf key row = some number

def View.owned (view : View) : List Nat :=
  view.users.filterMap (fun (_,row) => row.posixUid) ++ view.teams.filterMap (fun (_,row) => row.posixGid)

/-- What `allocate_posix_id` gives a program that is about to call it. -/
def Program.issues (view : View) : Program → Option Nat
  | .allocateForUser _ _ _ _ => allocatePosixId view
  | .allocateForTeam _ _ => allocatePosixId view
  | .allocateForUid _ _ => allocatePosixId view
  | .everyoneTeam organizationId _ =>
    match view.teams.find? (fun (_,row) => row.organizationId = organizationId && row.everyone) with
    | none => allocatePosixId view
    | some (_,row) => if row.posixGid.isSome then none else allocatePosixId view
  | _ => none

variable {number : Nat} {view : View}

theorem mem_taken : number ∈ taken view ↔ ∃ key, Shows (Holds number) view key := by
  simp only [taken,mem_filterMap,Prod.exists,mem_rows,Shows,Holds]

theorem allocatePosixId_fresh (given : allocatePosixId view = some number) : number ∉ taken view := by
  intro member
  unfold allocatePosixId at given
  obtain ⟨-,given⟩ := of_unless given
  obtain ⟨largest,found⟩ : ∃ largest, (taken view).max? = some largest :=
    Option.ne_none_iff_exists'.mp (fun empty => ne_nil_of_mem member (max?_eq_none_iff.mp empty))
  rw [found,Option.getD_some] at given
  have bound := (max?_eq_some_iff.mp found).2 number member
  have above := Option.some.inj given
  omega

theorem issues_fresh {program : Program} (given : program.issues view = some number) : number ∉ taken view := by
  cases program with
  | allocateForUser | allocateForTeam | allocateForUid => exact allocatePosixId_fresh given
  | everyoneTeam organizationId everyoneId =>
    simp only [Program.issues] at given
    split at given
    next => exact allocatePosixId_fresh given
    next =>
      obtain ⟨-,given⟩ := of_unless given
      exact allocatePosixId_fresh given
  | _ => cases given

theorem mem_owned (member : number ∈ view.owned) : ∃ key, Shows (Holds number) view key := by
  rcases mem_append.mp member with user | team
  · obtain ⟨⟨id,row⟩,stored,same⟩ := mem_filterMap.mp user
    exact ⟨.user id,.user row,View.mem_users.mp stored,same⟩
  · obtain ⟨⟨id,row⟩,stored,same⟩ := mem_filterMap.mp team
    exact ⟨.team id,.team row,View.mem_teams.mp stored,same⟩

def Retires (number : Nat) (transaction : Transaction Key Row Program) : Prop :=
  transaction.program = .retire number ∨ ∃ row, transaction.writes.lookup (.retired number) = some (some row)

theorem retires_pledge : Pledges (Holds number) (Retires number) system := by
  intro committed transaction rest retires settled
  rcases retires with ends | ⟨row,written⟩
  · rw [ends] at settled
    simp only [system,statement] at settled
    split at settled
    next => cases settled
    next => split at settled <;> cases settled
  · exact ⟨.retired number,row,written,rfl⟩

theorem no_grant_holds {gone : FolderGrant → Bool} {key : Key} {row : Row} (cascaded : key ∈ erased view gone)
    (holds : Holds number key row) : False := by
  obtain ⟨id,grant,rfl,-⟩ := mem_erased.mp cascaded
  cases holds

variable {writes : List (Key × Option Row)}

theorem holder_written {program next : Program} {key : Key}
    (effect : Effect view program writes next) (shown : Shows (Holds number) view key)
    (written : key ∈ writes.map Prod.fst) :
    (∃ row, Holds number key row ∧ ∀ value, (key,value) ∈ writes → value = some row) ∨
      next = .retire number ∨
      ∃ organizationId id posixUid old, program = .deleteUser organizationId id posixUid ∧
        view.userAt organizationId id = some old ∧ old.posixUid = some number ∧ next = retiring posixUid := by
  obtain ⟨row,stored,holds⟩ := shown
  cases effect with
  | quiet => cases written
  | create absent =>
    simp only [map_cons,map_nil,mem_singleton] at written
    rw [written,absent] at stored
    cases stored
  | numberUser other found unnumbered | numberTeam other found unnumbered =>
    simp only [map_cons,map_nil,mem_singleton] at written
    subst written
    cases found.symm.trans stored
    cases unnumbered.symm.trans holds
  | @update _ _ role disabled old found =>
    simp only [map_cons,map_nil,mem_singleton] at written
    subst written
    cases found.symm.trans stored
    refine .inl ⟨.user {old with role := role.getD old.role, disabled := disabled.getD old.disabled},holds,
      fun value member => ?_⟩
    cases mem_singleton.mp member
    rfl
  | @deleteUser organizationId id posixUid old found same =>
    rw [deleted_keys] at written
    rcases mem_cons.mp written with rfl | cascaded
    · cases found.symm.trans stored
      refine .inr (.inr ⟨organizationId,id,posixUid,old,rfl,?_,holds,rfl⟩)
      simp [View.userAt,found,same]
    · exact (no_grant_holds cascaded holds).elim
  | @deleteTeam organizationId id old found =>
    rw [deleted_keys] at written
    rcases mem_cons.mp written with rfl | cascaded
    · cases found.symm.trans stored
      refine .inr (.inl ?_)
      rw [show old.posixGid = some number from holds,retiring]
    · exact (no_grant_holds cascaded holds).elim
  | deleteEntry =>
    rw [deleted_keys] at written
    rcases mem_cons.mp written with rfl | cascaded
    · cases holds
    · exact (no_grant_holds cascaded holds).elim
  | deleteAtNode =>
    rw [deleted_keys] at written
    exact (no_grant_holds written holds).elim
  | insertGrant absent =>
    simp only [map_cons,map_nil,mem_singleton] at written
    subst written
    cases holds
  | retired => cases written
  | @retire other =>
    simp only [map_cons,map_nil,mem_singleton] at written
    subst written
    refine .inl ⟨.retired,holds,fun value member => ?_⟩
    cases mem_singleton.mp member
    rfl

section Sessions

variable {Session : Type} [DecidableEq Session]

def Steady (number : Nat) (database : Database Key Row Program Session) : Prop :=
  ∀ session transaction, database.running.lookup session = some transaction →
    transaction.writes.lookup (.retired number) ≠ some none

def UidCurrent (database : Database Key Row Program Session) : Action Request Session → Prop
  | .execute session => ∀ transaction organizationId id posixUid old,
      database.running.lookup session = some transaction →
      transaction.program = .deleteUser organizationId id posixUid →
      View.userAt (database.view transaction) organizationId id = some old → old.posixUid = posixUid
  | _ => True

def issued (database : Database Key Row Program Session) (session : Session) : Option Nat :=
  match database.running.lookup session with
  | none => none
  | some transaction => transaction.program.issues (database.view transaction)

theorem retired_kept {program next : Program}
    (effect : Effect view program writes next) : (Key.retired number,none) ∉ writes := by
  intro member
  have erasing {gone : FolderGrant → Bool} (listed : Key.retired number ∈ erased view gone) : False := by
    obtain ⟨_,_,same,-⟩ := mem_erased.mp listed
    cases same
  cases effect with
  | deleteUser | deleteTeam | deleteEntry =>
    obtain ⟨key,listed,same⟩ := mem_map.mp member
    cases same
    exact erasing (mem_of_ne_of_mem (by nofun) listed)
  | deleteAtNode =>
    obtain ⟨key,listed,same⟩ := mem_map.mp member
    cases same
    exact erasing listed
  | _ => simp at member

variable {database next : Database Key Row Program Session} {action : Action Request Session}

theorem steady_step (steady : Steady number database) (taken : system.step database action = some next) :
    Steady number next := by
  intro other right found
  rcases step_cases taken with ⟨session,request,-,-,rfl⟩ | ⟨session,rfl⟩ |
    ⟨session,transaction,rest,-,-,-,rfl⟩ | ⟨session,transaction,locks,writes,program,-,there,proceeded,-,rfl⟩
  · rw [Database.progress,lookup_insert_eq] at found
    split at found
    next => cases found; simp [Transaction.fresh]
    next => exact steady other right found
  · rw [Database.rollBack,lookup_erase_eq] at found
    obtain ⟨-,found⟩ := of_unless found
    exact steady other right found
  · cases rest with
    | none =>
      simp only [Database.settle,lookup_erase_eq] at found
      obtain ⟨-,found⟩ := of_unless found
      exact steady other right found
    | some program =>
      simp only [Database.settle,lookup_insert_eq] at found
      split at found
      next => cases found; simp [Transaction.fresh]
      next => exact steady other right found
  · rw [Database.progress,lookup_insert_eq] at found
    split at found
    next =>
      cases found
      intro erased
      rcases lookup_fill_some erased with later | before
      · exact retired_kept (statement_effect proceeded) later
      · exact steady session transaction there before
    next => exact steady other right found

theorem retired_seen {committed : View} {writes : Table Key (Option Row)}
    (stored : Shows (Holds number) committed (.retired number))
    (steady : writes.lookup (.retired number) ≠ some none) :
    Shows (Holds number) (overlay committed writes) (.retired number) := by
  cases written : writes.lookup (.retired number) with
  | none => exact (shows_congr (lookup_overlay_none written)).mpr stored
  | some value =>
    cases value with
    | none => exact absurd written steady
    | some row => exact ⟨row,lookup_overlay_some written,rfl⟩

theorem number_rescued {session : Session} {transaction : Transaction Key Row Program}
    {locks : List (Key × Mode)} {program : Program} {key : Key}
    (steady : Steady number database) (kept : Kept (Holds number) (Retires number) database key)
    (current : UidCurrent database (.execute session))
    (found : database.running.lookup session = some transaction)
    (proceeded : statement transaction.program (database.view transaction) = .proceed locks writes program)
    (after : ¬Shows (Holds number) (database.view (transaction.advance locks writes program)) key)
    (unpledged : ¬Retires number (transaction.advance locks writes program)) :
    Survives (Holds number) (Retires number)
      (database.progress session (transaction.advance locks writes program)) := by
  have retires (row : Row) (written : transaction.writes.lookup (.retired number) = some (some row)) :
      Retires number (transaction.advance locks writes program) := by
    cases later : (transaction.advance locks writes program).writes.lookup (.retired number) with
    | none =>
      cases (lookup_fill_none later).symm.trans written
    | some value =>
      cases value with
      | some row => exact .inr ⟨row,later⟩
      | none =>
        rcases lookup_fill_some later with fresh | before
        · exact absurd fresh (retired_kept (statement_effect proceeded))
        · exact absurd before (steady session transaction found)
  rcases kept.seen session transaction found with before | ends | ⟨row,written⟩
  · have written : key ∈ writes.map Prod.fst := by
      by_contra unwritten
      exact after ((shows_congr (lookup_advance unwritten)).mpr before)
    rcases holder_written (statement_effect proceeded) before written with
      ⟨row,holds,agree⟩ | retiring | ⟨organizationId,id,posixUid,old,deletes,there,holds,next⟩
    · exact absurd ⟨row,lookup_advance_agree written agree,holds⟩ after
    · exact absurd (.inl retiring) unpledged
    · rw [← current transaction organizationId id posixUid old found deletes there,holds] at next
      exact absurd (.inl next) unpledged
  · rw [ends] at proceeded
    simp only [statement] at proceeded
    split at proceeded
    next => cases proceeded
    next =>
      split at proceeded
      next present =>
        cases proceeded
        obtain ⟨row,shown⟩ := Option.isSome_iff_exists.mp present
        have stored : Shows (Holds number) database.committed (.retired number) := by
          cases written : transaction.writes.lookup (.retired number) with
          | none => exact ⟨row,(lookup_overlay_none written).symm.trans shown,rfl⟩
          | some value =>
            cases value with
            | none => exact absurd written (steady session transaction found)
            | some row => exact absurd (retires row written) unpledged
        refine ⟨.retired number,kept_progress stored (fun other right _ there => .inl ?_) (.inl ?_)⟩
        · exact retired_seen stored (steady other right there)
        · exact retired_seen stored (steady session transaction found)
      next =>
        cases proceeded
        exact absurd (.inr ⟨.retired,lookup_insert _⟩) unpledged
  · exact absurd (retires row written) unpledged

theorem number_survives (orderly : Orderly database) (steady : Steady number database)
    (survives : Survives (Holds number) (Retires number) database) (current : UidCurrent database action)
    (taken : system.step database action = some next) : Survives (Holds number) (Retires number) next :=
  survives_step retires_pledge (fun _ _ _ _ _ _ _ steady kept current found proceeded after unpledged =>
    number_rescued steady kept current found proceeded after unpledged) orderly steady survives current taken

structure Held (number : Nat) (database : Database Key Row Program Session) : Prop where
  orderly : Orderly database
  steady : Steady number database
  held : (∃ key, Shows (Holds number) database.committed key) →
    Survives (Holds number) (Retires number) database

theorem held_step (held : Held number database) (current : UidCurrent database action)
    (taken : system.step database action = some next) : Held number next := by
  refine ⟨orderly_step held.orderly taken,steady_step held.steady taken,fun ⟨key,shown⟩ => ?_⟩
  by_cases before : ∃ key, Shows (Holds number) database.committed key
  · exact number_survives held.orderly held.steady (held.held before) current taken
  · -- The commit that brings the number in.
    rcases step_cases taken with ⟨session,request,-,-,rfl⟩ | ⟨session,rfl⟩ |
      ⟨session,transaction,rest,-,found,-,rfl⟩ | ⟨session,transaction,locks,writes,program,-,-,-,-,rfl⟩
    · exact absurd ⟨key,shown⟩ before
    · exact absurd ⟨key,shown⟩ before
    · obtain ⟨row,stored,holds⟩ := shown
      change (overlay database.committed transaction.writes).lookup key = some row at stored
      cases written : transaction.writes.lookup key with
      | none => exact absurd ⟨key,row,(lookup_overlay_none written).symm.trans stored,holds⟩ before
      | some value =>
        cases (lookup_overlay_some written).symm.trans stored
        exact ⟨key,kept_written held.orderly found written holds⟩
    · exact absurd ⟨key,shown⟩ before

theorem quiet_held (initial : View) : Held number (quiet initial : Database Key Row Program Session) := by
  refine ⟨quiet_orderly initial,fun session transaction found => ?_,fun ⟨key,shown⟩ => ⟨key,quiet_kept shown⟩⟩
  simp [quiet] at found

/-- A number some account or team has had is never given out again, in every run
whose deletions of accounts retire the number the row has when it goes. -/
theorem number_never_reissued {initial : View} {first second : List (Action Request Session)}
    {middle final : Database Key Row Program Session}
    (current : Machine.Meets system.step UidCurrent (quiet initial) (first++second))
    (before : Machine.run system.step (quiet initial) first = some middle)
    (committed : number ∈ View.owned middle.committed)
    (after : Machine.run system.step middle second = some final) (session : Session) :
    issued final session ≠ some number := by
  intro given
  obtain ⟨early,late⟩ := meets_append system.step current before
  have entered (database : Database Key Row Program Session) (action : Action Request Session)
      (next : Database Key Row Program Session) (held : Held number database)
      (admitted : UidCurrent database action) (taken : system.step database action = some next) :
      Held number next := held_step held admitted taken
  have held := run_invariant system.step entered (quiet_held initial) early before
  have kept (database : Database Key Row Program Session) (action : Action Request Session)
      (next : Database Key Row Program Session)
      (safe : Orderly database ∧ Steady number database ∧ Survives (Holds number) (Retires number) database)
      (admitted : UidCurrent database action) (taken : system.step database action = some next) :
      Orderly next ∧ Steady number next ∧ Survives (Holds number) (Retires number) next :=
    ⟨orderly_step safe.1 taken,steady_step safe.2.1 taken,number_survives safe.1 safe.2.1 safe.2.2 admitted taken⟩
  obtain ⟨-,-,key,kept⟩ := run_invariant system.step kept
    ⟨held.orderly,held.steady,held.held (mem_owned committed)⟩ late after
  simp only [issued] at given
  split at given
  next => cases given
  next transaction found =>
    refine issues_fresh given (mem_taken.mpr ?_)
    rcases kept.seen session transaction found with shown | ends | ⟨row,written⟩
    · exact ⟨key,shown⟩
    · rw [ends] at given
      cases given
    · exact ⟨.retired number,row,lookup_overlay_some written,rfl⟩

end Sessions

private def founded : View :=
  ((∅ : View).insert (.user "kurucu") (.user ⟨"ofis",.admin,false,none⟩)).insert (.user "baris")
    (.user ⟨"ofis",.admin,false,some 300000⟩)

private def retirement : List (Action Request Bool) :=
  [.start true (.removeUser "ofis" "baris"),.execute true,.execute true,.execute true,.execute true,
    .execute true,.execute true,.start false (.createTeam "ofis" "yeni")]

theorem number_never_reissued_after_removal :
    ∃ final, Machine.run system.step (quiet founded) retirement = some final ∧
      issued final false = some 300001 ∧ issued final false ≠ some 300000 := by
  have met : Machine.Meets system.step UidCurrent (quiet founded) ([]++retirement) := by
    refine ⟨trivial,?_,?_,?_,?_,?_,?_,trivial,trivial⟩ <;>
      intro transaction organizationId id posixUid old found deletes there <;> cases found <;> cases deletes
    cases there
    rfl
  obtain ⟨final,ran⟩ : ∃ final, Machine.run system.step (quiet founded) retirement = some final := ⟨_,rfl⟩
  refine ⟨final,ran,?_,number_never_reissued met rfl (by decide) ran false⟩
  cases ran
  rfl

/-- An account that gets its number between the read of it and the deletion takes
the number with it, and the next account is given it. -/
theorem number_reissued : ¬∀ (initial : View) (first second : List (Action Request Bool))
    (middle final : Database Key Row Program Bool) (number : Nat),
    Machine.run system.step (quiet initial) first = some middle → number ∈ View.owned middle.committed →
    Machine.run system.step middle second = some final → ∀ session, issued final session ≠ some number := by
  intro always
  refine always founded
    [.start true (.removeUser "ofis" "kurucu"),.execute true,.execute true,
      .start false (.posixUidFor "ofis" "kurucu"),.execute false,.execute false,.execute false,.execute false]
    [.execute true,.execute true,.execute true,.start false (.createUser "ofis" "cem" .member "herkes")]
    _ _ 300001 rfl (by decide) rfl false (by decide)

end Depsis.Accounts

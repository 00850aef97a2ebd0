import Depsis.Accounts.Effects

/-! Every share keeps a rule, or would be open to all. The deletions check this in
earlier statements, and the cascade of a folder's deletion does not check it at all;
what keeps a rule is that some rule is left alone when others go.
-/
namespace Depsis.Accounts

open Depsis.Foundation Depsis.Foundation.ReadCommitted List

def Governs (organizationId shareId : String) : Key → Row → Prop
  | .grant _,.grant row => row.organizationId = organizationId ∧ row.shareId = shareId
  | _,_ => False

/-- A `PermissionsService.write` past its deletion, that leaves a rule of the share. -/
def Regoverns (organizationId shareId : String) (transaction : Transaction Key Row Program) : Prop :=
  ∃ rows, transaction.program = .insertGrants rows ∧
    ((∃ id row, (id,row) ∈ rows ∧ Governs organizationId shareId (.grant id) (.grant row)) ∨
      ∃ key row, transaction.writes.lookup key = some (some row) ∧ Governs organizationId shareId key row)

/-- The rules a `PermissionsService.write` inserts after its deletion. -/
def Program.proposes : Program → List (String × FolderGrant)
  | .deleteAtNode _ _ _ proposed => proposed
  | _ => []

section Sessions

variable {Session : Type} [DecidableEq Session]

/-- A statement that deletes rules of the share replaces them, or leaves one that
is committed and that no open session has deleted without a replacement. -/
def Spares (organizationId shareId : String) (database : Database Key Row Program Session) :
    Action Request Session → Prop
  | .execute session => ∀ transaction id row, database.running.lookup session = some transaction →
      AList.lookup (Key.grant id) (database.view transaction) = some (.grant row) →
      Governs organizationId shareId (.grant id) (.grant row) → transaction.program.doomed row = true →
      (∃ other proposed, (other,proposed) ∈ transaction.program.proposes ∧
        Governs organizationId shareId (.grant other) (.grant proposed)) ∨
      ∃ other spared, AList.lookup (Key.grant other) (database.view transaction) = some (.grant spared) ∧
        Governs organizationId shareId (.grant other) (.grant spared) ∧
        transaction.program.doomed spared = false ∧
        Kept (Governs organizationId shareId) (Regoverns organizationId shareId) database (.grant other)
  | _ => True

variable {organizationId shareId : String}

theorem regoverns_pledge : Pledges (Governs organizationId shareId) (Regoverns organizationId shareId) system := by
  intro committed transaction rest ⟨rows,inserts,awaited⟩ settled
  rw [inserts] at settled
  rcases awaited with ⟨id,row,member,governs⟩ | written
  · cases rows with
    | nil => cases member
    | cons first rows =>
      simp only [system,statement] at settled
      split at settled <;> cases settled
  · exact written

variable {writes : List (Key × Option Row)}

theorem regoverns_proceeds {committed : View} {transaction : Transaction Key Row Program}
    {locks : List (Key × Mode)} {program : Program}
    (regoverns : Regoverns organizationId shareId transaction)
    (proceeded : statement transaction.program (overlay committed transaction.writes) = .proceed locks writes program) :
    Regoverns organizationId shareId (transaction.advance locks writes program) := by
  obtain ⟨rows,inserts,awaited⟩ := regoverns
  rw [inserts] at proceeded
  cases rows with
  | nil => cases proceeded
  | cons first rows =>
    obtain ⟨id,row⟩ := first
    simp only [statement] at proceeded
    split at proceeded <;> cases proceeded
    next allowed =>
      refine ⟨rows,rfl,?_⟩
      rcases awaited with ⟨other,proposed,member,governs⟩ | ⟨key,stored,written,governs⟩
      · rcases mem_cons.mp member with same | later
        · cases same
          exact .inr ⟨.grant id,.grant row,AList.lookup_insert _,governs⟩
        · exact .inl ⟨other,proposed,later,governs⟩
      · by_cases same : key = .grant id
        · rw [same] at written
          simp [insertable,View.has,lookup_overlay_some written] at allowed
        · exact .inr ⟨key,stored,(AList.lookup_insert_ne same).trans written,governs⟩

theorem erased_spares {view : View} {gone : FolderGrant → Bool} {other : String} {spared : FolderGrant}
    (seen : view.lookup (.grant other) = some (.grant spared)) (remains : gone spared = false) :
    Key.grant other ∉ erased view gone := by
  intro listed
  obtain ⟨id,row,same,stored,goes⟩ := mem_erased.mp listed
  cases same
  cases seen.symm.trans stored
  cases remains.symm.trans goes

theorem erased_governed {view : View} {gone : FolderGrant → Bool} {key : Key}
    (shown : Shows (Governs organizationId shareId) view key) (listed : key ∈ erased view gone) :
    ∃ id row, view.lookup (.grant id) = some (.grant row) ∧
      Governs organizationId shareId (.grant id) (.grant row) ∧ gone row = true := by
  obtain ⟨stored,found,governs⟩ := shown
  obtain ⟨id,row,rfl,there,goes⟩ := mem_erased.mp listed
  cases found.symm.trans there
  exact ⟨id,row,there,governs,goes⟩

theorem rule_written {program next : Program} {view : View} {key : Key}
    (effect : Effect view program writes next) (shown : Shows (Governs organizationId shareId) view key)
    (written : key ∈ writes.map Prod.fst) :
    (∃ id row, view.lookup (.grant id) = some (.grant row) ∧
      Governs organizationId shareId (.grant id) (.grant row) ∧ program.doomed row = true) ∧
    (∀ other spared, view.lookup (.grant other) = some (.grant spared) → program.doomed spared = false →
      Key.grant other ∉ writes.map Prod.fst) ∧
    (program.proposes ≠ [] → next = .insertGrants program.proposes) := by
  have unowned (different : ∀ id, key ≠ .grant id) : False := by
    obtain ⟨row,-,governs⟩ := shown
    cases key with
    | grant id => exact different id rfl
    | _ => exact governs.elim
  have cascade {first : Key} {gone : FolderGrant → Bool} (other : ∀ id, first ≠ .grant id)
      (member : key ∈ first::erased view gone) :
      (∃ id row, view.lookup (.grant id) = some (.grant row) ∧
        Governs organizationId shareId (.grant id) (.grant row) ∧ gone row = true) ∧
      ∀ other spared, view.lookup (.grant other) = some (.grant spared) → gone spared = false →
        Key.grant other ∉ first::erased view gone := by
    refine ⟨?_,fun id spared seen remains listed => ?_⟩
    · rcases mem_cons.mp member with same | listed
      · exact (unowned (fun id also => other id (same.symm.trans also))).elim
      · exact erased_governed shown listed
    · rcases mem_cons.mp listed with same | listed
      · exact other id same.symm
      · exact erased_spares seen remains listed
  cases effect with
  | quiet => cases written
  | create absent =>
    simp only [map_cons,map_nil,mem_singleton] at written
    obtain ⟨row,stored,-⟩ := shown
    rw [written,absent] at stored
    cases stored
  | deleteUser | deleteTeam | deleteEntry =>
    rw [deleted_keys] at written ⊢
    obtain ⟨doomed,spared⟩ := cascade (by nofun) written
    exact ⟨doomed,spared,fun proposes => absurd rfl proposes⟩
  | deleteAtNode =>
    rw [deleted_keys] at written ⊢
    exact ⟨erased_governed shown written,fun _ _ seen remains => erased_spares seen remains,fun _ => rfl⟩
  | insertGrant absent =>
    simp only [map_cons,map_nil,mem_singleton] at written
    obtain ⟨row,stored,-⟩ := shown
    rw [written,absent] at stored
    cases stored
  | retired => cases written
  | _ =>
    simp only [map_cons,map_nil,mem_singleton] at written
    exact (unowned (by rw [written]; nofun)).elim

variable {database next : Database Key Row Program Session} {action : Action Request Session}

theorem rule_rescued {session : Session} {transaction : Transaction Key Row Program}
    {locks : List (Key × Mode)} {program : Program} {key : Key}
    (kept : Kept (Governs organizationId shareId) (Regoverns organizationId shareId) database key)
    (spares : Spares organizationId shareId database (.execute session))
    (found : database.running.lookup session = some transaction)
    (proceeded : statement transaction.program (database.view transaction) = .proceed locks writes program)
    (after : ¬Shows (Governs organizationId shareId) (database.view (transaction.advance locks writes program)) key)
    (unpledged : ¬Regoverns organizationId shareId (transaction.advance locks writes program)) :
    Survives (Governs organizationId shareId) (Regoverns organizationId shareId)
      (database.progress session (transaction.advance locks writes program)) := by
  have before := (kept.seen session transaction found).resolve_right
    (fun regoverns => unpledged (regoverns_proceeds regoverns proceeded))
  have written : key ∈ writes.map Prod.fst := by
    by_contra unwritten
    exact after ((shows_congr (lookup_advance unwritten)).mpr before)
  obtain ⟨⟨id,row,seen,governs,doomed⟩,apart,inserts⟩ := rule_written (statement_effect proceeded) before written
  rcases spares transaction id row found seen governs doomed with
    ⟨other,proposed,member,governs⟩ | ⟨other,spared,shown,governs,remains,left⟩
  · refine absurd ⟨_,inserts (ne_nil_of_mem member),.inl ⟨other,proposed,member,governs⟩⟩ unpledged
  · refine ⟨.grant other,kept_progress left.stored (fun another right _ there => left.seen another right there) (.inl ?_)⟩
    exact ⟨.grant spared,(lookup_advance (apart other spared shown remains)).trans shown,governs⟩

theorem governed_step (orderly : Orderly database)
    (survives : Survives (Governs organizationId shareId) (Regoverns organizationId shareId) database)
    (spares : Spares organizationId shareId database action) (taken : system.step database action = some next) :
    Survives (Governs organizationId shareId) (Regoverns organizationId shareId) next :=
  survives_step regoverns_pledge (fun _ _ _ _ _ _ _ (_ : True) kept spares found proceeded after unpledged =>
    rule_rescued kept spares found proceeded after unpledged) orderly trivial survives spares taken

def View.governed (view : View) (organizationId shareId : String) : Bool :=
  view.grants.any (fun (_,row) => row.organizationId = organizationId && row.shareId = shareId)

theorem governed_iff {view : View} : view.governed organizationId shareId = true ↔
    ∃ key, Shows (Governs organizationId shareId) view key := by
  simp only [View.governed,any_eq_true,Prod.exists,Bool.and_eq_true,decide_eq_true_eq]
  constructor
  · intro ⟨id,row,member,owner,share⟩
    exact ⟨.grant id,.grant row,View.mem_grants.mp member,owner,share⟩
  · intro ⟨key,row,stored,governs⟩
    cases key with
    | grant id =>
      cases row with
      | grant row => exact ⟨id,row,View.mem_grants.mpr stored,governs⟩
      | _ => exact governs.elim
    | _ => exact governs.elim

/-- A share keeps a rule over every interleaving in which each deletion of its rules
replaces them or leaves one alone. -/
theorem stays_governed {initial : View} {actions : List (Action Request Session)}
    {final : Database Key Row Program Session} (governed : initial.governed organizationId shareId = true)
    (spared : Machine.Meets system.step (Spares organizationId shareId) (quiet initial) actions)
    (ran : Machine.run system.step (quiet initial) actions = some final) :
    View.governed final.committed organizationId shareId = true := by
  obtain ⟨key,stored⟩ := governed_iff.mp governed
  have step (database : Database Key Row Program Session) (action : Action Request Session)
      (next : Database Key Row Program Session)
      (held : Orderly database ∧
        Survives (Governs organizationId shareId) (Regoverns organizationId shareId) database)
      (admitted : Spares organizationId shareId database action) (taken : system.step database action = some next) :
      Orderly next ∧ Survives (Governs organizationId shareId) (Regoverns organizationId shareId) next :=
    ⟨orderly_step held.1 taken,governed_step held.1 held.2 admitted taken⟩
  obtain ⟨-,survivor,kept⟩ := Machine.run_invariant system.step step
    ⟨quiet_orderly initial,key,quiet_kept stored⟩ spared ran
  exact governed_iff.mpr ⟨survivor,kept.stored⟩

end Sessions

private def folderRule : FolderGrant := ⟨"ofis","muhasebe",some "klasor",none,some "herkes"⟩

private def shared : View :=
  (((∅ : View).insert (.share "muhasebe") (.share "ofis")).insert (.entry "klasor") (.entry ⟨"ofis","muhasebe",none⟩)).insert
    (.grant "kural") (.grant folderRule)

private def sharedTwice : View :=
  shared.insert (.grant "kok") (.grant ⟨"ofis","muhasebe",none,none,some "herkes"⟩)

private def folderDeletion : List (Action Request Bool) :=
  [.start true (.deleteEntry "ofis" "klasor"),.execute true,.execute true]

theorem stays_governed_after_deletion :
    ∃ final, Machine.run system.step (quiet sharedTwice) folderDeletion = some final ∧
      View.governed final.committed "ofis" "muhasebe" = true := by
  have met : Machine.Meets system.step (Spares "ofis" "muhasebe") (quiet sharedTwice) folderDeletion := by
    refine ⟨trivial,fun transaction id row found seen governs doomed => .inr ?_,
      fun transaction id row found seen governs doomed => ?_,trivial⟩
    · cases found
      refine ⟨"kok",_,rfl,⟨rfl,rfl⟩,rfl,⟨_,rfl,rfl,rfl⟩,fun session transaction running => .inl ?_⟩
      cases session <;> cases running
      exact ⟨_,rfl,rfl,rfl⟩
    · cases found
      cases doomed
  obtain ⟨final,ran⟩ : ∃ final, Machine.run system.step (quiet sharedTwice) folderDeletion = some final := ⟨_,rfl⟩
  exact ⟨final,ran,stays_governed (by decide) met ran⟩

/-- The cascade of a folder's deletion takes the last rule of its share. -/
theorem share_opened : ¬∀ (initial : View) (actions : List (Action Request Bool)) (final : Database Key Row Program Bool),
    initial.governed "ofis" "muhasebe" = true → Machine.run system.step (quiet initial) actions = some final →
    View.governed final.committed "ofis" "muhasebe" = true := by
  intro always
  exact absurd (always shared folderDeletion _ (by decide) rfl) (by decide)

end Depsis.Accounts

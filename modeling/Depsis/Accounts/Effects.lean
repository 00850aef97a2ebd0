import Depsis.Accounts.Transactions

/-! What one statement can write, said once: the proofs about runs split on these
cases and not on the statements.
-/
namespace Depsis.Accounts

open Depsis.Foundation Depsis.Foundation.ReadCommitted List

namespace View

variable {view : View}

theorem mem_users {id : String} {row : User} :
    (id,row) ∈ view.users ↔ view.lookup (.user id) = some (.user row) := by
  rw [← AList.mem_rows]
  simp only [users,mem_filterMap,Prod.exists]
  constructor
  · rintro ⟨key,stored,member,same⟩
    split at same <;> cases same
    exact member
  · exact fun member => ⟨_,_,member,rfl⟩

theorem mem_grants {id : String} {row : FolderGrant} :
    (id,row) ∈ view.grants ↔ view.lookup (.grant id) = some (.grant row) := by
  rw [← AList.mem_rows]
  simp only [grants,mem_filterMap,Prod.exists]
  constructor
  · rintro ⟨key,stored,member,same⟩
    split at same <;> cases same
    exact member
  · exact fun member => ⟨_,_,member,rfl⟩

theorem mem_teams {id : String} {row : Team} :
    (id,row) ∈ view.teams ↔ view.lookup (.team id) = some (.team row) := by
  rw [← AList.mem_rows]
  simp only [teams,mem_filterMap,Prod.exists]
  constructor
  · rintro ⟨key,stored,member,same⟩
    split at same <;> cases same
    exact member
  · exact fun member => ⟨_,_,member,rfl⟩

theorem userAt_some {organizationId id : String} {row : User}
    (found : view.userAt organizationId id = some row) :
    view.lookup (.user id) = some (.user row) ∧ row.organizationId = organizationId := by
  unfold userAt at found
  split at found
  next stored at_key =>
    obtain ⟨owner,found⟩ := of_when found
    cases found
    exact ⟨at_key,owner⟩
  next => cases found

theorem teamAt_some {organizationId id : String} {row : Team}
    (found : view.teamAt organizationId id = some row) :
    view.lookup (.team id) = some (.team row) ∧ row.organizationId = organizationId := by
  unfold teamAt at found
  split at found
  next stored at_key =>
    obtain ⟨owner,found⟩ := of_when found
    cases found
    exact ⟨at_key,owner⟩
  next => cases found

end View

def erased (view : View) (gone : FolderGrant → Bool) : List Key :=
  (view.grants.filter (fun (_,grant) => gone grant)).map (fun (id,_) => Key.grant id)

theorem mem_erased {view : View} {gone : FolderGrant → Bool} {key : Key} :
    key ∈ erased view gone ↔ ∃ id grant, key = .grant id ∧ view.lookup (.grant id) = some (.grant grant) ∧
      gone grant = true := by
  simp only [erased,mem_map,mem_filter,Prod.exists]
  constructor
  · rintro ⟨id,grant,⟨member,goes⟩,rfl⟩
    exact ⟨id,grant,rfl,View.mem_grants.mp member,goes⟩
  · rintro ⟨id,grant,rfl,stored,goes⟩
    exact ⟨id,grant,⟨View.mem_grants.mpr stored,goes⟩,rfl⟩

theorem erased_user {view : View} {gone : FolderGrant → Bool} {id : String} :
    Key.user id ∉ erased view gone := fun member => by
  obtain ⟨_,_,same,-⟩ := mem_erased.mp member
  cases same

@[simp] theorem deleted_keys (keys : List Key) : (keys.map (·,(none : Option Row))).map Prod.fst = keys := by
  rw [map_map]
  exact map_id _

def Program.doomed : Program → FolderGrant → Bool
  | .deleteUser _ userId _,grant => grant.userId = some userId
  | .deleteTeam _ teamId,grant => grant.teamId = some teamId
  | .deleteEntry _ entryId,grant => grant.entryId = some entryId
  | .deleteAtNode organizationId shareId entryId _,grant =>
    grant.organizationId = organizationId && grant.shareId = shareId && grant.node = entryId.getD shareId
  | _,_ => false

inductive Effect (view : View) : Program → List (Key × Option Row) → Program → Prop where
  | quiet {program next : Program} (calm : ∀ number, program ≠ .retire number)
      (settled : ∀ proposed, program ≠ .insertGrants proposed)
      (further : ∀ proposed, next ≠ .insertGrants proposed) : Effect view program [] next
  | create {program next : Program} {key : Key} {row : Row} (absent : view.lookup key = none)
      (calm : ∀ number, program ≠ .retire number) (settled : ∀ proposed, program ≠ .insertGrants proposed)
      (further : ∀ proposed, next ≠ .insertGrants proposed) : Effect view program [(key,some row)] next
  | numberUser {program next : Program} {id : String} {old : User} (number : Nat)
      (found : view.lookup (.user id) = some (.user old)) (unnumbered : old.posixUid = none)
      (calm : ∀ number, program ≠ .retire number) (settled : ∀ proposed, program ≠ .insertGrants proposed)
      (further : ∀ proposed, next ≠ .insertGrants proposed) :
      Effect view program [(.user id,some (.user {old with posixUid := some number}))] next
  | numberTeam {program next : Program} {id : String} {old : Team} (number : Nat)
      (found : view.lookup (.team id) = some (.team old)) (unnumbered : old.posixGid = none)
      (calm : ∀ number, program ≠ .retire number) (settled : ∀ proposed, program ≠ .insertGrants proposed)
      (further : ∀ proposed, next ≠ .insertGrants proposed) :
      Effect view program [(.team id,some (.team {old with posixGid := some number}))] next
  | update {organizationId id : String} {role : Option Role} {disabled : Option Bool} {old : User}
      (found : view.lookup (.user id) = some (.user old)) (owner : old.organizationId = organizationId) :
      Effect view (.updateUser organizationId id role disabled)
        [(.user id,some (.user {old with role := role.getD old.role, disabled := disabled.getD old.disabled}))] .done
  | deleteUser {organizationId id : String} {posixUid : Option Nat} {old : User}
      (found : view.lookup (.user id) = some (.user old)) (owner : old.organizationId = organizationId) :
      Effect view (.deleteUser organizationId id posixUid)
        ((Key.user id::erased view (Program.deleteUser organizationId id posixUid).doomed).map (·,none))
        (retiring posixUid)
  | deleteTeam {organizationId id : String} {old : Team} (found : view.lookup (.team id) = some (.team old)) :
      Effect view (.deleteTeam organizationId id)
        ((Key.team id::erased view (Program.deleteTeam organizationId id).doomed).map (·,none))
        (retiring old.posixGid)
  | deleteEntry {organizationId id : String} :
      Effect view (.deleteEntry organizationId id)
        ((Key.entry id::erased view (Program.deleteEntry organizationId id).doomed).map (·,none)) .done
  | deleteAtNode {organizationId shareId : String} {entryId : Option String}
      {proposed : List (String × FolderGrant)} :
      Effect view (.deleteAtNode organizationId shareId entryId proposed)
        ((erased view (Program.deleteAtNode organizationId shareId entryId proposed).doomed).map (·,none))
        (.insertGrants proposed)
  | insertGrant {id : String} {grant : FolderGrant} {rest : List (String × FolderGrant)}
      (absent : view.lookup (.grant id) = none) :
      Effect view (.insertGrants ((id,grant)::rest)) [(.grant id,some (.grant grant))] (.insertGrants rest)
  | retired {number : Nat} (present : view.has (.retired number) = true) :
      Effect view (.retire number) [] .done
  | retire {number : Nat} : Effect view (.retire number) [(.retired number,some .retired)] .done

theorem absent_of_has {view : View} {key : Key} (absent : ¬view.has key = true) : view.lookup key = none := by
  simpa [View.has] using absent

theorem retiring_apart (number : Option Nat) (proposed : List (String × FolderGrant)) :
    retiring number ≠ .insertGrants proposed := by
  cases number <;> nofun

theorem statement_effect {program next : Program} {view : View} {locks : List (Key × Mode)}
    {writes : List (Key × Option Row)} (proceeded : statement program view = .proceed locks writes next) :
    Effect view program writes next := by
  cases program with simp only [statement] at proceeded
  | allocateForUser organizationId userId role everyoneId =>
    split at proceeded <;> cases proceeded
    exact .quiet nofun nofun nofun
  | insertUser organizationId userId role posixUid everyoneId =>
    split at proceeded <;> cases proceeded
    next fresh =>
      refine .create (absent_of_has fun present => fresh ?_) nofun nofun nofun
      rw [present,Bool.true_or]
  | everyoneTeam organizationId everyoneId =>
    split at proceeded
    next =>
      split at proceeded
      next => cases proceeded
      next =>
        split at proceeded <;> cases proceeded
        next absent => exact .create (absent_of_has absent) nofun nofun nofun
    next id row found =>
      split at proceeded
      next => cases proceeded; exact .quiet nofun nofun nofun
      next unnumbered =>
        split at proceeded <;> cases proceeded
        next number _ =>
          have stored := View.mem_teams.mp (mem_of_find?_eq_some found)
          exact .numberTeam number stored (by simpa using unnumbered) nofun nofun nofun
  | insertFounder organizationId userId =>
    split at proceeded <;> cases proceeded
    next absent => exact .create (absent_of_has absent) nofun nofun nofun
  | allocateForTeam organizationId teamId =>
    split at proceeded <;> cases proceeded
    exact .quiet nofun nofun nofun
  | insertTeam organizationId teamId posixGid =>
    split at proceeded <;> cases proceeded
    next fresh =>
      refine .create (absent_of_has fun present => fresh ?_) nofun nofun nofun
      rw [present,Bool.true_or]
  | readUid organizationId userId =>
    split at proceeded
    next => cases proceeded
    next =>
      split at proceeded <;> cases proceeded
      exact .quiet nofun nofun nofun
  | allocateForUid organizationId userId =>
    split at proceeded <;> cases proceeded
    exact .quiet nofun nofun nofun
  | storeUid organizationId userId posixUid =>
    split at proceeded
    next => cases proceeded
    next row found =>
      split at proceeded
      next => cases proceeded
      next unnumbered =>
        split at proceeded <;> cases proceeded
        exact .numberUser posixUid (View.userAt_some found).1 (by simpa using unnumbered) nofun nofun nofun
  | updateUser organizationId userId role disabled =>
    split at proceeded
    next => cases proceeded
    next old found =>
      split at proceeded <;> cases proceeded
      exact .update (View.userAt_some found).1 (View.userAt_some found).2
  | findUser organizationId userId =>
    split at proceeded <;> cases proceeded
  | readUidOfDoomed organizationId userId => cases proceeded
  | checkUserGrants organizationId userId posixUid =>
    split at proceeded <;> cases proceeded
  | deleteUser organizationId userId posixUid =>
    split at proceeded
    next => cases proceeded; exact .quiet nofun nofun (retiring_apart posixUid)
    next old found =>
      split at proceeded <;> cases proceeded
      exact .deleteUser (View.userAt_some found).1 (View.userAt_some found).2
  | findTeam organizationId teamId dryRun | refuseEveryone organizationId teamId dryRun =>
    split at proceeded <;> cases proceeded
    exact .quiet nofun nofun nofun
  | checkTeamGrants organizationId teamId dryRun =>
    split at proceeded
    next => cases proceeded
    next =>
      split at proceeded <;> cases proceeded
      exact .quiet nofun nofun nofun
  | deleteTeam organizationId teamId =>
    split at proceeded <;> cases proceeded
    next row found => exact .deleteTeam (View.teamAt_some found).1
  | retire number =>
    split at proceeded
    next => cases proceeded
    next =>
      split at proceeded
      next present => cases proceeded; exact .retired present
      next => cases proceeded; exact .retire
  | countElsewhere organizationId shareId entryId proposed dryRun =>
    split at proceeded
    next => cases proceeded
    next =>
      split at proceeded <;> cases proceeded
      exact .quiet nofun nofun nofun
  | deleteAtNode organizationId shareId entryId proposed => cases proceeded; exact .deleteAtNode
  | insertGrants proposed =>
    cases proposed with
    | nil => cases proceeded
    | cons first rest =>
      obtain ⟨id,grant⟩ := first
      dsimp only at proceeded
      split at proceeded <;> cases proceeded
      next allowed =>
        refine .insertGrant (absent_of_has fun present => ?_)
        simp [insertable,present] at allowed
  | deleteEntry organizationId entryId =>
    split at proceeded
    next => cases proceeded
    next =>
      split at proceeded <;> cases proceeded
      exact .deleteEntry
  | done => cases proceeded

end Depsis.Accounts

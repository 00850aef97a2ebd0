import Depsis.Foundation.ReadCommitted

/-! Accounts, teams and folder rules: the statements of the transactions that
change them. A read of a service that can only refuse is left to `abort`, which
may cut a session off at any statement.
-/
namespace Depsis.Accounts

open Depsis.Foundation Depsis.Foundation.ReadCommitted

inductive Role where
  | admin | member
deriving DecidableEq

/-- A row of `users`; `disabled` is `disabled_at IS NOT NULL`. -/
structure User where
  organizationId : String
  role : Role
  disabled : Bool
  posixUid : Option Nat

/-- A row of `teams`; `everyone` is `name_fold = fold_identity('Herkes')`. -/
structure Team where
  organizationId : String
  everyone : Bool
  posixGid : Option Nat

structure Entry where
  organizationId : String
  shareId : String
  parentId : Option String

/-- A row of `folder_grants`, with no entry at the root of its share. -/
structure FolderGrant where
  organizationId : String
  shareId : String
  entryId : Option String
  userId : Option String
  teamId : Option String

def FolderGrant.node (grant : FolderGrant) : String := grant.entryId.getD grant.shareId

/-- Primary keys; `allocation` is the advisory lock of `allocate_posix_id`. -/
inductive Key where
  | share (id : String)
  | user (id : String)
  | team (id : String)
  | entry (id : String)
  | grant (id : String)
  | retired (number : Nat)
  | allocation
deriving DecidableEq

inductive Row where
  | share (organizationId : String)
  | user (row : User)
  | team (row : Team)
  | entry (row : Entry)
  | grant (row : FolderGrant)
  | retired

abbrev View := Table Key Row

namespace View

def userAt (view : View) (organizationId id : String) : Option User :=
  match view.lookup (.user id) with
  | some (.user row) => if row.organizationId = organizationId then some row else none
  | _ => none

def teamAt (view : View) (organizationId id : String) : Option Team :=
  match view.lookup (.team id) with
  | some (.team row) => if row.organizationId = organizationId then some row else none
  | _ => none

def entryAt (view : View) (organizationId id : String) : Option Entry :=
  match view.lookup (.entry id) with
  | some (.entry row) => if row.organizationId = organizationId then some row else none
  | _ => none

def has (view : View) (key : Key) : Bool := (view.lookup key).isSome

def users (view : View) : List (String × User) :=
  view.rows.filterMap (fun (key,row) =>
    match key,row with
    | .user id,.user row => some (id,row)
    | _,_ => none)

def teams (view : View) : List (String × Team) :=
  view.rows.filterMap (fun (key,row) =>
    match key,row with
    | .team id,.team row => some (id,row)
    | _,_ => none)

def entries (view : View) : List (String × Entry) :=
  view.rows.filterMap (fun (key,row) =>
    match key,row with
    | .entry id,.entry row => some (id,row)
    | _,_ => none)

def grants (view : View) : List (String × FolderGrant) :=
  view.rows.filterMap (fun (key,row) =>
    match key,row with
    | .grant id,.grant row => some (id,row)
    | _,_ => none)

end View

def numberOf : Key → Row → Option Nat
  | .user _,.user row => row.posixUid
  | .team _,.team row => row.posixGid
  | .retired number,_ => some number
  | _,_ => none

/-- `users.posix_uid`, `teams.posix_gid` and `retired_posix_ids` together. -/
def taken (view : View) : List Nat :=
  view.rows.filterMap (fun (key,row) => numberOf key row)

/-- `allocate_posix_id`: `COALESCE(MAX(id_value), 299999) + 1`, or an error once the
reserved range is spent. -/
def allocatePosixId (view : View) : Option Nat :=
  if 399999 < (taken view).max?.getD 299999 + 1 then none else some ((taken view).max?.getD 299999 + 1)

def User.enabledAdmin (user : User) (organizationId : String) : Bool :=
  user.organizationId = organizationId && user.role = .admin && !user.disabled

/-- `refuse_last_admin_removal`: no enabled administrator but this one is in sight. -/
def lastAdmin (view : View) (id : String) (old : User) : Bool :=
  (view.users.countP (fun (other,row) => row.enabledAdmin old.organizationId && other ≠ id)) = 0

/-- `assertNoShareWouldOpen`: a share all of whose rules are among those that go. -/
def wouldOpen (view : View) (organizationId : String) (gone : FolderGrant → Bool) : Bool :=
  view.grants.any (fun (_,grant) => grant.organizationId = organizationId && gone grant &&
    !view.grants.any (fun (_,other) => other.organizationId = grant.organizationId &&
      other.shareId = grant.shareId && !gone other))

def grantsElsewhere (view : View) (organizationId shareId node : String) : Nat :=
  view.grants.countP (fun (_,grant) => grant.organizationId = organizationId &&
    grant.shareId = shareId && grant.node ≠ node)

inductive Program where
  /-- `UsersService.create`, to the everyone team it ends with. -/
  | allocateForUser (organizationId userId : String) (role : Role) (everyoneId : String)
  | insertUser (organizationId userId : String) (role : Role) (posixUid : Nat) (everyoneId : String)
  | everyoneTeam (organizationId everyoneId : String)
  | insertFounder (organizationId userId : String)
  | allocateForTeam (organizationId teamId : String)
  | insertTeam (organizationId teamId : String) (posixGid : Nat)
  | readUid (organizationId userId : String)
  | allocateForUid (organizationId userId : String)
  | storeUid (organizationId userId : String) (posixUid : Nat)
  | updateUser (organizationId userId : String) (role : Option Role) (disabled : Option Bool)
  /-- `UsersService.remove`: three reads, each a transaction, and the deletion. -/
  | findUser (organizationId userId : String)
  | readUidOfDoomed (organizationId userId : String)
  | checkUserGrants (organizationId userId : String) (posixUid : Option Nat)
  | deleteUser (organizationId userId : String) (posixUid : Option Nat)
  | findTeam (organizationId teamId : String) (dryRun : Bool)
  | refuseEveryone (organizationId teamId : String) (dryRun : Bool)
  | checkTeamGrants (organizationId teamId : String) (dryRun : Bool)
  | deleteTeam (organizationId teamId : String)
  | retire (number : Nat)
  /-- `PermissionsService.write`, from its count of the rules elsewhere. -/
  | countElsewhere (organizationId shareId : String) (entryId : Option String)
      (proposed : List (String × FolderGrant)) (dryRun : Bool)
  | deleteAtNode (organizationId shareId : String) (entryId : Option String)
      (proposed : List (String × FolderGrant))
  | insertGrants (proposed : List (String × FolderGrant))
  | deleteEntry (organizationId entryId : String)
  | done

inductive Request where
  | createUser (organizationId userId : String) (role : Role) (everyoneId : String)
  | claimSetup (organizationId userId : String)
  | createTeam (organizationId teamId : String)
  | posixUidFor (organizationId userId : String)
  | updateUser (organizationId userId : String) (role : Option Role) (disabled : Option Bool)
  | removeUser (organizationId userId : String)
  | removeTeam (organizationId teamId : String) (dryRun : Bool)
  | writeGrants (organizationId shareId : String) (entryId : Option String)
      (proposed : List (String × Option String × Option String)) (dryRun : Bool)
  | deleteEntry (organizationId entryId : String)

def opening : Request → Program
  | .createUser organizationId userId role everyoneId => .allocateForUser organizationId userId role everyoneId
  | .claimSetup organizationId userId => .insertFounder organizationId userId
  | .createTeam organizationId teamId => .allocateForTeam organizationId teamId
  | .posixUidFor organizationId userId => .readUid organizationId userId
  | .updateUser organizationId userId role disabled => .updateUser organizationId userId role disabled
  | .removeUser organizationId userId => .findUser organizationId userId
  | .removeTeam organizationId teamId dryRun => .findTeam organizationId teamId dryRun
  | .writeGrants organizationId shareId entryId proposed dryRun =>
    .countElsewhere organizationId shareId entryId (proposed.map (fun (id,userId,teamId) =>
      (id,⟨organizationId,shareId,entryId,userId,teamId⟩))) dryRun
  | .deleteEntry organizationId entryId => .deleteEntry organizationId entryId

def deletion (key : Key) (view : View) (gone : FolderGrant → Bool) (next : Program) :
    Outcome Key Row Program :=
  let keys := key::(view.grants.filter (fun (_,grant) => gone grant)).map (fun (id,_) => Key.grant id)
  .proceed [] (keys.map (·,none)) next

def retiring : Option Nat → Program
  | none => .done
  | some number => .retire number

/-- `INSERT INTO folder_grants`: the key, the one principal, the references, the
unique indexes. -/
def insertable (view : View) (id : String) (grant : FolderGrant) : Bool :=
  !view.has (.grant id) && (grant.userId.isSome != grant.teamId.isSome) &&
    view.has (.share grant.shareId) && grant.entryId.all (fun entryId => view.has (.entry entryId)) &&
    grant.userId.all (fun userId => view.has (.user userId)) &&
    grant.teamId.all (fun teamId => view.has (.team teamId)) &&
    !view.grants.any (fun (_,other) => other.organizationId = grant.organizationId &&
      other.shareId = grant.shareId && other.node = grant.node && other.userId = grant.userId &&
      other.teamId = grant.teamId)

def references (grant : FolderGrant) : List (Key × Mode) :=
  (.share grant.shareId,.keyShare)::(grant.entryId.toList.map (fun id => (.entry id,.keyShare)) ++
    grant.userId.toList.map (fun id => (.user id,.keyShare)) ++
    grant.teamId.toList.map (fun id => (.team id,.keyShare)))

def statement (program : Program) (view : View) : Outcome Key Row Program :=
  match program with
  | .allocateForUser organizationId userId role everyoneId =>
    match allocatePosixId view with
    | none => .fail
    | some number => .proceed [(.allocation,.forUpdate)] [] (.insertUser organizationId userId role number everyoneId)
  | .insertUser organizationId userId role posixUid everyoneId =>
    if view.has (.user userId) || view.users.any (fun (_,row) => row.posixUid = some posixUid) then .fail
    else .proceed []
      [(.user userId,some (.user ⟨organizationId,role,false,some posixUid⟩))] (.everyoneTeam organizationId everyoneId)
  | .everyoneTeam organizationId everyoneId =>
    match view.teams.find? (fun (_,row) => row.organizationId = organizationId && row.everyone) with
    | none =>
      match allocatePosixId view with
      | none => .fail
      | some number =>
        if view.has (.team everyoneId) then .fail
        else .proceed [(.allocation,.forUpdate)]
          [(.team everyoneId,some (.team ⟨organizationId,true,some number⟩))] .done
    | some (id,row) =>
      if row.posixGid.isSome then .proceed [] [] .done
      else match allocatePosixId view with
      | none => .fail
      | some number => .proceed [(.allocation,.forUpdate)]
          [(.team id,some (.team {row with posixGid := some number}))] .done
  | .insertFounder organizationId userId =>
    if view.has (.user userId) then .fail
    else .proceed [] [(.user userId,some (.user ⟨organizationId,.admin,false,none⟩))] .done
  | .allocateForTeam organizationId teamId =>
    match allocatePosixId view with
    | none => .fail
    | some number => .proceed [(.allocation,.forUpdate)] [] (.insertTeam organizationId teamId number)
  | .insertTeam organizationId teamId posixGid =>
    if view.has (.team teamId) || view.teams.any (fun (_,row) => row.posixGid = some posixGid) then .fail
    else .proceed []
      [(.team teamId,some (.team ⟨organizationId,false,some posixGid⟩))] .done
  | .readUid organizationId userId =>
    match view.userAt organizationId userId with
    | none => .fail
    | some row => if row.posixUid.isSome then .commit none else .proceed [] [] (.allocateForUid organizationId userId)
  | .allocateForUid organizationId userId =>
    match allocatePosixId view with
    | none => .fail
    | some number => .proceed [(.allocation,.forUpdate)] [] (.storeUid organizationId userId number)
  | .storeUid organizationId userId posixUid =>
    match view.userAt organizationId userId with
    | none => .fail
    | some row =>
      -- `AND posix_uid IS NULL`: the loser of a race reads the winner's number instead.
      if row.posixUid.isSome then .commit none
      else if view.users.any (fun (_,other) => other.posixUid = some posixUid) then .fail
      else .proceed [] [(.user userId,some (.user {row with posixUid := some posixUid}))] .done
  | .updateUser organizationId userId role disabled =>
    match view.userAt organizationId userId with
    | none => .commit none
    | some old =>
      let new : User := {old with role := role.getD old.role, disabled := disabled.getD old.disabled}
      if old.enabledAdmin old.organizationId && !new.enabledAdmin old.organizationId && lastAdmin view userId old then .fail
      else .proceed [] [(.user userId,some (.user new))] .done
  | .findUser organizationId userId =>
    match view.userAt organizationId userId with
    | none => .fail
    | some _ => .commit (some (.readUidOfDoomed organizationId userId))
  | .readUidOfDoomed organizationId userId =>
    .commit (some (.checkUserGrants organizationId userId ((view.userAt organizationId userId).bind User.posixUid)))
  | .checkUserGrants organizationId userId posixUid =>
    if wouldOpen view organizationId (fun grant => grant.userId = some userId) then .fail
    else .commit (some (.deleteUser organizationId userId posixUid))
  | .deleteUser organizationId userId posixUid =>
    match view.userAt organizationId userId with
    | none => .proceed [] [] (retiring posixUid)
    | some old =>
      if old.enabledAdmin old.organizationId && lastAdmin view userId old then .fail
      else deletion (.user userId) view (fun grant => grant.userId = some userId) (retiring posixUid)
  | .findTeam organizationId teamId dryRun =>
    match view.teamAt organizationId teamId with
    | none => .fail
    | some _ => .proceed [] [] (.refuseEveryone organizationId teamId dryRun)
  | .refuseEveryone organizationId teamId dryRun =>
    if (view.teamAt organizationId teamId).any Team.everyone then .fail
    else .proceed [] [] (.checkTeamGrants organizationId teamId dryRun)
  | .checkTeamGrants organizationId teamId dryRun =>
    if wouldOpen view organizationId (fun grant => grant.teamId = some teamId) then .fail
    else if dryRun then .commit none
    else .proceed [] [] (.deleteTeam organizationId teamId)
  | .deleteTeam organizationId teamId =>
    match view.teamAt organizationId teamId with
    | none => .commit none
    | some row => deletion (.team teamId) view (fun grant => grant.teamId = some teamId) (retiring row.posixGid)
  | .retire number =>
    if number < 300000 || 399999 < number then .fail
    else if view.has (.retired number) then .proceed [] [] .done
    else .proceed [] [(.retired number,some .retired)] .done
  | .countElsewhere organizationId shareId entryId proposed dryRun =>
    if grantsElsewhere view organizationId shareId (entryId.getD shareId) = 0 && proposed.isEmpty then .fail
    else if dryRun then .commit none
    else .proceed [] [] (.deleteAtNode organizationId shareId entryId proposed)
  | .deleteAtNode organizationId shareId entryId proposed =>
    let keys := (view.grants.filter (fun (_,grant) => grant.organizationId = organizationId &&
      grant.shareId = shareId && grant.node = entryId.getD shareId)).map (fun (id,_) => Key.grant id)
    .proceed [] (keys.map (·,none)) (.insertGrants proposed)
  | .insertGrants [] => .commit none
  | .insertGrants ((id,grant)::rest) =>
    if insertable view id grant then
      .proceed (references grant) [(.grant id,some (.grant grant))] (.insertGrants rest)
    else .fail
  | .deleteEntry organizationId entryId =>
    match view.entryAt organizationId entryId with
    | none => .commit none
    | some _ =>
      -- `parent_id` is ON DELETE RESTRICT.
      if view.entries.any (fun (_,row) => row.parentId = some entryId) then .fail
      else deletion (.entry entryId) view (fun grant => grant.entryId = some entryId) .done
  | .done => .commit none

def system : System Key Row Program Request := ⟨opening,statement⟩

end Depsis.Accounts

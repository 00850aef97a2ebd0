import Depsis.Foundation.Table
import Depsis.Foundation.Machine

/-! Opening a share: the parent is looked up, the name and the grants are checked, the agent makes the dataset, and one
transaction writes the row with its grants. Every step may fail by itself, users and teams are deleted in between, and
rows that were written before there was storage are adopted onto datasets of their own.
-/
namespace Depsis.Shares.Opening

open Depsis.Foundation

inductive Holder where
  | user (id : String)
  | team (id : String)
deriving DecidableEq

structure GrantInput where
  userId : Option String
  teamId : Option String
  permissions : List String
deriving DecidableEq

structure Create where
  organization : String
  actor : String
  name : String
  readOnly : Bool
  quotaBytes : Option Nat
  grants : Option (List GrantInput)

structure ShareRow where
  organization : String
  name : String
  dataset : String
  readOnly : Bool

structure Grant where
  share : Nat
  holder : Holder
  permissions : List String

inductive Call where
  | resolve (create : Create)
  | check (create : Create) (dataset : String)
  | make (create : Create) (dataset : String) (applied : List GrantInput)
  | write (create : Create) (dataset : String) (applied : List GrantInput)
  | adopt (organization : String)
  | list (organization parent : String)
  | makePending (parent : String) (row : Nat × String) (rest : List (Nat × String))
  | update (parent : String) (row : Nat × String) (rest : List (Nat × String))

inductive Maker where
  | given
  | create (ticket : Nat)
  | adoption (ticket : Nat)
deriving DecidableEq

/-- The datasets of the pool, with who made them; the tables; the users and teams that are there, and those whose
deletion has passed its check. -/
structure State where
  pool : Table String Maker
  shares : Table Nat ShareRow
  grants : List Grant
  holders : List (String × Holder)
  doomed : List (String × Holder)
  calls : Table Nat Call

/-- `create_dataset`: made and answered `created`, made and not read back as it should, not made, or without a reply
after it was made. -/
inductive Fate where
  | created
  | unread
  | fails
  | lost
deriving DecidableEq

inductive Response where
  | created
  | conflict
  | failed

inductive Event where
  | creates (ticket : Nat) (create : Create)
  | adopts (ticket : Nat) (organization : String)
  | resolves (ticket : Nat) (parent : Option String)
  /-- The transaction that checks the name and the principals, or the query for the pending rows. -/
  | checks (ticket : Nat)
  | makes (ticket : Nat) (fate : Fate)
  /-- The transaction that writes the row, under the id it draws, or the UPDATE of a pending row. -/
  | writes (ticket id : Nat)
  | writeLost (ticket id : Nat)
  | fails (ticket : Nat)
  | joins (organization : String) (holder : Holder)
  | guards (organization : String) (holder : Holder)
  | deletes (organization : String) (holder : Holder)
  | installs (id : Nat) (organization slug : String)
  | appears (dataset : String)

def RESERVED_SECTIONS : List String := ["global","homes","printers","print$"]

def ALL_PERMISSIONS : List String := ["list","read","download","create","modify","move","delete","share","manage","versions","audit"]

def datasetOf (parent name : String) : String := parent ++ "/" ++ name

def nested (dataset : String) : Bool := decide ( '/' ∈ dataset.toList)

def GrantInput.holder (grant : GrantInput) : Option Holder :=
  match grant.userId,grant.teamId with
  | some user,none => some (.user user)
  | none,some team => some (.team team)
  | _,_ => none

/-- Everybody a list of grants names, whether or not the checks of a row would let it through. -/
def principals (grants : List GrantInput) : List Holder :=
  grants.flatMap fun grant => (grant.userId.map Holder.user).toList ++ (grant.teamId.map Holder.team).toList

section

variable (fold lower : String → String) (everyone : String → String) (state : State)

def State.continues (ticket : Nat) (call : Call) : State := { state with calls := state.calls.insert ticket call }

def State.ends (ticket : Nat) : State := { state with calls := state.calls.erase ticket }

def refused (create : Create) : Bool :=
  RESERVED_SECTIONS.any (fun reserved => reserved = lower create.name) || create.grants = some []

def State.nameFree (organization name : String) : Bool :=
  state.shares.all fun _ row => !(decide (row.organization = organization) && decide (fold row.name = fold name))

def defaultGrants (create : Create) : List GrantInput :=
  [⟨some create.actor,none,ALL_PERMISSIONS⟩,⟨none,some (everyone create.organization),["list","read","download"]⟩]

/-- `everyone_team`, which makes the team where it is missing. -/
def State.withEveryone (organization : String) : State :=
  if state.holders.contains (organization,.team (everyone organization)) then state
  else { state with holders := state.holders ++ [(organization,.team (everyone organization))] }

def State.principalsIn (organization : String) (grants : List GrantInput) : Bool :=
  (principals grants).all fun holder => state.holders.contains (organization,holder)

/-- The transaction that checks; what `everyone_team` makes is undone when it refuses. -/
def State.check (ticket : Nat) (create : Create) (dataset : String) : State :=
  if state.nameFree fold create.organization create.name then
    match create.grants with
    | some grants =>
      if state.principalsIn create.organization grants then state.continues ticket (.make create dataset grants) else state.ends ticket
    | none =>
      let made := state.withEveryone everyone create.organization
      let grants := defaultGrants everyone create
      if made.principalsIn create.organization grants then made.continues ticket (.make create dataset grants) else state.ends ticket
  else state.ends ticket

/-- The agent's `create_dataset`: `zfs create` fails on a dataset that is there. -/
def State.createDataset (dataset : String) (maker : Maker) (fate : Fate) : State × Option Response :=
  if (state.pool.lookup dataset).isSome then (state,if fate = .lost then none else some .failed)
  else
    match fate with
    | .created => ({ state with pool := state.pool.insert dataset maker },some .created)
    | .unread => ({ state with pool := state.pool.insert dataset maker },some .failed)
    | .fails => (state,some .failed)
    | .lost => ({ state with pool := state.pool.insert dataset maker },none)

def State.grantable (grants : List GrantInput) : Bool :=
  grants.all (fun grant => grant.holder.any (fun holder => state.holders.any (fun there => there.2 = holder)) && !grant.permissions.isEmpty) &&
    decide (grants.filterMap GrantInput.holder).Nodup

def State.writable (create : Create) (applied : List GrantInput) : Bool :=
  state.nameFree fold create.organization create.name && state.grantable applied

def grantRows (id : Nat) (applied : List GrantInput) : List Grant :=
  applied.filterMap fun grant => grant.holder.map fun holder => ⟨id,holder,grant.permissions⟩

def State.write (id : Nat) (create : Create) (dataset : String) (applied : List GrantInput) : State :=
  { state with
    shares := state.shares.insert id ⟨create.organization,create.name,dataset,create.readOnly⟩
    grants := state.grants ++ grantRows id applied }

def State.pending (organization : String) : List (Nat × String) :=
  (state.shares.rows.filter (fun row => row.2.organization = organization ∧ nested row.2.dataset = false)).map (fun row => (row.1,row.2.name))

def State.adoptNext (ticket : Nat) (parent : String) : List (Nat × String) → State
  | [] => state.ends ticket
  | row::rest => state.continues ticket (.makePending parent row rest)

def State.update (id : Nat) (dataset : String) : State :=
  match state.shares.lookup id with
  | none => state
  | some row => { state with shares := state.shares.insert id { row with dataset := dataset } }

/-- `assertNoShareWouldOpen`: every share that has a grant to the holder has another. -/
def State.noShareOpens (holder : Holder) : Bool :=
  state.grants.all fun grant =>
    !decide (grant.holder = holder) || state.grants.any (fun other => decide (other.share = grant.share) && decide (other.holder ≠ holder))

def State.delete (organization : String) (holder : Holder) : State :=
  { state with
    holders := state.holders.filter (· ≠ (organization,holder))
    doomed := state.doomed.filter (· ≠ (organization,holder))
    grants := state.grants.filter (fun grant => grant.holder ≠ holder) }

def State.resolve (ticket : Nat) (parent : Option String) : Call → Option State
  | .resolve create =>
    match parent with
    | none => some (state.ends ticket)
    | some parent =>
      if refused lower create then some (state.ends ticket)
      else some (state.continues ticket (.check create (datasetOf parent create.name)))
  | .adopt organization =>
    match parent with
    | none => some (state.ends ticket)
    | some parent => some (state.continues ticket (.list organization parent))
  | _ => none

def State.make (ticket : Nat) (fate : Fate) : Call → Option State
  | .make create dataset applied =>
    match state.createDataset dataset (.create ticket) fate with
    | (next,some .created) => some (next.continues ticket (.write create dataset applied))
    | (next,_) => some (next.ends ticket)
  | .makePending parent row rest =>
    match state.createDataset (datasetOf parent row.2) (.adoption ticket) fate with
    | (next,some .created) => some (next.continues ticket (.update parent row rest))
    | (next,some .conflict) => some (next.continues ticket (.update parent row rest))
    | (next,_) => some (next.ends ticket)
  | _ => none

/-- The transactions that write; a row that does not pass the constraints is undone with its grants. -/
def State.store (ticket id : Nat) (heard : Bool) : Call → Option State
  | .write create dataset applied =>
    if (state.shares.lookup id).isSome then none
    else if state.writable fold create applied then some ((state.write id create dataset applied).ends ticket)
    else some (state.ends ticket)
  | .update parent row rest =>
    let stored := state.update row.1 (datasetOf parent row.2)
    if heard then some (stored.adoptNext ticket parent rest) else some (stored.ends ticket)
  | _ => none

end

variable (fold lower : String → String) (everyone : String → String) (state : State)

def step : Event → Option State
  | .creates ticket create =>
    if (state.calls.lookup ticket).isSome ∨ state.pool.any (fun _ maker => maker = .create ticket || maker = .adoption ticket) then none
    else some (state.continues ticket (.resolve create))
  | .adopts ticket organization =>
    if (state.calls.lookup ticket).isSome ∨ state.pool.any (fun _ maker => maker = .create ticket || maker = .adoption ticket) then none
    else some (state.continues ticket (.adopt organization))
  | .resolves ticket parent => (state.calls.lookup ticket).bind (state.resolve lower ticket parent)
  | .checks ticket =>
    (state.calls.lookup ticket).bind fun call =>
      match call with
      | .check create dataset => some (state.check fold everyone ticket create dataset)
      | .list organization parent => some (state.adoptNext ticket parent (state.pending organization))
      | _ => none
  | .makes ticket fate => (state.calls.lookup ticket).bind (state.make ticket fate)
  | .writes ticket id => (state.calls.lookup ticket).bind (state.store fold ticket id true)
  | .writeLost ticket id => (state.calls.lookup ticket).bind (state.store fold ticket id false)
  | .fails ticket => (state.calls.lookup ticket).map fun _ => state.ends ticket
  | .joins organization holder =>
    if state.holders.any (fun there => there.2 = holder) then none
    else some { state with holders := state.holders ++ [(organization,holder)] }
  | .guards organization holder =>
    if state.noShareOpens holder ∧ holder ≠ .team (everyone organization) then
      some { state with doomed := state.doomed ++ [(organization,holder)] }
    else none
  | .deletes organization holder =>
    if state.doomed.contains (organization,holder) then some (state.delete organization holder) else none
  | .installs id organization slug =>
    if (state.shares.lookup id).isSome ∨ nested slug ∨
        state.shares.any (fun _ row => decide (row.organization = organization) || decide (row.dataset = slug)) then none
    else
      let made := state.withEveryone everyone organization
      some { made with
        shares := made.shares.insert id ⟨organization,slug,slug,false⟩
        grants := made.grants ++ [Grant.mk id (.team (everyone organization)) ["list","read","download","create","modify","move","delete"]] }
  | .appears dataset =>
    if (state.pool.lookup dataset).isSome then none else some { state with pool := state.pool.insert dataset .given }

def State.commits : Call → Bool
  | .write create _ applied => state.writable fold create applied
  | _ => true

/-- A dataset made for a create is answered `created` and its row committed, and no deletion takes a share's last grant. -/
def Event.spares : Event → Bool
  | .makes ticket fate =>
    (state.calls.lookup ticket).all fun call =>
      match call with
      | .make _ dataset _ => (state.pool.lookup dataset).isSome || fate = .created || fate = .fails
      | _ => true
  | .writes ticket _ => (state.calls.lookup ticket).all (state.commits fold)
  | .writeLost ticket _ => (state.calls.lookup ticket).all (state.commits fold)
  | .fails ticket =>
    (state.calls.lookup ticket).all fun call =>
      match call with
      | .write _ _ _ => false
      | _ => true
  | .deletes _ holder => state.noShareOpens holder
  | _ => true

def State.first : State := ⟨∅,∅,[],[],[],∅⟩

end Depsis.Shares.Opening

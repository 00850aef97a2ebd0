import Depsis.Permissions.Service

/-! `TeamsService` (`apps/api/src/teams/teams.service.ts`): deleting a team and taking
a member out of it, each priced before it happens as the loss of the team's grants.
-/
namespace Depsis.Teams

open Depsis.Authz Depsis.Files Depsis.Foundation Depsis.Permissions

inductive Refusal where
  | teamNotFound
  | teamMemberNotFound
  | everyoneTeamIsFixed
  | lastGrantInShare
  | failed (message : String)

def IMPACT_FOLDER_LIMIT : Nat := 1000

def NO_IMPACT : ImpactView := ⟨0,[],[]⟩

structure BulkImpact where
  summary : ImpactView
  shareIds : List String

structure TreeRow where
  id : String
  parentId : Option String
  shareId : String

section Preview

variable (tables : Tables) (organizationId teamId : String)

def findWithin : Except Refusal Unit :=
  if tables.teams.any (fun team => team.organizationId = organizationId ∧ team.id = teamId) then .ok ()
  else .error .teamNotFound

def ofTeam (row : GrantRow) : Bool := row.organizationId = organizationId ∧ row.teamId = some teamId

def shareIds : List String :=
  ((tables.grants.filter (ofTeam organizationId teamId)).map GrantRow.shareId).eraseDups

def nodeRows : List TreeRow :=
  (tables.entries.filter (fun entry => entry.organizationId = organizationId ∧
    entry.shareId ∈ shareIds tables organizationId teamId ∧ entry.trashed = false ∧
    (entry.kind = .folder ∨ tables.grants.any (fun row =>
      row.organizationId = organizationId ∧ row.entryId = some entry.id)))).map
    (fun entry => ⟨entry.id,entry.parentId,entry.shareId⟩)

def sharedGrants : List GrantRow :=
  tables.grants.filter (fun row => row.organizationId = organizationId ∧
    row.shareId ∈ shareIds tables organizationId teamId)

/-- A row whose permissions this build does not know, or without a principal, grants nothing. -/
def toAclGrant (row : GrantRow) : Option Grant :=
  match row.permissions.filterMap asPermission with
  | [] => none
  | permissions =>
    match row.teamId,row.userId with
    | some team,_ => some ⟨.team team,permissions⟩
    | none,some user => some ⟨.user user,permissions⟩
    | none,none => none

def grantsBefore (nodeId : String) : List Grant :=
  ((sharedGrants tables organizationId teamId).filter (fun row => nodeOf row.shareId row = nodeId)).filterMap toAclGrant

def grantsAfter (nodeId : String) : List Grant :=
  (grantsBefore tables organizationId teamId nodeId).filter (fun grant => grant.principal ≠ .team teamId)

def parents : Table String (Option String) :=
  ((∅ : Table String (Option String)).fill ((shareIds tables organizationId teamId).map (fun id => (id,none)))).fill
    ((nodeRows tables organizationId teamId).map (fun row => (row.id,some (row.parentId.getD row.shareId))))

def nodeIds : List String :=
  (shareIds tables organizationId teamId ++ (nodeRows tables organizationId teamId).map TreeRow.id).eraseDups

end Preview

/-- The loop of `chainTo`, target first: every step meets an id for the first time, so
there are no more of them than ids. -/
def climb (parents : Table String (Option String)) (grants : String → List Grant) :
    Nat → List String → String → Option (List AclNode)
  | 0,_,_ => none
  | steps + 1,seen,current =>
    if current ∈ seen then none
    else match parents.lookup current with
    | none => none
    | some none => some [⟨current,none,grants current⟩]
    | some (some parent) => (climb parents grants steps (current::seen) parent).map (⟨current,some parent,grants current⟩::·)

def chainTo (nodeId : String) (parents : Table String (Option String)) (grants : String → List Grant) :
    Option (List AclNode) :=
  (climb parents grants (parents.size + 1) [] nodeId).map List.reverse

section Preview

variable (tables : Tables) (organizationId teamId : String)

def chainsOf (nodeId : String) : Option (List AclNode × List AclNode) :=
  match chainTo nodeId (parents tables organizationId teamId) (grantsBefore tables organizationId teamId),
      chainTo nodeId (parents tables organizationId teamId) (grantsAfter tables organizationId teamId) with
  | some before,some after => some (before,after)
  | _,_ => none

def pricedChains : List (List AclNode × List AclNode) :=
  ((nodeIds tables organizationId teamId).filterMap (chainsOf tables organizationId teamId)).take IMPACT_FOLDER_LIMIT

def byDepth (ranked : List (Nat × FolderImpact)) : List (Nat × FolderImpact) :=
  ranked.mergeSort (fun first second => first.1 ≤ second.1)

def usernameIn (userId : String) : String :=
  ((tables.users.find? (fun user => user.organizationId = organizationId ∧ user.id = userId)).map User.username).getD ""

def impactOfDroppingTeamGrants (affectedUserIds : List String) : Except String BulkImpact :=
  let touched := shareIds tables organizationId teamId
  if affectedUserIds = [] ∨ touched = [] then .ok ⟨NO_IMPACT,touched⟩
  else
    let subjects := affectedUserIds.map (subjectOf tables organizationId)
    ((pricedChains tables organizationId teamId).mapM (fun chains =>
      (resolveImpact chains.1 chains.2 subjects).map (fun impact => (chains.1.length,impact)))).map (fun ranked =>
        let rolled := aggregateImpact ((byDepth ranked).map Prod.snd)
        ⟨{ foldersAffected := rolled.foldersAffected
           usersGaining := rolled.usersGaining.map (viewOf (usernameIn tables organizationId))
           usersLosing := rolled.usersLosing.map (viewOf (usernameIn tables organizationId)) },touched⟩)

def opensShare : Bool :=
  tables.grants.any (fun row => ofTeam organizationId teamId row && !tables.grants.any (fun other =>
    other.organizationId = row.organizationId ∧ other.shareId = row.shareId ∧ other.teamId ≠ some teamId))

def membersOf : List String :=
  (tables.members.filter (fun member => member.organizationId = organizationId ∧ member.teamId = teamId)).map
    TeamMember.userId

def hasMember (userId : String) : Bool :=
  tables.members.any (fun member => member.organizationId = organizationId ∧ member.teamId = teamId ∧
    member.userId = userId)

def dropMember (userId : String) : Tables :=
  { tables with
    members := tables.members.filter (fun member =>
      !decide (member.organizationId = organizationId ∧ member.teamId = teamId ∧ member.userId = userId)) }

/-- `DELETE FROM teams`, which takes the memberships and the grants along. -/
def dropTeam : Tables :=
  { tables with
    teams := tables.teams.filter (fun team => !decide (team.organizationId = organizationId ∧ team.id = teamId))
    members := tables.members.filter (fun member =>
      !decide (member.organizationId = organizationId ∧ member.teamId = teamId))
    grants := tables.grants.filter (fun row => !ofTeam organizationId teamId row)
    keyed := tables.entriesKeyed
    apart := tables.entriesApart
    referenced := fun row member => tables.referenced row (List.mem_filter.mp member).1
    unique := tables.unique.sublist List.filter_sublist }

end Preview

inductive Removal where
  | remove (teamId : String)
  | removeMember (teamId userId : String)

def Removal.teamId : Removal → String
  | .remove teamId => teamId
  | .removeMember teamId _ => teamId

def Removal.affected (tables : Tables) (organizationId : String) : Removal → List String
  | .remove teamId => membersOf tables organizationId teamId
  | .removeMember _ userId => [userId]

def Removal.drop (tables : Tables) (organizationId : String) : Removal → Tables
  | .remove teamId => dropTeam tables organizationId teamId
  | .removeMember teamId userId => dropMember tables organizationId teamId userId

/-- What is refused before the price is worked out; `everyone` is the team looked up by name. -/
def Removal.refused (everyone : String → Bool) (tables : Tables) (organizationId : String) : Removal → Except Refusal Unit
  | .remove teamId => do
    findWithin tables organizationId teamId
    if everyone teamId then throw .everyoneTeamIsFixed
    if opensShare tables organizationId teamId then throw .lastGrantInShare
  | .removeMember teamId userId => do
    findWithin tables organizationId teamId
    if !hasMember tables organizationId teamId userId then throw .teamMemberNotFound

structure Removed where
  impact : BulkImpact
  changed : Bool
  tables : Tables

/-- The transaction of `remove` and of `removeMember`; a dry run changes nothing. -/
def Removal.run (everyone : String → Bool) (tables : Tables) (organizationId : String) (dryRun : Bool)
    (removal : Removal) : Except Refusal Removed := do
  removal.refused everyone tables organizationId
  let impact ← (impactOfDroppingTeamGrants tables organizationId removal.teamId
    (removal.affected tables organizationId)).mapError .failed
  if dryRun then return ⟨impact,false,tables⟩
  return ⟨impact,true,removal.drop tables organizationId⟩

end Depsis.Teams

import Depsis.Authz.Laws
import Depsis.Teams.Service

/-! Losing a membership and losing the team's grants are one event to the resolver, at
every node of every tree; a preview that prices the second may stand for the first.
-/
namespace Depsis.Teams

open Depsis.Authz Depsis.Foundation Depsis.Permissions List

def without (teamId : String) (chain : List AclNode) : List AclNode :=
  chain.map (fun node => { node with grants := node.grants.filter (fun grant => grant.principal ≠ .team teamId) })

def leaving (teamId : String) (subject : Subject) : Subject :=
  { subject with teamIds := subject.teamIds.filter (fun team => team ≠ teamId) }

structure Faithful (tables : Tables) (organizationId : String) (removal : Removal) (done : Removed) : Prop where
  agrees : ∀ chain userId, resolve (without removal.teamId chain) (subjectOf tables organizationId userId) =
    resolve chain (leaving removal.teamId (subjectOf tables organizationId userId))
  narrows : ∀ chain userId,
    (resolution chain (leaving removal.teamId (subjectOf tables organizationId userId))).effective ⊆
      (resolution chain (subjectOf tables organizationId userId)).effective
  priced : ∀ chains ∈ pricedChains tables organizationId removal.teamId, chains.2 = without removal.teamId chains.1
  left : done.changed = true → ∀ userId ∈ removal.affected tables organizationId,
    subjectOf done.tables organizationId userId = leaving removal.teamId (subjectOf tables organizationId userId)
  noGain : done.impact.summary.usersGaining = []
  administrators : ∀ loser ∈ done.impact.summary.usersLosing, ∀ user ∈ tables.users, user.id = loser.userId →
    user.isAdmin = false

def AdministratorsUnmoved (tables : Tables) (organizationId : String) (removal : Removal) : Prop :=
  ∀ userId ∈ removal.affected tables organizationId, (∃ user ∈ tables.users, user.id = userId ∧ user.isAdmin = true) →
    ∀ chains ∈ pricedChains tables organizationId removal.teamId,
      (resolution chains.1 (subjectOf tables organizationId userId)).effective ⊆
        (resolution chains.1 (leaving removal.teamId (subjectOf tables organizationId userId))).effective

section Resolver

variable {teamId : String} {chain : List AclNode} {subject : Subject} {principal : Principal}

theorem grantOn_without_other (node : AclNode) (apart : principal ≠ .team teamId) :
    grantOn { node with grants := node.grants.filter (fun grant => grant.principal ≠ .team teamId) } principal =
      grantOn node principal := by
  rw [grantOn,grantOn,find?_filter]
  refine congrArg (fun test => (node.grants.find? test).map _) (funext (fun grant => ?_))
  by_cases named : grant.principal = principal
  · simp [named,apart]
  · simp [named]

theorem grantOn_without_team (node : AclNode) :
    grantOn { node with grants := node.grants.filter (fun grant => grant.principal ≠ .team teamId) } (.team teamId) =
      none := by
  rw [grantOn,find?_filter,find?_eq_none.mpr]
  · rfl
  · intro grant _
    simp

theorem nearestGrant_without_other (chain : List AclNode) (apart : principal ≠ .team teamId) :
    nearestGrant (without teamId chain) principal = nearestGrant chain principal := by
  apply nearestGrant_congr
  rw [without,map_map]
  exact map_congr_left (fun node _ => grantOn_without_other node apart)

theorem nearestGrant_without_team (chain : List AclNode) : nearestGrant (without teamId chain) (.team teamId) = none := by
  refine findSome?_eq_none_iff.mpr (fun node member => ?_)
  obtain ⟨kept,-,rfl⟩ := mem_map.mp (mem_reverse.mp member)
  exact grantOn_without_team kept

theorem ids_without (chain : List AclNode) : (without teamId chain).map AclNode.id = chain.map AclNode.id := by
  rw [without,map_map]
  rfl

theorem links_without (chain : List AclNode) : (without teamId chain).map (fun node => (node.id,node.parentId)) =
    chain.map (fun node => (node.id,node.parentId)) := by
  rw [without,map_map]
  rfl

theorem sources_without (chain : List AclNode) (subject : Subject) :
    (resolution (without teamId chain) subject).sources = (resolution chain (leaving teamId subject)).sources := by
  change (principalsOf subject).filterMap (nearestGrant (without teamId chain)) =
    (principalsOf (leaving teamId subject)).filterMap (nearestGrant chain)
  obtain ⟨userId,teamIds⟩ := subject
  have own : nearestGrant (without teamId chain) (.user userId) = nearestGrant chain (.user userId) :=
    nearestGrant_without_other chain nofun
  have teams : (teamIds.map Principal.team).filterMap (nearestGrant (without teamId chain)) =
      ((teamIds.filter (fun team => team ≠ teamId)).map Principal.team).filterMap (nearestGrant chain) := by
    induction teamIds with
    | nil => rfl
    | cons team rest ih =>
      by_cases same : team = teamId
      · subst same
        rw [map_cons,filterMap_cons_none (nearestGrant_without_team chain),ih,filter_cons_of_neg (by simp)]
      · have apart : Principal.team team ≠ .team teamId := fun equal => same (Principal.team.inj equal)
        rw [map_cons,filter_cons_of_pos (by simpa using same),map_cons,filterMap_cons,
          filterMap_cons,nearestGrant_without_other chain apart,ih]
  change List.filterMap _ (_::_) = List.filterMap _ (_::_)
  rw [filterMap_cons,filterMap_cons,own,teams]
  rfl

theorem resolution_without (chain : List AclNode) (subject : Subject) :
    resolution (without teamId chain) subject = resolution chain (leaving teamId subject) := by
  have sources := @sources_without teamId chain subject
  change (Resolution.mk _ _ _) = Resolution.mk _ _ _
  rw [Resolution.mk.injEq]
  refine ⟨congrArg (fun sources => (sources.flatMap PrincipalSource.permissions).eraseDups) sources,sources,?_⟩
  rw [nearestSource_congr (ids_without chain)]
  exact congrArg (nearestSource chain) sources

theorem resolve_without (chain : List AclNode) (subject : Subject) :
    resolve (without teamId chain) subject = resolve chain (leaving teamId subject) := by
  rw [resolve,resolve,assertChain_congr (links_without chain),resolution_without]

theorem leaving_subset (chain : List AclNode) (subject : Subject) :
    (resolution chain (leaving teamId subject)).effective ⊆ (resolution chain subject).effective :=
  @effective_mono chain (leaving teamId subject) subject.teamIds (fun _ member => (mem_filter.mp member).1)

end Resolver

section Chains

variable {parents : Table String (Option String)} {grants : String → List Grant} {teamId : String}

theorem climb_without (steps : Nat) (seen : List String) (current : String) :
    climb parents (fun id => (grants id).filter (fun grant => grant.principal ≠ .team teamId)) steps seen current =
      (climb parents grants steps seen current).map (without teamId) := by
  induction steps generalizing seen current with
  | zero => rfl
  | succ steps ih =>
    unfold climb
    split
    · rfl
    · cases parents.lookup current with
      | none => rfl
      | some parent =>
        cases parent with
        | none => rfl
        | some above =>
          simp only []
          rw [ih,Option.map_map,Option.map_map]
          rfl

theorem chainTo_without (nodeId : String) :
    chainTo nodeId parents (fun id => (grants id).filter (fun grant => grant.principal ≠ .team teamId)) =
      (chainTo nodeId parents grants).map (without teamId) := by
  rw [chainTo,chainTo,climb_without,Option.map_map,Option.map_map]
  refine congrArg (fun change => Option.map change _) (funext (fun nodes => ?_))
  exact map_reverse.symm

def Climbs : String → List AclNode → Prop
  | _,[] => False
  | current,[node] => node.id = current ∧ node.parentId = none
  | current,node::next::rest => node.id = current ∧ node.parentId = some next.id ∧ Climbs next.id (next::rest)

theorem climb_climbs {steps : Nat} {seen : List String} {current : String} {nodes : List AclNode}
    (walked : climb parents grants steps seen current = some nodes) : Climbs current nodes := by
  induction steps generalizing seen current nodes with
  | zero => cases walked
  | succ steps ih =>
    unfold climb at walked
    split at walked
    · cases walked
    · cases found : parents.lookup current with
      | none =>
        rw [found] at walked
        cases walked
      | some parent =>
        rw [found] at walked
        cases parent with
        | none =>
          cases walked
          exact ⟨rfl,rfl⟩
        | some above =>
          obtain ⟨rest,climbed,rfl⟩ := Option.map_eq_some_iff.mp walked
          have more := ih climbed
          cases rest with
          | nil => exact more.elim
          | cons next later =>
            have named : next.id = above := by
              cases later with
              | nil => exact more.1
              | cons second others => exact more.1
            exact ⟨rfl,congrArg some named.symm,named ▸ more⟩

theorem Climbs.linked {current : String} {nodes : List AclNode} (climbs : Climbs current nodes) :
    assertChain nodes.reverse = .ok () ∧ nodes.reverse.getLast?.map AclNode.id = some current := by
  induction nodes generalizing current with
  | nil => exact climbs.elim
  | cons node rest ih =>
    cases rest with
    | nil =>
      refine ⟨assertChain_iff.mpr ⟨by simp,climbs.2,trivial⟩,?_⟩
      exact congrArg some climbs.1
    | cons next later =>
      obtain ⟨linked,last⟩ := ih climbs.2.2
      obtain ⟨-,descends⟩ := assertChain_iff.mp linked
      rw [reverse_cons]
      refine ⟨assertChain_iff.mpr ⟨by simp,descends_append.mpr ⟨descends,?_,trivial⟩⟩,?_⟩
      · rw [last]
        exact climbs.2.1
      · rw [getLast?_append_of_ne_nil _ (cons_ne_nil _ _)]
        exact congrArg some climbs.1

theorem chainTo_linked {nodeId : String} {chain : List AclNode} (found : chainTo nodeId parents grants = some chain) :
    assertChain chain = .ok () ∧ ∀ side, lastNodeId chain side = .ok nodeId := by
  obtain ⟨nodes,climbed,rfl⟩ := Option.map_eq_some_iff.mp found
  obtain ⟨linked,last⟩ := (climb_climbs climbed).linked
  refine ⟨linked,fun side => ?_⟩
  obtain ⟨target,same,named⟩ := Option.map_eq_some_iff.mp last
  rw [lastNodeId,same]
  exact congrArg Except.ok named

end Chains

section Price

variable {tables : Tables} {organizationId teamId : String} {affected : List String} {chains : List AclNode × List AclNode}

structure Paired (teamId : String) (chains : List AclNode × List AclNode) : Prop where
  without : chains.2 = without teamId chains.1
  before : assertChain chains.1 = .ok ()
  after : assertChain chains.2 = .ok ()
  ends : ∃ nodeId, ∀ side, lastNodeId chains.1 side = .ok nodeId ∧ lastNodeId chains.2 side = .ok nodeId

theorem paired_of_chainsOf {nodeId : String} (found : chainsOf tables organizationId teamId nodeId = some chains) :
    Paired teamId chains := by
  unfold chainsOf at found
  split at found <;> cases found
  next before after first second =>
    obtain ⟨beforeLinked,beforeEnds⟩ := chainTo_linked first
    obtain ⟨afterLinked,afterEnds⟩ := chainTo_linked second
    have same : some after = some (without teamId before) := by
      rw [← second]
      change chainTo nodeId _ (fun id => (grantsBefore tables organizationId teamId id).filter _) = _
      rw [chainTo_without,first]
      rfl
    exact ⟨Option.some.inj same,beforeLinked,afterLinked,nodeId,fun side => ⟨beforeEnds side,afterEnds side⟩⟩

theorem paired (member : chains ∈ pricedChains tables organizationId teamId) : Paired teamId chains := by
  obtain ⟨nodeId,-,found⟩ := mem_filterMap.mp (mem_of_mem_take member)
  exact paired_of_chainsOf found

theorem pricedChains_nil (untouched : shareIds tables organizationId teamId = []) :
    pricedChains tables organizationId teamId = [] := by
  have none' : nodeRows tables organizationId teamId = [] := by
    unfold nodeRows
    rw [untouched,filter_eq_nil_iff.mpr]
    · rfl
    · intro entry _
      simp
  unfold pricedChains nodeIds
  rw [untouched,none']
  rfl

def lossOf (tables : Tables) (organizationId teamId userId : String) (chain : List AclNode) : Delta :=
  deltaOf (subjectOf tables organizationId userId) (resolution chain (subjectOf tables organizationId userId)).effective
    (resolution chain (leaving teamId (subjectOf tables organizationId userId))).effective

def priceOf (tables : Tables) (organizationId teamId : String) (affected : List String) (chain : List AclNode)
    (nodeId : String) : FolderImpact where
  nodeId := nodeId
  gaining := byUserId (((affected.map (fun userId => lossOf tables organizationId teamId userId chain)).filter
    Delta.gained).map Delta.user)
  losing := byUserId (((affected.map (fun userId => lossOf tables organizationId teamId userId chain)).filter
    Delta.lost).map Delta.user)

theorem lossOf_gained (userId : String) (chain : List AclNode) :
    (lossOf tables organizationId teamId userId chain).gained = false := by
  refine any_eq_false.mpr (fun permission held => ?_)
  have before := leaving_subset chain (subjectOf tables organizationId userId) held
  simpa using before

theorem lossOf_lost (userId : String) (chain : List AclNode) :
    (lossOf tables organizationId teamId userId chain).lost = true ↔
      ¬(resolution chain (subjectOf tables organizationId userId)).effective ⊆
        (resolution chain (leaving teamId (subjectOf tables organizationId userId))).effective := by
  change List.any _ _ = true ↔ _
  rw [any_eq_true]
  constructor
  · rintro ⟨permission,held,lost⟩ kept
    simp [kept held] at lost
  · intro lost
    by_contra none'
    refine lost (fun permission held => ?_)
    by_contra absent
    exact none' ⟨permission,held,by simpa using absent⟩

def targetOf (chain : List AclNode) : String := (chain.getLast?.map AclNode.id).getD ""

theorem targetOf_last {chain : List AclNode} {side nodeId : String} (ends : lastNodeId chain side = .ok nodeId) :
    targetOf chain = nodeId := by
  unfold lastNodeId at ends
  unfold targetOf
  cases last : chain.getLast? with
  | none =>
    rw [last] at ends
    cases ends
  | some target =>
    rw [last] at ends
    exact Except.ok.inj ends

theorem resolveImpact_paired (paired : Paired teamId chains) :
    resolveImpact chains.1 chains.2 (affected.map (subjectOf tables organizationId)) =
      .ok (priceOf tables organizationId teamId affected chains.1 (targetOf chains.1)) := by
  obtain ⟨nodeId,ends⟩ := paired.ends
  rw [targetOf_last (ends "before").1,
    resolveImpact_linked paired.before paired.after (ends "before").1 (ends "after").2,map_map,paired.without]
  simp only [Function.comp_def,resolution_without]
  rfl

theorem priceOf_gaining (chain : List AclNode) (nodeId : String) :
    (priceOf tables organizationId teamId affected chain nodeId).gaining = [] := by
  have none' : (affected.map (fun userId => lossOf tables organizationId teamId userId chain)).filter Delta.gained = [] := by
    refine filter_eq_nil_iff.mpr (fun delta member => ?_)
    obtain ⟨userId,-,rfl⟩ := mem_map.mp member
    rw [lossOf_gained]
    exact Bool.false_ne_true
  change byUserId _ = []
  rw [none']
  exact mergeSort_nil

theorem priceOf_losing {chain : List AclNode} {nodeId userId : String} :
    userId ∈ (priceOf tables organizationId teamId affected chain nodeId).losing.map UserImpact.userId ↔
      userId ∈ affected ∧ ¬(resolution chain (subjectOf tables organizationId userId)).effective ⊆
        (resolution chain (leaving teamId (subjectOf tables organizationId userId))).effective := by
  change userId ∈ (byUserId _).map UserImpact.userId ↔ _
  rw [(ids_byUserId _).mem_iff,map_map]
  constructor
  · intro member
    obtain ⟨delta,kept,rfl⟩ := mem_map.mp member
    obtain ⟨inside,lost⟩ := mem_filter.mp kept
    obtain ⟨user,asked,rfl⟩ := mem_map.mp inside
    exact ⟨asked,(lossOf_lost user chain).mp lost⟩
  · rintro ⟨asked,lost⟩
    exact mem_map.mpr ⟨lossOf tables organizationId teamId userId chain,
      mem_filter.mpr ⟨mem_map.mpr ⟨userId,asked,rfl⟩,(lossOf_lost userId chain).mpr lost⟩,rfl⟩

def rankedOf (tables : Tables) (organizationId teamId : String) (affected : List String) : List (Nat × FolderImpact) :=
  (pricedChains tables organizationId teamId).map (fun chains =>
    (chains.1.length,priceOf tables organizationId teamId affected chains.1 (targetOf chains.1)))

theorem mapM_ranked : (pricedChains tables organizationId teamId).mapM (fun chains =>
    (resolveImpact chains.1 chains.2 (affected.map (subjectOf tables organizationId))).map
      (fun impact => (chains.1.length,impact))) = .ok (rankedOf tables organizationId teamId affected) := by
  refine mapM_ok _ (fun chains member => ?_)
  rw [resolveImpact_paired (paired member)]
  rfl

theorem mem_byDepth {ranked : List (Nat × FolderImpact)} {folder : FolderImpact} :
    folder ∈ (byDepth ranked).map Prod.snd ↔ ∃ depth, (depth,folder) ∈ ranked := by
  have same := (mergeSort_perm ranked (fun first second => decide (first.1 ≤ second.1))).map Prod.snd
  rw [show byDepth ranked = ranked.mergeSort _ from rfl,same.mem_iff]
  constructor
  · intro member
    obtain ⟨entry,inside,rfl⟩ := mem_map.mp member
    exact ⟨entry.1,inside⟩
  · rintro ⟨depth,inside⟩
    exact mem_map.mpr ⟨_,inside,rfl⟩

theorem impact_named (tables : Tables) (organizationId teamId : String) (affected : List String) : ∃ impact,
    impactOfDroppingTeamGrants tables organizationId teamId affected = .ok impact ∧ impact.summary.usersGaining = [] ∧
    ∀ userId, userId ∈ impact.summary.usersLosing.map AffectedUserView.userId ↔ userId ∈ affected ∧
      ∃ chains ∈ pricedChains tables organizationId teamId,
        ¬(resolution chains.1 (subjectOf tables organizationId userId)).effective ⊆
          (resolution chains.1 (leaving teamId (subjectOf tables organizationId userId))).effective := by
  unfold impactOfDroppingTeamGrants
  by_cases nothing : affected = [] ∨ shareIds tables organizationId teamId = []
  · rw [if_pos nothing]
    refine ⟨_,rfl,rfl,fun userId => ⟨nofun,?_⟩⟩
    rintro ⟨asked,chains,member,-⟩
    rcases nothing with rfl | untouched
    · cases asked
    · rw [pricedChains_nil untouched] at member
      cases member
  · rw [if_neg nothing]
    dsimp only
    rw [mapM_ranked]
    refine ⟨_,rfl,?_,fun userId => ?_⟩
    all_goals
      dsimp only
      rw [aggregateImpact_eq]
    · refine map_eq_nil_iff.mpr (eq_nil_iff_forall_not_mem.mpr (fun user member => ?_))
      obtain ⟨folder,inside,gains⟩ := ids_rollUp.mp (mem_map_of_mem member)
      obtain ⟨depth,ranked⟩ := mem_byDepth.mp inside
      obtain ⟨chains,-,same⟩ := mem_map.mp ranked
      cases same
      rw [priceOf_gaining] at gains
      cases gains
    · rw [map_map]
      change userId ∈ (rollUp FolderImpact.losing _).map UserImpact.userId ↔ _
      rw [ids_rollUp]
      constructor
      · rintro ⟨folder,inside,loses⟩
        obtain ⟨depth,ranked⟩ := mem_byDepth.mp inside
        obtain ⟨chains,priced,same⟩ := mem_map.mp ranked
        cases same
        rw [priceOf_losing] at loses
        exact ⟨loses.1,chains,priced,loses.2⟩
      · rintro ⟨asked,chains,priced,loses⟩
        exact ⟨_,mem_byDepth.mpr ⟨_,mem_map.mpr ⟨chains,priced,rfl⟩⟩,priceOf_losing.mpr ⟨asked,loses⟩⟩

end Price

section Removed

variable {everyone : String → Bool} {tables : Tables} {organizationId : String} {dryRun : Bool} {removal : Removal}
  {done : Removed}

theorem teamIdsOf_dropMember {teamId userId : String} :
    teamIdsOf (dropMember tables organizationId teamId userId) organizationId userId =
      (teamIdsOf tables organizationId userId).filter (fun team => team ≠ teamId) := by
  unfold teamIdsOf dropMember
  rw [filter_map,filter_filter,filter_filter]
  refine congrArg (List.map TeamMember.teamId) (filter_congr (fun member _ => ?_))
  by_cases own : member.organizationId = organizationId ∧ member.userId = userId
  · simp [own]
  · simp [own]

theorem teamIdsOf_dropTeam {teamId : String} (userId : String) :
    teamIdsOf (dropTeam tables organizationId teamId) organizationId userId =
      (teamIdsOf tables organizationId userId).filter (fun team => team ≠ teamId) := by
  unfold teamIdsOf dropTeam
  rw [filter_map,filter_filter,filter_filter]
  refine congrArg (List.map TeamMember.teamId) (filter_congr (fun member _ => ?_))
  by_cases own : member.organizationId = organizationId ∧ member.userId = userId
  · simp [own]
  · simp [own]

theorem subjectOf_drop {userId : String} (asked : userId ∈ removal.affected tables organizationId) :
    subjectOf (removal.drop tables organizationId) organizationId userId =
      leaving removal.teamId (subjectOf tables organizationId userId) := by
  cases removal with
  | remove teamId => exact congrArg (Subject.mk userId) (teamIdsOf_dropTeam userId)
  | removeMember teamId member =>
    cases mem_singleton.mp asked
    exact congrArg (Subject.mk userId) teamIdsOf_dropMember

theorem run_ok (ran : removal.run everyone tables organizationId dryRun = .ok done) :
    impactOfDroppingTeamGrants tables organizationId removal.teamId (removal.affected tables organizationId) =
      .ok done.impact ∧ (done.changed = true → done.tables = removal.drop tables organizationId) := by
  obtain ⟨impact,priced,-⟩ := impact_named tables organizationId removal.teamId (removal.affected tables organizationId)
  unfold Removal.run at ran
  cases passed : removal.refused everyone tables organizationId with
  | error refusal =>
    rw [passed] at ran
    cases ran
  | ok _ =>
    rw [passed,priced] at ran
    cases dryRun with
    | true =>
      cases ran
      exact ⟨priced,nofun⟩
    | false =>
      cases ran
      exact ⟨priced,fun _ => rfl⟩

/-- A removal's price is faithful just when no administrator among the affected holds something
through the team alone; the resolver has no part in it. -/
theorem preview_faithful (ran : removal.run everyone tables organizationId dryRun = .ok done) :
    Faithful tables organizationId removal done ↔ AdministratorsUnmoved tables organizationId removal := by
  obtain ⟨priced,dropped⟩ := run_ok ran
  obtain ⟨impact,same,gains,named⟩ :=
    impact_named tables organizationId removal.teamId (removal.affected tables organizationId)
  rw [priced] at same
  cases same
  constructor
  · rintro faithful userId asked ⟨user,stored,rfl,administrator⟩ chains member
    by_contra loses
    obtain ⟨loser,listed,id⟩ := mem_map.mp ((named user.id).mpr ⟨asked,chains,member,loses⟩)
    have plain := faithful.administrators loser listed user stored id.symm
    rw [administrator] at plain
    cases plain
  · intro unmoved
    refine ⟨fun chain userId => resolve_without chain _,fun chain userId => leaving_subset chain _,
      fun chains member => (paired member).without,fun changed userId asked => ?_,gains,?_⟩
    · rw [dropped changed]
      exact subjectOf_drop asked
    · intro loser listed user stored id
      obtain ⟨asked,chains,member,loses⟩ := (named loser.userId).mp (mem_map_of_mem listed)
      by_contra administrator
      exact loses (unmoved loser.userId asked ⟨user,stored,id,by simpa using administrator⟩ chains member)

theorem runs (passed : removal.refused everyone tables organizationId = .ok ()) (dryRun : Bool) :
    ∃ done, removal.run everyone tables organizationId dryRun = .ok done := by
  obtain ⟨impact,priced,-⟩ := impact_named tables organizationId removal.teamId (removal.affected tables organizationId)
  unfold Removal.run
  rw [passed,priced]
  cases dryRun with
  | true => exact ⟨_,rfl⟩
  | false => exact ⟨_,rfl⟩

def atelier : Tables where
  shares := [⟨"s","o","Plans"⟩]
  entries := []
  grants := [⟨"o","s",none,none,some "t",["list"]⟩]
  keyed := by decide
  apart := by decide
  referenced := by decide
  users := [⟨"a","o","ayla",true⟩,⟨"u","o","umut",false⟩]
  teams := [⟨"t","o"⟩]
  members := [⟨"o","t","a"⟩,⟨"o","t","u"⟩]
  usersKeyed := by decide
  unique := by decide

theorem preview_faithful_member : ∃ done,
    (Removal.removeMember "t" "u").run (fun _ => false) atelier "o" false = .ok done ∧
      Faithful atelier "o" (.removeMember "t" "u") done := by
  obtain ⟨done,ran⟩ := @runs (fun _ => false) atelier "o" (.removeMember "t" "u") rfl false
  refine ⟨done,ran,(preview_faithful ran).mpr ?_⟩
  intro userId asked ⟨user,stored,id,administrator⟩
  cases mem_singleton.mp asked
  rcases mem_pair.mp stored with rfl | rfl
  · exact absurd id (by decide)
  · cases administrator

/-- The administrator is reported to lose what an administrator never needed. -/
theorem administrator_reported : ¬∀ (everyone : String → Bool) (tables : Tables) (organizationId : String) (dryRun : Bool)
    (removal : Removal) (done : Removed), removal.run everyone tables organizationId dryRun = .ok done →
      Faithful tables organizationId removal done := by
  intro faithful
  obtain ⟨done,ran⟩ := @runs (fun _ => false) atelier "o" (.removeMember "t" "a") rfl true
  obtain ⟨impact,priced,-,named⟩ := impact_named atelier "o" "t" ["a"]
  have same := (run_ok ran).1
  change impactOfDroppingTeamGrants atelier "o" "t" ["a"] = _ at same
  rw [priced] at same
  cases same
  have root : ([⟨"s",none,[⟨.team "t",[.list]⟩]⟩],[⟨"s",none,[]⟩]) ∈ pricedChains atelier "o" "t" := by decide +kernel
  obtain ⟨loser,listed,id⟩ := mem_map.mp ((named "a").mpr ⟨mem_singleton.mpr rfl,_,root,by decide +kernel⟩)
  have plain := (faithful _ _ _ _ _ done ran).administrators loser listed ⟨"a","o","ayla",true⟩ (by decide) id.symm
  cases plain

end Removed

end Depsis.Teams

import Depsis.Permissions.Reports
import Depsis.Permissions.Scope

/-! The permission dry run is exact: the numbers a preview answers with are those
of the tables before and after the write, and nothing moves outside the subtree.
-/
namespace Depsis.Permissions

open Depsis.Authz Depsis.Files Depsis.Foundation List Bool

section Writing

private theorem bind_ok {Source Target : Type} {first : Except Refusal Source} {next : Source → Except Refusal Target}
    {answer : Target} (done : first >>= next = .ok answer) : ∃ value, first = .ok value ∧ next value = .ok answer := by
  cases first with
  | error => cases done
  | ok value => exact ⟨value,rfl,done⟩

structure SameTree (first second : Tables) : Prop where
  shares : first.shares = second.shares
  entries : first.entries = second.entries
  users : first.users = second.users
  members : first.members = second.members

variable {tables : Tables} {organizationId : String} {actor : Actor} {ref : NodeRef} {proposed : List GrantInput}

private theorem insertGrant_ok {row : GrantRow} {after : Tables} (done : insertGrant tables row = .ok after) :
    SameTree after tables ∧ after.grants = tables.grants ++ [row] := by
  unfold insertGrant at done
  split at done
  next => cases done
  next =>
    split at done
    next => cases done
    next =>
      split at done
      next => cases done
      next =>
        split at done <;> cases done
        exact ⟨⟨rfl,rfl,rfl,rfl⟩,rfl⟩

private theorem insertGrants_ok {rows : List GrantRow} {after : Tables}
    (done : rows.foldlM insertGrant tables = .ok after) :
    SameTree after tables ∧ after.grants = tables.grants ++ rows := by
  induction rows generalizing tables with
  | nil => cases done; exact ⟨⟨rfl,rfl,rfl,rfl⟩,(append_nil _).symm⟩
  | cons row rest ih =>
    rw [foldlM_cons] at done
    obtain ⟨next,first,later⟩ := bind_ok done
    obtain ⟨here,grants⟩ := insertGrant_ok first
    obtain ⟨same,more⟩ := ih later
    refine ⟨⟨same.shares.trans here.shares,same.entries.trans here.entries,same.users.trans here.users,
      same.members.trans here.members⟩,?_⟩
    rw [more,grants,append_assoc]
    rfl

theorem replaceGrants_ok {target : Target} {after : Tables}
    (done : replaceGrants tables organizationId target proposed = .ok after) :
    SameTree after tables ∧ after.grants = tables.grants.filter (fun row => !onNode organizationId target row) ++
      proposed.map (rowOfInput organizationId target) := by
  obtain ⟨same,grants⟩ := insertGrants_ok done
  exact ⟨⟨same.shares,same.entries,same.users,same.members⟩,grants⟩

private theorem read_names (permissions : List Permission) :
    readPermissions (permissions.map Permission.name) = .ok permissions := by
  induction permissions with
  | nil => rfl
  | cons permission rest ih =>
    unfold readPermissions at ih ⊢
    rw [map_cons,mapM_cons,asPermission_name,ih]
    rfl

theorem readGrant_rowOfInput (target : Target) (input : GrantInput) :
    readGrant (rowOfInput organizationId target input) = .ok (grantOfInput input) := by
  change (readPermissions (input.permissions.map Permission.name)).map _ = _
  rw [read_names]
  rfl

private theorem nodeOf_rowOfInput (target : Target) (input : GrantInput) :
    nodeOf target.shareId (rowOfInput organizationId target input) = target.nodeKey := rfl

theorem shareGrants_after {target : Target} {after : Tables}
    (done : replaceGrants tables organizationId target proposed = .ok after) :
    shareGrants after.grants organizationId target.shareId =
      Function.update (shareGrants tables.grants organizationId target.shareId) target.nodeKey
        (proposed.map grantOfInput) := by
  obtain ⟨_,grants⟩ := replaceGrants_ok done
  funext node
  have added : ((proposed.map (rowOfInput organizationId target)).filter
      (fun row => row.organizationId = organizationId ∧ row.shareId = target.shareId)) =
        proposed.map (rowOfInput organizationId target) := by
    refine filter_eq_self.mpr (fun row member => ?_)
    obtain ⟨input,_,rfl⟩ := mem_map.mp member
    simp [rowOfInput]
  simp only [shareGrants,grantsOn,grants,filter_append,filterMap_append,added]
  by_cases here : node = target.nodeKey
  · subst here
    rw [Function.update_self]
    have cleared : ((tables.grants.filter (fun row => !onNode organizationId target row)).filter
        (fun row => row.organizationId = organizationId ∧ row.shareId = target.shareId)).filter
          (fun row => nodeOf target.shareId row = target.nodeKey) = [] := by
      rw [filter_filter,filter_filter,filter_eq_nil_iff]
      intro row _ test
      simp only [onNode,and_eq_true,decide_eq_true_eq,not_eq_true'] at test
      obtain ⟨⟨on,owner⟩,other⟩ := test
      simp [on,owner] at other
    have kept : (proposed.map (rowOfInput organizationId target)).filter
        (fun row => nodeOf target.shareId row = target.nodeKey) = proposed.map (rowOfInput organizationId target) := by
      refine filter_eq_self.mpr (fun row member => ?_)
      obtain ⟨input,_,rfl⟩ := mem_map.mp member
      simp [nodeOf_rowOfInput]
    rw [cleared,kept,filterMap_nil,nil_append,filterMap_map]
    have reads : ((fun row => (readGrant row).toOption) ∘ rowOfInput organizationId target) =
        fun input => some (grantOfInput input) := by
      funext input
      simp only [Function.comp_apply,readGrant_rowOfInput]
      rfl
    rw [reads,filterMap_eq_map']
  · rw [Function.update_of_ne here]
    have dropped : (proposed.map (rowOfInput organizationId target)).filter
        (fun row => nodeOf target.shareId row = node) = [] := by
      refine filter_eq_nil_iff.mpr (fun row member => ?_)
      obtain ⟨input,_,rfl⟩ := mem_map.mp member
      simp [nodeOf_rowOfInput,Ne.symm here]
    rw [dropped,filterMap_nil,append_nil]
    refine congrArg _ ?_
    rw [filter_filter,filter_filter,filter_filter]
    refine filter_congr (fun row _ => ?_)
    rw [Bool.eq_iff_iff]
    simp only [and_eq_true,decide_eq_true_eq,onNode,not_eq_true']
    constructor
    · rintro ⟨⟨on,owner⟩,_⟩
      exact ⟨on,owner⟩
    · rintro ⟨on,owner⟩
      refine ⟨⟨on,owner⟩,?_⟩
      simp [on,here]

theorem write_ok {result : WriteResult} (done : write tables organizationId actor ref proposed false = .ok result) :
    ∃ target ancestors subtree before,
      locate tables organizationId ref = .ok target ∧
      ancestorRows tables organizationId target = .ok ancestors ∧
      subtreeRows tables organizationId target = .ok subtree ∧
      groupGrants (grantRows tables.grants organizationId target.shareId
        (ancestors.map NodeRow.id ++ subtree.nodes.map NodeRow.id)) target.shareId = .ok before ∧
      impactOf ⟨target.shareId,target.nodeKey,ancestors,subtree,before,
        Function.update before target.nodeKey (proposed.map grantOfInput),
        impactSubjects tables organizationId,usernameOf tables organizationId⟩ = .ok result.impact ∧
      replaceGrants tables organizationId target proposed = .ok result.tables ∧ result.changed = true ∧
      write tables organizationId actor ref proposed true = .ok ⟨result.impact,false,tables⟩ := by
  obtain ⟨⟨target,impact⟩,previewed,done⟩ := bind_ok done
  obtain ⟨after,replaced,done⟩ := @bind_ok _ _ (replaceGrants tables organizationId target proposed) _ _ done
  cases done
  have dry : write tables organizationId actor ref proposed true = .ok ⟨impact,false,tables⟩ := by
    rw [write,previewed]
    rfl
  obtain ⟨target',located,previewed⟩ := bind_ok previewed
  obtain ⟨_,_,previewed⟩ := bind_ok previewed
  obtain ⟨ancestors,climbed,previewed⟩ := bind_ok previewed
  obtain ⟨subtree,walked,previewed⟩ := bind_ok previewed
  obtain ⟨before,grouped,previewed⟩ := bind_ok previewed
  obtain ⟨_,_,previewed⟩ := bind_ok previewed
  obtain ⟨_,_,previewed⟩ := bind_ok previewed
  obtain ⟨_,_,previewed⟩ := bind_ok previewed
  obtain ⟨impact',counted,previewed⟩ := bind_ok previewed
  cases previewed
  refine ⟨target,ancestors,subtree,before,located,climbed,walked,grouped,?_,replaced,rfl,dry⟩
  cases numbers : impactOf ⟨target.shareId,target.nodeKey,ancestors,subtree,before,
      Function.update before target.nodeKey (proposed.map grantOfInput),
      impactSubjects tables organizationId,usernameOf tables organizationId⟩ with
  | error => rw [numbers] at counted; cases counted
  | ok view => rw [numbers] at counted; cases counted; rfl

theorem write_accepts {target : Target} {ancestors : List NodeRow} {subtree : Subtree} {before : String → List Grant}
    {impact : ImpactView} {after : Tables} (located : locate tables organizationId ref = .ok target)
    (folder : target.isFolder = true) (climbed : ancestorRows tables organizationId target = .ok ancestors)
    (walked : subtreeRows tables organizationId target = .ok subtree)
    (grouped : groupGrants (grantRows tables.grants organizationId target.shareId
      (ancestors.map NodeRow.id ++ subtree.nodes.map NodeRow.id)) target.shareId = .ok before)
    (manageable : assertManageable tables organizationId actor ref
      (buildChain target.shareId ancestors before) = .ok ())
    (exist : assertPrincipalsExist tables organizationId proposed = .ok ()) (some : proposed ≠ [])
    (numbers : impactOf ⟨target.shareId,target.nodeKey,ancestors,subtree,before,
      Function.update before target.nodeKey (proposed.map grantOfInput),
      impactSubjects tables organizationId,usernameOf tables organizationId⟩ = .ok impact)
    (done : replaceGrants tables organizationId target proposed = .ok after) :
    write tables organizationId actor ref proposed false = .ok ⟨impact,true,after⟩ := by
  have kept : refuse (grantsElsewhere tables.grants organizationId target.shareId target.nodeKey = 0 &&
      proposed.isEmpty) .lastGrant = .ok () := by
    cases proposed with
    | nil => exact absurd rfl some
    | cons => simp [refuse]
  have onFolder : refuse (!target.isFolder) .notAFolder = .ok () := by simp [refuse,folder]
  rw [write,preview,located]
  simp only [bind,Except.bind,onFolder,climbed,walked,grouped,manageable,exist,kept,numbers,resolved,Except.mapError]
  simp only [pure,Except.pure,done]
  rfl

end Writing

def Holds (tables : Tables) (organizationId : String) (ref : NodeRef) (subject : Subject) (permission : Permission) :
    Prop :=
  ∃ resolution, resolveAt tables organizationId ref subject = .ok resolution ∧ permission ∈ resolution.effective

section Loaded

variable {tables : Tables} {organizationId : String} {target : Target} {ancestors : List NodeRow} {subtree : Subtree}
  {before : String → List Grant}

structure Loaded (tables : Tables) (organizationId : String) (target : Target) (ancestors : List NodeRow)
    (subtree : Subtree) (before : String → List Grant) : Prop where
  trees : ShareTree tables organizationId
  located : Located tables organizationId target
  climbed : ancestors = (rowsUp tables organizationId target.nodeKey).reverse
  nodes : subtree.nodes = (liveRows tables organizationId target).map (fun row => ⟨row.id,row.parentId⟩)
  whole : subtree.truncated = false
  grouped : groupGrants (grantRows tables.grants organizationId target.shareId
    (ancestors.map NodeRow.id ++ subtree.nodes.map NodeRow.id)) target.shareId = .ok before

theorem ancestors_rowsUp (located : Located tables organizationId target)
    (climbed : ancestorRows tables organizationId target = .ok ancestors) :
    ancestors = (rowsUp tables organizationId target.nodeKey).reverse := by
  obtain ⟨shareId,entryId,isFolder⟩ := target
  cases entryId with
  | none =>
    cases climbed
    rw [Target.nodeKey,Option.getD_none,rowsUp_share located.shared]
    rfl
  | some id =>
    obtain ⟨entry,depth,room,placed,rfl⟩ := located.hung id rfl
    rw [ancestorRows_placed located.shared placed room] at climbed
    cases climbed
    rfl

theorem subtree_whole (walked : subtreeRows tables organizationId target = .ok subtree)
    (few : (liveRows tables organizationId target).length ≤ IMPACT_FOLDER_LIMIT) :
    subtree.nodes = (liveRows tables organizationId target).map (fun row => ⟨row.id,row.parentId⟩) ∧
      subtree.truncated = false := by
  simp only [subtreeRows] at walked
  split at walked <;> cases walked
  rw [take_of_length_le few]
  exact ⟨rfl,decide_eq_false (by omega)⟩

variable (loaded : Loaded tables organizationId target ancestors subtree before)

include loaded

theorem Loaded.stored : ∀ row ∈ ancestors ++ subtree.nodes, ∃ entry ∈ tables.entries, entry.id = row.id ∧
    entry.parentId = row.parentId := by
  intro row member
  rcases mem_append.mp member with above | below
  · rw [loaded.climbed] at above
    exact ups_stored (mem_reverse.mp above)
  · rw [loaded.nodes] at below
    obtain ⟨upper,listed,rfl⟩ := mem_map.mp below
    obtain ⟨depth,_,level⟩ := Descent.mem_walk.mp listed
    obtain ⟨entry,reached,id,parent⟩ := Descent.level_sound level
    exact ⟨entry,reached.stored,id.symm,parent.symm⟩

theorem Loaded.above {id upper : String} {rank : Nat} (inside : Scope tables organizationId target id rank)
    (climbs : Relation.ReflTransGen (Under tables.entries target.shareId) id upper) :
    upper = target.shareId ∨ upper ∈ (ancestors ++ subtree.nodes).map NodeRow.id := by
  rcases scope_above loaded.located inside climbs with root | own | ⟨entry,depth,reached,rfl⟩
  · exact .inl root
  · refine .inr ?_
    rw [map_append,loaded.climbed,map_reverse]
    exact mem_append_left _ (mem_reverse.mpr own)
  · refine .inr ?_
    have listed := (mem_ranked loaded.trees loaded.located).mpr (.inr ⟨entry,depth,reached,rfl,rfl⟩)
    rcases mem_cons.mp listed with same | below
    · exact absurd (congrArg Prod.snd same) (Nat.succ_ne_zero depth)
    · obtain ⟨row,kept,same⟩ := mem_map.mp below
      rw [map_append,loaded.nodes,map_map]
      exact mem_append_right _ (mem_map.mpr ⟨row,kept,congrArg Prod.fst same⟩)

theorem Loaded.before_eq {upper : String}
    (known : upper = target.shareId ∨ upper ∈ (ancestors ++ subtree.nodes).map NodeRow.id) :
    before upper = shareGrants tables.grants organizationId target.shareId upper := by
  have grouped := loaded.grouped
  rw [groupGrants_ok (groupGrants_readable grouped)] at grouped
  cases grouped
  exact grantsOn_grantRows loaded.located.shared (by rwa [map_append] at known)

theorem Loaded.chain {id : String} {rank : Nat} (inside : Scope tables organizationId target id rank)
    (grants : String → List Grant) : chainTo id (parentTable target.shareId ancestors subtree.nodes) grants =
      .ok (buildChain target.shareId (rowsUp tables organizationId id).reverse grants) :=
  chainTo_eq loaded.stored loaded.located.shared (scope_inShare loaded.trees loaded.located inside)
    (fun _ climbs => loaded.above inside climbs) grants

end Loaded

def chainSet (tables : Tables) (organizationId shareId : String) (grants : String → List Grant) (id : String)
    (subject : Subject) : List Permission :=
  (resolution (buildChain shareId (rowsUp tables organizationId id).reverse grants) subject).effective

theorem mem_chainSet {tables : Tables} {organizationId shareId id : String} (shared : Shared tables shareId)
    (inside : InShare tables organizationId shareId id) {grants : String → List Grant} {subject : Subject}
    {permission : Permission} : permission ∈ chainSet tables organizationId shareId grants id subject ↔
      Entitled (Under tables.entries shareId) grants id subject permission := by
  obtain ⟨first,rest,split,rfl,climbed⟩ := rowsUp_climbed shared inside grants
  rw [chainSet,buildChain_reverse,split]
  exact climbed.effective (under_forest tables.keyed)

def folderOf (subjects : List Subject) (had has : String → Subject → List Permission) (id : String) : FolderImpact :=
  { nodeId := id
    gaining := byUserId (((subjects.map (fun subject =>
      deltaOf subject (had id subject) (has id subject))).filter Delta.gained).map Delta.user)
    losing := byUserId (((subjects.map (fun subject =>
      deltaOf subject (had id subject) (has id subject))).filter Delta.lost).map Delta.user) }

private theorem eraseDups_nodup {items : List String} (distinct : items.Nodup) : items.eraseDups = items := by
  induction items with
  | nil => rfl
  | cons item rest ih =>
    obtain ⟨apart,distinct⟩ := nodup_cons.mp distinct
    rw [eraseDups_cons,filter_eq_self.mpr (fun other member => ?_),ih distinct]
    simpa using fun same : other = item => apart (same ▸ member)

theorem impactOf_eq {tables : Tables} {organizationId : String} {target : Target} {ancestors : List NodeRow}
    {subtree : Subtree} {before after : String → List Grant} {subjects : List Subject} {username : String → String}
    (loaded : Loaded tables organizationId target ancestors subtree before) :
    impactOf ⟨target.shareId,target.nodeKey,ancestors,subtree,before,after,subjects,username⟩ =
      .ok (let folders := (ranked tables organizationId target).map (fun entry => folderOf subjects
          (chainSet tables organizationId target.shareId before) (chainSet tables organizationId target.shareId after) entry.1)
        { foldersAffected := folders.countP FolderImpact.affected
          usersGaining := (rollUp FolderImpact.gaining folders).map (viewOf username)
          usersLosing := (rollUp FolderImpact.losing folders).map (viewOf username) }) := by
  have ids : target.nodeKey::subtree.nodes.map NodeRow.id = (ranked tables organizationId target).map Prod.fst := by
    rw [loaded.nodes]
    simp [ranked,Function.comp_def]
  have targets : impactTargets ⟨target.shareId,target.nodeKey,ancestors,subtree,before,after,subjects,username⟩ =
      (ranked tables organizationId target).map Prod.fst := by
    rw [impactTargets,ids]
    exact eraseDups_nodup (ranked_nodup loaded.trees loaded.located)
  have each : ((ranked tables organizationId target).map Prod.fst).mapM
      (folderImpact ⟨target.shareId,target.nodeKey,ancestors,subtree,before,after,subjects,username⟩) =
        .ok (((ranked tables organizationId target).map Prod.fst).map (folderOf subjects
          (chainSet tables organizationId target.shareId before) (chainSet tables organizationId target.shareId after))) := by
    refine mapM_ok _ (fun id member => ?_)
    obtain ⟨⟨_,rank⟩,listed,rfl⟩ := mem_map.mp member
    have inside := (mem_ranked loaded.trees loaded.located).mp listed
    have place := scope_inShare loaded.trees loaded.located inside
    obtain ⟨first,rest,split,same,climbed⟩ := rowsUp_climbed loaded.located.shared place before
    obtain ⟨first',rest',split',same',climbed'⟩ := rowsUp_climbed loaded.located.shared place after
    simp only [folderImpact,loaded.chain inside,bind,Except.bind]
    rw [resolveImpact_linked (by rw [buildChain_reverse,split]; exact climbed.assertChain_reverse)
      (by rw [buildChain_reverse,split']; exact climbed'.assertChain_reverse)
      (by rw [buildChain_reverse,split]; exact Climbed.ends "before")
      (by rw [buildChain_reverse,split',same,← same']; exact Climbed.ends "after"),same]
    rfl
  rw [impactOf,targets,each,map_map]
  simp only [Except.map,aggregateImpact_eq,loaded.whole]
  rfl

section Reading

variable {tables after : Tables} {organizationId : String} {target : Target} {ancestors : List NodeRow}
  {subtree : Subtree} {before : String → List Grant} {proposed : List GrantInput}

private theorem holds_iff {shareId id : String} (shared : Shared tables shareId)
    (owned : id = shareId → ∃ share ∈ tables.shares, share.organizationId = organizationId ∧ share.id = shareId)
    (inside : InShare tables organizationId shareId id)
    (readable : ∀ row ∈ grantRows tables.grants organizationId shareId ((rowsUp tables organizationId id).map NodeRow.id),
      Readable row) (subject : Subject) :
    (∃ resolution, resolveAt tables organizationId (refOf shareId id) subject = .ok resolution) ∧
      ∀ permission, Holds tables organizationId (refOf shareId id) subject permission ↔
        Entitled (Under tables.entries shareId) (shareGrants tables.grants organizationId shareId) id subject permission := by
  obtain ⟨resolution,answer,effective⟩ := resolveAt_node shared owned inside readable subject
  refine ⟨⟨resolution,answer⟩,fun permission => ?_⟩
  rw [← effective]
  constructor
  · rintro ⟨other,again,given⟩
    rw [answer] at again
    cases again
    exact given
  · exact fun given => ⟨resolution,answer,given⟩

variable (loaded : Loaded tables organizationId target ancestors subtree before)

include loaded

private theorem rowsUp_loaded {id upper : String} {rank : Nat} (inside : Scope tables organizationId target id rank)
    (member : upper ∈ (rowsUp tables organizationId id).map NodeRow.id) :
    upper ∈ ancestors.map NodeRow.id ++ subtree.nodes.map NodeRow.id := by
  obtain ⟨row,listed,rfl⟩ := mem_map.mp member
  have climbs := (mem_rowsUp loaded.located.shared (scope_inShare loaded.trees loaded.located inside)).mpr (.inl member)
  rcases loaded.above inside climbs with root | known
  · obtain ⟨entry,stored,same,_⟩ := ups_stored listed
    obtain ⟨share,held,shareId⟩ := loaded.located.shared
    exact absurd (same.trans (root.trans shareId.symm)) (tables.apart share held entry stored)
  · rwa [map_append] at known

theorem Loaded.holds_before {id : String} {rank : Nat} (inside : Scope tables organizationId target id rank)
    (subject : Subject) :
    (∃ resolution, resolveAt tables organizationId (refOf target.shareId id) subject = .ok resolution) ∧
      ∀ permission, Holds tables organizationId (refOf target.shareId id) subject permission ↔
        permission ∈ chainSet tables organizationId target.shareId before id subject := by
  have place := scope_inShare loaded.trees loaded.located inside
  obtain ⟨answered,holds⟩ := holds_iff loaded.located.shared (scope_owned loaded.located inside) place
    (readable_of_more (fun _ member => rowsUp_loaded loaded inside member) (groupGrants_readable loaded.grouped)) subject
  refine ⟨answered,fun permission => (holds permission).trans ?_⟩
  rw [mem_chainSet loaded.located.shared place]
  exact Entitled.congr (fun upper climbs => (loaded.before_eq (loaded.above inside climbs)).symm)

theorem Loaded.holds_after (done : replaceGrants tables organizationId target proposed = .ok after) {id : String}
    {rank : Nat} (inside : Scope tables organizationId target id rank) (subject : Subject) :
    (∃ resolution, resolveAt after organizationId (refOf target.shareId id) subject = .ok resolution) ∧
      ∀ permission, Holds after organizationId (refOf target.shareId id) subject permission ↔
        permission ∈ chainSet tables organizationId target.shareId
          (Function.update before target.nodeKey (proposed.map grantOfInput)) id subject := by
  obtain ⟨same,grants⟩ := replaceGrants_ok done
  have place := scope_inShare loaded.trees loaded.located inside
  have shared : Shared after target.shareId := by
    unfold Shared
    rw [same.shares]
    exact loaded.located.shared
  have there : InShare after organizationId target.shareId id := by
    unfold InShare
    rw [same.entries]
    exact place
  have readable : ∀ row ∈ grantRows after.grants organizationId target.shareId
      (ancestors.map NodeRow.id ++ subtree.nodes.map NodeRow.id), Readable row := by
    intro row member
    obtain ⟨stored,test⟩ := mem_filter.mp member
    rw [grants] at stored
    rcases mem_append.mp stored with old | new
    · exact groupGrants_readable loaded.grouped row (mem_filter.mpr ⟨(mem_filter.mp old).1,test⟩)
    · obtain ⟨input,_,rfl⟩ := mem_map.mp new
      exact ⟨grantOfInput input,readGrant_rowOfInput target input⟩
  have rows : rowsUp after organizationId id = rowsUp tables organizationId id := by
    rw [rowsUp,rowsUp,same.entries]
  obtain ⟨answered,holds⟩ := holds_iff shared (by rw [same.shares]; exact scope_owned loaded.located inside) there
    (readable_of_more (fun upper member => by rw [rows] at member; exact rowsUp_loaded loaded inside member) readable) subject
  refine ⟨answered,fun permission => (holds permission).trans ?_⟩
  rw [mem_chainSet loaded.located.shared place,same.entries,shareGrants_after done]
  refine Entitled.congr (fun upper climbs => ?_)
  by_cases node : upper = target.nodeKey
  · rw [node,Function.update_self,Function.update_self]
  · rw [Function.update_of_ne node,Function.update_of_ne node]
    exact (loaded.before_eq (loaded.above inside climbs)).symm

end Reading

section Frame

variable {tables after : Tables} {organizationId : String} {target : Target} {proposed : List GrantInput}

private theorem grantRows_outside (located : Located tables organizationId target)
    (done : replaceGrants tables organizationId target proposed = .ok after) {shareId : String} {ids : List String}
    (outside : shareId = target.shareId → target.entryId ≠ none ∧ target.nodeKey ∉ ids) :
    grantRows after.grants organizationId shareId ids = grantRows tables.grants organizationId shareId ids := by
  obtain ⟨_,grants⟩ := replaceGrants_ok done
  have none_new : (proposed.map (rowOfInput organizationId target)).filter (selects organizationId shareId ids) = [] := by
    refine filter_eq_nil_iff.mpr (fun row member test => ?_)
    obtain ⟨input,_,rfl⟩ := mem_map.mp member
    obtain ⟨_,share,inside⟩ := selects_iff.mp test
    obtain ⟨below,absent⟩ := outside share.symm
    obtain ⟨id,node⟩ := Option.ne_none_iff_exists'.mp below
    exact absent (by rw [Target.nodeKey,node]; exact inside id node)
  rw [grantRows,grants,filter_append,none_new,append_nil,filter_filter]
  refine filter_congr (fun row _ => ?_)
  cases on : onNode organizationId target row with
  | false => simp
  | true =>
    simp only [onNode,and_eq_true,decide_eq_true_eq] at on
    simp only [Bool.not_true,Bool.and_false]
    refine Eq.symm (eq_false_iff.mpr (fun test => ?_))
    obtain ⟨_,share,inside⟩ := selects_iff.mp test
    obtain ⟨below,absent⟩ := outside (share.symm.trans on.1.2)
    obtain ⟨id,node⟩ := Option.ne_none_iff_exists'.mp below
    obtain ⟨entry,_,_,placed,same⟩ := located.hung id node
    have key := on.2
    rw [Target.nodeKey,node,Option.getD_some] at key absent
    cases entryId : row.entryId with
    | none =>
      obtain ⟨share,held,shareId⟩ := located.shared
      rw [nodeOf,entryId,Option.getD_none] at key
      exact tables.apart share held entry placed.stored.1 (by rw [same,← key,shareId])
    | some other =>
      rw [nodeOf,entryId,Option.getD_some] at key
      exact absent (key ▸ inside other entryId)

private theorem resolveAt_same (same : SameTree after tables) {ref : NodeRef} {subject : Subject}
    (rows : ∀ read above, locate tables organizationId ref = .ok read →
      ancestorRows tables organizationId read = .ok above →
        grantRows after.grants organizationId read.shareId (above.map NodeRow.id) =
          grantRows tables.grants organizationId read.shareId (above.map NodeRow.id)) :
    resolveAt after organizationId ref subject = resolveAt tables organizationId ref subject := by
  have found : locate after organizationId ref = locate tables organizationId ref := by
    cases ref <;> simp only [locate,same.shares,same.entries]
  have climbed (read : Target) : ancestorRows after organizationId read = ancestorRows tables organizationId read := by
    simp only [ancestorRows,same.entries]
  unfold resolveAt
  rw [found]
  cases located : locate tables organizationId ref with
  | error => rfl
  | ok read =>
    simp only [bind,Except.bind,climbed]
    cases above : ancestorRows tables organizationId read with
    | error => rfl
    | ok ancestors => simp only [rows read ancestors located above]

variable (trees : ShareTree tables organizationId) (located : Located tables organizationId target)
  (done : replaceGrants tables organizationId target proposed = .ok after)

include located done

theorem resolveAt_outside (trees : ShareTree tables organizationId) {entry : FileEntry} (stored : entry ∈ tables.entries)
    (owner : entry.organizationId = organizationId)
    (outside : ¬(entry.shareId = target.shareId ∧
      Relation.ReflTransGen (Under tables.entries target.shareId) entry.id target.nodeKey)) (subject : Subject) :
    resolveAt after organizationId (.entry entry.id) subject =
      resolveAt tables organizationId (.entry entry.id) subject := by
  obtain ⟨shared,depth,room,placed⟩ := trees entry stored owner
  refine resolveAt_same (replaceGrants_ok done).1 (fun read above found climbed => ?_)
  have target' : read = ⟨entry.shareId,some entry.id,decide (entry.kind = .folder)⟩ := by
    simp only [locate,find_entry stored owner] at found
    cases found
    rfl
  subst target'
  rw [ancestorRows_placed shared placed room] at climbed
  cases climbed
  refine grantRows_outside located done (fun same => ?_)
  have climbs (node : Relation.ReflTransGen (Under tables.entries entry.shareId) entry.id target.nodeKey) : False :=
    outside ⟨same,same ▸ node⟩
  constructor
  · intro root
    refine climbs ((mem_ups shared placed room).mpr (.inr ?_))
    rw [Target.nodeKey,root]
    exact same.symm
  · intro member
    rw [map_reverse] at member
    exact climbs ((mem_ups shared placed room).mpr (.inl (mem_reverse.mp member)))

theorem resolveAt_root {shareId : String} (outside : ¬(shareId = target.shareId ∧ target.entryId = none))
    (subject : Subject) :
    resolveAt after organizationId (.share shareId) subject = resolveAt tables organizationId (.share shareId) subject := by
  refine resolveAt_same (replaceGrants_ok done).1 (fun read above found climbed => ?_)
  simp only [locate] at found
  split at found <;> cases found
  next share kept =>
    cases climbed
    have test := find?_some kept
    simp only [decide_eq_true_eq] at test
    refine grantRows_outside located done (fun same => ⟨fun root => outside ⟨?_,root⟩,not_mem_nil⟩)
    rw [← test.2]
    exact same

end Frame

def NonAdmin (tables : Tables) (organizationId : String) (subject : Subject) : Prop :=
  ∃ user ∈ tables.users, user.organizationId = organizationId ∧ user.isAdmin = false ∧
    subject = subjectOf tables organizationId user.id

structure ExactImpact (tables after : Tables) (organizationId : String) (target : Target) (impact : ImpactView) :
    Prop where
  entries : ∀ entry ∈ tables.entries, entry.organizationId = organizationId →
    ¬(entry.shareId = target.shareId ∧
      Relation.ReflTransGen (Under tables.entries target.shareId) entry.id target.nodeKey) →
    ∀ subject, resolveAt after organizationId (.entry entry.id) subject =
      resolveAt tables organizationId (.entry entry.id) subject
  roots : ∀ shareId, ¬(shareId = target.shareId ∧ target.entryId = none) → ∀ subject,
    resolveAt after organizationId (.share shareId) subject = resolveAt tables organizationId (.share shareId) subject
  resolves : ∀ id rank, Scope tables organizationId target id rank → ∀ subject,
    (∃ resolution, resolveAt tables organizationId (refOf target.shareId id) subject = .ok resolution) ∧
      ∃ resolution, resolveAt after organizationId (refOf target.shareId id) subject = .ok resolution
  counted : ∃ changed : List String, changed.Nodup ∧ impact.foldersAffected = changed.length ∧
    ∀ id, id ∈ changed ↔ (∃ rank, Scope tables organizationId target id rank) ∧ ∃ subject,
      NonAdmin tables organizationId subject ∧
        (Widens (Holds tables organizationId (refOf target.shareId id) subject)
            (Holds after organizationId (refOf target.shareId id) subject) ∨
          Widens (Holds after organizationId (refOf target.shareId id) subject)
            (Holds tables organizationId (refOf target.shareId id) subject))
  gaining : Reports impact.usersGaining (NonAdmin tables organizationId) (Scope tables organizationId target)
    (fun subject id => Widens (Holds tables organizationId (refOf target.shareId id) subject)
      (Holds after organizationId (refOf target.shareId id) subject))
    (fun subject id => Holds tables organizationId (refOf target.shareId id) subject)
    (fun subject id => Holds after organizationId (refOf target.shareId id) subject) (usernameOf tables organizationId)
  losing : Reports impact.usersLosing (NonAdmin tables organizationId) (Scope tables organizationId target)
    (fun subject id => Widens (Holds after organizationId (refOf target.shareId id) subject)
      (Holds tables organizationId (refOf target.shareId id) subject))
    (fun subject id => Holds tables organizationId (refOf target.shareId id) subject)
    (fun subject id => Holds after organizationId (refOf target.shareId id) subject) (usernameOf tables organizationId)

section Exact

variable {tables : Tables} {organizationId : String} {subject : Subject}

theorem mem_impactSubjects : subject ∈ impactSubjects tables organizationId ↔ NonAdmin tables organizationId subject := by
  simp only [impactSubjects,NonAdmin,mem_map,mem_filter,decide_eq_true_eq]
  constructor
  · rintro ⟨user,⟨stored,owner,role⟩,rfl⟩
    exact ⟨user,stored,owner,role,rfl⟩
  · rintro ⟨user,stored,owner,role,rfl⟩
    exact ⟨user,⟨stored,owner,role⟩,rfl⟩

theorem impactSubjects_nodup : ((impactSubjects tables organizationId).map Subject.userId).Nodup := by
  have ids : (impactSubjects tables organizationId).map Subject.userId = (tables.users.filter
      (fun user => user.organizationId = organizationId ∧ user.isAdmin = false)).map User.id := by
    simp [impactSubjects,subjectOf,Function.comp_def]
  rw [ids]
  exact tables.usersKeyed.sublist (filter_sublist.map _)

variable {subjects : List Subject} {had has : String → Subject → List Permission} {id : String}

private theorem mem_side {test : Delta → Bool} {user : UserImpact} :
    user ∈ byUserId (((subjects.map (fun subject => deltaOf subject (had id subject) (has id subject))).filter test).map
      Delta.user) ↔ ∃ subject ∈ subjects, test (deltaOf subject (had id subject) (has id subject)) = true ∧
        user = ⟨subject.userId,sortPermissions (had id subject),sortPermissions (has id subject)⟩ := by
  simp only [mem_byUserId,mem_map,mem_filter]
  constructor
  · rintro ⟨_,⟨⟨subject,member,rfl⟩,test⟩,rfl⟩
    exact ⟨subject,member,test,rfl⟩
  · rintro ⟨subject,member,test,rfl⟩
    exact ⟨_,⟨⟨subject,member,rfl⟩,test⟩,rfl⟩

private theorem side_nodup {test : Delta → Bool} (distinct : (subjects.map Subject.userId).Nodup) :
    ((byUserId (((subjects.map (fun subject => deltaOf subject (had id subject) (has id subject))).filter test).map
      Delta.user)).map UserImpact.userId).Nodup := by
  refine (ids_byUserId _).nodup_iff.mpr ?_
  rw [map_map]
  have ids : (subjects.map (fun subject => deltaOf subject (had id subject) (has id subject))).map
      (UserImpact.userId ∘ Delta.user) = subjects.map Subject.userId := by
    simp [deltaOf,Function.comp_def]
  exact (ids ▸ distinct).sublist (filter_sublist.map _)

private theorem widens_iff {first second : List Permission} {before after : Permission → Prop}
    (had : ∀ permission, before permission ↔ permission ∈ first)
    (has : ∀ permission, after permission ↔ permission ∈ second) :
    second.any (fun permission => !first.contains permission) = true ↔ Widens before after := by
  simp [Widens,had,has]

private theorem lists_sorted {list : List Permission} {holds : Permission → Prop}
    (same : ∀ permission, holds permission ↔ permission ∈ list) : Lists (sortPermissions list) holds :=
  ⟨sortPermissions_congr (fun _ => mem_sortPermissions.symm),
    fun permission => mem_sortPermissions.trans (same permission).symm⟩

private theorem reports_side {ranked : List (String × Nat)} {scope : String → Nat → Prop} {test : Delta → Bool}
    {moved : Subject → String → Prop} {holdsHad holdsHas : Subject → String → Permission → Prop}
    {username : String → String} {side : FolderImpact → List UserImpact}
    (sides : ∀ id, side (folderOf (impactSubjects tables organizationId) had has id) =
      byUserId ((((impactSubjects tables organizationId).map
        (fun subject => deltaOf subject (had id subject) (has id subject))).filter test).map Delta.user))
    (ordered : ranked.Pairwise Earlier) (listed : ∀ id rank, (id,rank) ∈ ranked ↔ scope id rank)
    (before : ∀ id rank, (id,rank) ∈ ranked → ∀ subject permission,
      holdsHad subject id permission ↔ permission ∈ had id subject)
    (after : ∀ id rank, (id,rank) ∈ ranked → ∀ subject permission,
      holdsHas subject id permission ↔ permission ∈ has id subject)
    (tested : ∀ id rank, (id,rank) ∈ ranked → ∀ subject,
      test (deltaOf subject (had id subject) (has id subject)) = true ↔ moved subject id) :
    Reports ((rollUp side (ranked.map (fun entry => folderOf (impactSubjects tables organizationId) had has entry.1))).map
      (viewOf username)) (NonAdmin tables organizationId) scope moved holdsHad holdsHas username := by
  refine reports_rollUp ordered listed (fun id rank _ => ?_) (fun id rank inside user member => ?_)
    (fun id rank inside subject known moves => ?_)
  · rw [sides]
    exact side_nodup impactSubjects_nodup
  · rw [sides] at member
    obtain ⟨subject,known,picked,rfl⟩ := mem_side.mp member
    exact ⟨subject,mem_impactSubjects.mp known,rfl,(tested id rank inside subject).mp picked,
      lists_sorted (before id rank inside subject),lists_sorted (after id rank inside subject)⟩
  · rw [sides]
    exact mem_map.mpr ⟨_,mem_side.mpr ⟨subject,mem_impactSubjects.mpr known,
      (tested id rank inside subject).mpr moves,rfl⟩,rfl⟩

private theorem affected_iff : (folderOf subjects had has id).affected = true ↔ ∃ subject ∈ subjects,
    (deltaOf subject (had id subject) (has id subject)).gained = true ∨
      (deltaOf subject (had id subject) (has id subject)).lost = true := by
  have some (users : List UserImpact) : (!users.isEmpty) = true ↔ ∃ user, user ∈ users := by
    cases users <;> simp
  rw [FolderImpact.affected,or_eq_true,some,some,folderOf]
  simp only [mem_side]
  constructor
  · rintro (⟨_,subject,member,gained,_⟩ | ⟨_,subject,member,lost,_⟩)
    · exact ⟨subject,member,.inl gained⟩
    · exact ⟨subject,member,.inr lost⟩
  · rintro ⟨subject,member,gained | lost⟩
    · exact .inl ⟨_,subject,member,gained,rfl⟩
    · exact .inr ⟨_,subject,member,lost,rfl⟩

end Exact

/-- The permission dry run is exact. In a share tree within the depth bound, with no more live
folders below the node than the preview resolves, an accepted write changes nothing outside the
node and what lies below it, and its numbers, which a dry run answers too, are those of the
stored permissions before and after it. -/
theorem dry_run_exact (tables : Tables) (organizationId : String) (actor : Actor) (ref : NodeRef)
    (proposed : List GrantInput) (target : Target) (result : WriteResult) (trees : ShareTree tables organizationId)
    (found : locate tables organizationId ref = .ok target)
    (few : ∀ ids : List String, ids.Nodup → (∀ id ∈ ids, ∃ rank, 0 < rank ∧ Scope tables organizationId target id rank) →
      ids.length ≤ IMPACT_FOLDER_LIMIT)
    (accepted : write tables organizationId actor ref proposed false = .ok result) :
    write tables organizationId actor ref proposed true = .ok ⟨result.impact,false,tables⟩ ∧
      ExactImpact tables result.tables organizationId target result.impact := by
  obtain ⟨target',ancestors,subtree,before,found',climbed,walked,grouped,numbers,done,_,dry⟩ := write_ok accepted
  cases found.symm.trans found'
  have located := located_of_locate trees found
  have small : (liveRows tables organizationId target).length ≤ IMPACT_FOLDER_LIMIT := by
    have count := few ((liveRows tables organizationId target).map FolderRow.id)
      (Descent.walk_nodup tables.keyed (live_rooted trees located) _) (fun id member => by
        obtain ⟨row,listed,rfl⟩ := mem_map.mp member
        refine ⟨row.depth + 1,by omega,(mem_ranked trees located).mp ?_⟩
        exact mem_cons_of_mem _ (mem_map.mpr ⟨row,listed,rfl⟩))
    rwa [length_map] at count
  obtain ⟨nodes,whole⟩ := subtree_whole walked small
  have loaded : Loaded tables organizationId target ancestors subtree before :=
    ⟨trees,located,ancestors_rowsUp located climbed,nodes,whole,grouped⟩
  rw [impactOf_eq loaded] at numbers
  have impact := Except.ok.inj numbers
  have had {id : String} {rank : Nat} (inside : (id,rank) ∈ ranked tables organizationId target) (subject : Subject) :=
    (loaded.holds_before ((mem_ranked trees located).mp inside) subject).2
  have has {id : String} {rank : Nat} (inside : (id,rank) ∈ ranked tables organizationId target) (subject : Subject) :=
    (loaded.holds_after done ((mem_ranked trees located).mp inside) subject).2
  refine ⟨dry,⟨fun entry stored owner outside subject => resolveAt_outside located done trees stored owner outside subject,
    fun shareId outside subject => resolveAt_root located done outside subject,
    fun id rank inside subject => ⟨(loaded.holds_before inside subject).1,(loaded.holds_after done inside subject).1⟩,
    ?_,?_,?_⟩⟩
  · refine ⟨((ranked tables organizationId target).map Prod.fst).filter (fun id => (folderOf
      (impactSubjects tables organizationId) (chainSet tables organizationId target.shareId before)
      (chainSet tables organizationId target.shareId (Function.update before target.nodeKey (proposed.map grantOfInput)))
      id).affected),(ranked_nodup trees located).sublist filter_sublist,?_,fun id => ?_⟩
    · rw [← impact,← countP_eq_length_filter]
      simp only [countP_map]
      rfl
    · rw [mem_filter,affected_iff]
      constructor
      · rintro ⟨member,subject,known,moves⟩
        obtain ⟨⟨_,rank⟩,inside,rfl⟩ := mem_map.mp member
        exact ⟨⟨rank,(mem_ranked trees located).mp inside⟩,subject,mem_impactSubjects.mp known,
          moves.imp (widens_iff (had inside subject) (has inside subject)).mp
            (widens_iff (has inside subject) (had inside subject)).mp⟩
      · rintro ⟨⟨rank,scope⟩,subject,known,moves⟩
        have inside := (mem_ranked trees located).mpr scope
        exact ⟨mem_map.mpr ⟨(id,rank),inside,rfl⟩,subject,mem_impactSubjects.mpr known,
          moves.imp (widens_iff (had inside subject) (has inside subject)).mpr
            (widens_iff (has inside subject) (had inside subject)).mpr⟩
  · rw [← impact]
    exact reports_side (fun _ => rfl) (ranked_ordered trees located) (fun _ _ => mem_ranked trees located)
      (fun _ _ inside => had inside) (fun _ _ inside => has inside)
      (fun _ _ inside subject => widens_iff (had inside subject) (has inside subject))
  · rw [← impact]
    exact reports_side (fun _ => rfl) (ranked_ordered trees located) (fun _ _ => mem_ranked trees located)
      (fun _ _ inside => had inside) (fun _ _ inside => has inside)
      (fun _ _ inside subject => widens_iff (has inside subject) (had inside subject))

def officeEntries : List FileEntry :=
  [⟨"top","o","s",none,.folder,"Top",false⟩,⟨"sub","o","s",some "top",.folder,"Sub",false⟩]

def office : Tables where
  shares := [⟨"s","o","files"⟩]
  entries := officeEntries
  grants := [⟨"o","s",none,none,some "staff",["list","read"]⟩]
  keyed := by decide
  apart := by decide
  referenced := by decide
  users := [⟨"boss","o","boss",true⟩,⟨"clerk","o","clerk",false⟩]
  teams := [⟨"staff","o"⟩]
  members := [⟨"o","staff","clerk"⟩]
  usersKeyed := by decide
  unique := pairwise_singleton _ _

private theorem office_tree : ShareTree office "o" := by
  have shared : Shared office "s" := ⟨_,mem_cons_self,rfl⟩
  have top : Placed office.entries "o" "s" ⟨"top","o","s",none,.folder,"Top",false⟩ 0 :=
    .top mem_cons_self rfl rfl rfl
  intro entry stored _
  rcases mem_cons.mp stored with rfl | stored
  · exact ⟨shared,0,by decide,top⟩
  · cases mem_singleton.mp stored
    exact ⟨shared,1,by decide,.inside top (mem_cons_of_mem _ mem_cons_self) rfl rfl rfl⟩

theorem dry_run_exact_office : ∃ result,
    write office "o" ⟨"boss",true⟩ (.entry "sub") [⟨none,some "staff",[.list]⟩] false = .ok result ∧
      write office "o" ⟨"boss",true⟩ (.entry "sub") [⟨none,some "staff",[.list]⟩] true =
        .ok ⟨result.impact,false,office⟩ ∧
      ExactImpact office result.tables "o" ⟨"s",some "sub",true⟩ result.impact := by
  have found : locate office "o" (.entry "sub") = .ok ⟨"s",some "sub",true⟩ := by decide
  have located := located_of_locate office_tree found
  have bare : liveRows office "o" ⟨"s",some "sub",true⟩ = [] := Descent.walk_empty (by decide)
  have walked : subtreeRows office "o" ⟨"s",some "sub",true⟩ = .ok ⟨[],0,false⟩ := by
    rw [subtreeRows,bare]
    rfl
  have climbed : ancestorRows office "o" ⟨"s",some "sub",true⟩ = .ok [⟨"top",none⟩,⟨"sub",some "top"⟩] := by decide
  obtain ⟨before,grouped⟩ : ∃ before, groupGrants (grantRows office.grants "o" "s"
      (["top","sub"] ++ [])) "s" = .ok before := ⟨_,rfl⟩
  have loaded : Loaded office "o" ⟨"s",some "sub",true⟩ [⟨"top",none⟩,⟨"sub",some "top"⟩] ⟨[],0,false⟩ before :=
    ⟨office_tree,located,ancestors_rowsUp located climbed,by rw [bare]; rfl,rfl,grouped⟩
  obtain ⟨after,done⟩ : ∃ after, replaceGrants office "o" ⟨"s",some "sub",true⟩ [⟨none,some "staff",[.list]⟩] =
      .ok after := ⟨_,rfl⟩
  have accepted := @write_accepts office "o" ⟨"boss",true⟩ _ _ _ _ _ _ _ _ found rfl climbed walked grouped rfl (by decide) (by simp)
    (impactOf_eq loaded) done
  refine ⟨_,accepted,dry_run_exact office "o" ⟨"boss",true⟩ (.entry "sub") [⟨none,some "staff",[.list]⟩]
    ⟨"s",some "sub",true⟩ _ office_tree found (fun ids _ within => ?_) accepted⟩
  have none (id : String) (member : id ∈ ids) : False := by
    obtain ⟨rank,below,inside⟩ := within id member
    have listed := (mem_ranked office_tree located).mpr inside
    rw [ranked,bare] at listed
    cases mem_singleton.mp listed
    exact absurd below (by decide)
  cases ids with
  | nil => exact Nat.zero_le _
  | cons id rest => exact (none id mem_cons_self).elim

end Depsis.Permissions

import Depsis.Authz.Resolve
import Mathlib.Data.List.Nodup
import Mathlib.Data.List.Forall2

/-! The laws of the resolver: the order of teams and grants is immaterial, a team only
adds, a node without grants is passed over, principals do not touch each other, and
the node named as the source is the deepest one a grant was taken from.
-/
namespace Depsis.Authz

open List Option

structure Valid (chain : List AclNode) : Prop where
  linked : assertChain chain = .ok ()
  distinct : (chain.map AclNode.id).Nodup
  single : ∀ node ∈ chain, (node.grants.map Grant.principal).Nodup

structure Shuffled (node other : AclNode) : Prop where
  id : node.id = other.id
  parentId : node.parentId = other.parentId
  grants : node.grants.Perm other.grants

def under (parent : String) : List AclNode → List AclNode
  | [] => []
  | node::rest => { node with parentId := some parent }::rest

structure Laws (chain : List AclNode) (subject : Subject) : Prop where
  answered : resolve chain subject = .ok (resolution chain subject)
  memberships : ∀ teamIds, (∀ team, team ∈ teamIds ↔ team ∈ subject.teamIds) → ∀ permission,
    permission ∈ (resolution chain ⟨subject.userId,teamIds⟩).effective ↔
      permission ∈ (resolution chain subject).effective
  shuffled : ∀ other, List.Forall₂ Shuffled other chain → resolve other subject = resolve chain subject
  joined : ∀ teamIds, subject.teamIds ⊆ teamIds →
    (resolution chain subject).effective ⊆ (resolution chain ⟨subject.userId,teamIds⟩).effective
  inserted : ∀ front back node, chain = front ++ back → node.grants = [] → node.id ∉ chain.map AclNode.id →
    node.parentId = front.getLast?.map AclNode.id →
    resolve (front ++ node::under node.id back) subject = resolve chain subject
  replaced : ∀ front node back principal grants, chain = front ++ node::back →
    grants.filter (fun grant => grant.principal ≠ principal) =
      node.grants.filter (fun grant => grant.principal ≠ principal) →
    ∀ other, other ≠ principal →
      nearestGrant (front ++ { node with grants := grants }::back) other = nearestGrant chain other
  deepest : ∀ id, (resolution chain subject).nearestSourceNodeId = some id → ∃ front node back,
    chain = front ++ node::back ∧ node.id = id ∧
    (∃ source ∈ (resolution chain subject).sources, source.nodeId = id) ∧
    ∀ source ∈ (resolution chain subject).sources, source.nodeId ∉ back.map AclNode.id
  unserved : (resolution chain subject).nearestSourceNodeId = none ↔ (resolution chain subject).sources = []
  silent : (∀ node ∈ chain, ∀ grant ∈ node.grants, grant.permissions ≠ []) →
    ((resolution chain subject).nearestSourceNodeId = none ↔ (resolution chain subject).effective = [])

section Chains

def Descends : Option String → List AclNode → Prop
  | _,[] => True
  | parent,node::rest => node.parentId = parent ∧ Descends (some node.id) rest

variable {chain other : List AclNode}

private theorem linked_iff {previous : String} :
    linked previous chain = .ok () ↔ Descends (some previous) chain := by
  induction chain generalizing previous with
  | nil => exact ⟨fun _ => trivial,fun _ => rfl⟩
  | cons node rest ih =>
    unfold linked Descends
    split
    next child =>
      rw [ih]
      exact ⟨fun more => ⟨child,more⟩,And.right⟩
    next other =>
      constructor
      · nofun
      · intro descends
        exact absurd descends.1 other

theorem assertChain_iff : assertChain chain = .ok () ↔ chain ≠ [] ∧ Descends none chain := by
  cases chain with
  | nil =>
    constructor
    · nofun
    · intro held
      exact absurd rfl held.1
  | cons root rest =>
    obtain ⟨id,parent,grants⟩ := root
    cases parent with
    | some above =>
      constructor
      · nofun
      · intro held
        cases held.2.1
    | none =>
      change linked id rest = .ok () ↔ _
      rw [linked_iff]
      constructor
      · intro more
        exact ⟨cons_ne_nil _ _,rfl,more⟩
      · intro held
        exact held.2.2

theorem descends_append {parent : Option String} {front back : List AclNode} :
    Descends parent (front ++ back) ↔
      Descends parent front ∧ Descends ((front.getLast?.map AclNode.id).or parent) back := by
  induction front generalizing parent with
  | nil => exact ⟨fun held => ⟨trivial,held⟩,And.right⟩
  | cons node rest ih =>
    have last : ((node::rest).getLast?.map AclNode.id).or parent =
        (rest.getLast?.map AclNode.id).or (some node.id) := by
      cases rest with
      | nil => rfl
      | cons next later => rw [getLast?_cons_cons]; cases h : (next::later).getLast? <;> simp_all
    rw [cons_append,Descends,Descends,ih,last,and_assoc]

theorem descends_under {parent : Option String} (id : String)
    (descends : Descends parent chain) : Descends (some id) (under id chain) := by
  cases chain with
  | nil => trivial
  | cons node rest => exact ⟨rfl,descends.2⟩

theorem assertChain_inserted {front back : List AclNode} {node : AclNode}
    (linked : assertChain (front ++ back) = .ok ()) (parent : node.parentId = front.getLast?.map AclNode.id) :
    assertChain (front ++ node::under node.id back) = .ok () := by
  obtain ⟨-,descends⟩ := assertChain_iff.mp linked
  obtain ⟨above,rest⟩ := descends_append.mp descends
  refine assertChain_iff.mpr ⟨by simp,descends_append.mpr ⟨above,?_,descends_under node.id rest⟩⟩
  rw [parent,or_none]

theorem assertChain_congr
    (links : other.map (fun node => (node.id,node.parentId)) = chain.map (fun node => (node.id,node.parentId))) :
    assertChain other = assertChain chain := by
  have linked_congr (previous : String) (chain other : List AclNode)
      (links : other.map (fun node => (node.id,node.parentId)) = chain.map (fun node => (node.id,node.parentId))) :
      linked previous other = linked previous chain := by
    induction chain generalizing previous other with
    | nil =>
      rw [map_eq_nil_iff.mp links]
    | cons node rest ih =>
      cases other with
      | nil => cases links
      | cons first later =>
        obtain ⟨same,more⟩ := List.cons.inj links
        obtain ⟨ids,parents⟩ := Prod.mk.inj same
        rw [linked,linked,ids,parents,ih node.id later more]
  cases chain with
  | nil => rw [map_eq_nil_iff.mp links]
  | cons node rest =>
    cases other with
    | nil => cases links
    | cons first later =>
      obtain ⟨same,more⟩ := List.cons.inj links
      obtain ⟨ids,parents⟩ := Prod.mk.inj same
      rw [assertChain,assertChain,ids,parents,linked_congr node.id rest later more]

theorem depthOf_congr (ids : other.map AclNode.id = chain.map AclNode.id) :
    depthOf other = depthOf chain := by
  have positions (chain : List AclNode) (nodeId : String) : depthOf chain nodeId =
      ((chain.map AclNode.id).zipIdx.reverse.find? (fun entry => entry.1 = nodeId)).map Prod.snd := by
    rw [depthOf,zipIdx_map,← map_reverse,find?_map,Option.map_map]
    rfl
  ext1 nodeId
  rw [positions,positions,ids]

theorem nearestSource_congr (ids : other.map AclNode.id = chain.map AclNode.id)
    (sources : List PrincipalSource) : nearestSource other sources = nearestSource chain sources := by
  rw [nearestSource,nearestSource,depthOf_congr ids]

end Chains

section Sources

variable {chain other : List AclNode} {principal : Principal} {subject : Subject}

theorem nearestGrant_map (chain : List AclNode) (principal : Principal) :
    nearestGrant chain principal = (chain.map (fun node => grantOn node principal)).reverse.findSome? id := by
  rw [nearestGrant,← map_reverse,findSome?_map]
  rfl

theorem nearestGrant_congr
    (same : other.map (fun node => grantOn node principal) = chain.map (fun node => grantOn node principal)) :
    nearestGrant other principal = nearestGrant chain principal := by
  rw [nearestGrant_map,nearestGrant_map,same]

theorem nearestGrant_some {source : PrincipalSource} (found : nearestGrant chain principal = some source) :
    source.principal = principal ∧ ∃ node ∈ chain, node.id = source.nodeId ∧
      ∃ grant ∈ node.grants, grant.principal = principal ∧ source.permissions = sortPermissions grant.permissions := by
  obtain ⟨node,member,granted⟩ := exists_of_findSome?_eq_some found
  obtain ⟨grant,stored,rfl⟩ := map_eq_some_iff.mp granted
  have named : grant.principal = principal := by simpa using find?_some stored
  exact ⟨rfl,node,mem_reverse.mp member,rfl,grant,mem_of_find?_eq_some stored,named,rfl⟩

theorem mem_sources {source : PrincipalSource} (member : source ∈ (resolution chain subject).sources) :
    ∃ principal ∈ principalsOf subject, nearestGrant chain principal = some source :=
  mem_filterMap.mp member

private theorem find_grant {grants : List Grant} (single : (grants.map Grant.principal).Nodup) {grant : Grant} :
    grants.find? (fun candidate => candidate.principal = principal) = some grant ↔
      grant ∈ grants ∧ grant.principal = principal := by
  constructor
  · intro found
    exact ⟨mem_of_find?_eq_some found,by simpa using find?_some found⟩
  · rintro ⟨member,named⟩
    cases found : grants.find? (fun candidate => candidate.principal = principal) with
    | none => exact absurd (decide_eq_true named) (find?_eq_none.mp found grant member)
    | some first =>
      have named' : first.principal = principal := by simpa using find?_some found
      rw [inj_on_of_nodup_map single (mem_of_find?_eq_some found) member (named'.trans named.symm)]

theorem grantOn_shuffled {node same : AclNode} (shuffled : Shuffled node same)
    (single : (same.grants.map Grant.principal).Nodup) (principal : Principal) :
    grantOn node principal = grantOn same principal := by
  have single' := (shuffled.grants.map Grant.principal).nodup_iff.mpr single
  have found : node.grants.find? (fun candidate => candidate.principal = principal) =
      same.grants.find? (fun candidate => candidate.principal = principal) := by
    ext grant
    rw [find_grant single',find_grant single,shuffled.grants.mem_iff]
  rw [grantOn,grantOn,found,shuffled.id]

theorem grantOn_without {node : AclNode} (bare : node.grants = []) (principal : Principal) :
    grantOn node principal = none := by
  rw [grantOn,bare]
  rfl

theorem grantOn_under (parent : String) (chain : List AclNode) (principal : Principal) :
    (under parent chain).map (fun node => grantOn node principal) = chain.map (fun node => grantOn node principal) := by
  cases chain <;> rfl

theorem ids_under (parent : String) (chain : List AclNode) :
    (under parent chain).map AclNode.id = chain.map AclNode.id := by
  cases chain <;> rfl

theorem find_other {grants same : List Grant} {principal replaced : Principal} (apart : principal ≠ replaced)
    (kept : grants.filter (fun grant => grant.principal ≠ replaced) = same.filter (fun grant => grant.principal ≠ replaced)) :
    grants.find? (fun candidate => candidate.principal = principal) =
      same.find? (fun candidate => candidate.principal = principal) := by
  have passes (grants : List Grant) : (grants.filter (fun grant => grant.principal ≠ replaced)).find?
      (fun candidate => candidate.principal = principal) =
        grants.find? (fun candidate => candidate.principal = principal) := by
    rw [find?_filter]
    refine congrArg (fun test => grants.find? test) (funext (fun grant => ?_))
    by_cases named : grant.principal = principal
    · simp [named,apart]
    · simp [named]
  rw [← passes grants,kept,passes]

end Sources

section Nearest

variable {chain : List AclNode} {sources : List PrincipalSource}

private theorem depthOf_some {nodeId : String} {depth : Nat} (found : depthOf chain nodeId = some depth) :
    ∃ node, chain[depth]? = some node ∧ node.id = nodeId := by
  obtain ⟨entry,listed,rfl⟩ := map_eq_some_iff.mp found
  have member := mem_reverse.mp (mem_of_find?_eq_some listed)
  exact ⟨entry.1,mem_zipIdx_iff_getElem?.mp member,by simpa using find?_some listed⟩

private theorem depthOf_none {nodeId : String} (missing : depthOf chain nodeId = none) :
    nodeId ∉ chain.map AclNode.id := by
  intro member
  obtain ⟨node,stored,named⟩ := mem_map.mp member
  obtain ⟨depth,at'⟩ := mem_iff_getElem?.mp stored
  have unlisted := find?_eq_none.mp (map_eq_none_iff.mp missing) (node,depth)
    (mem_reverse.mpr (mem_zipIdx_iff_getElem?.mpr at'))
  exact unlisted (decide_eq_true named)

private theorem depthOf_split {front back : List AclNode} {node : AclNode}
    (distinct : ((front ++ node::back).map AclNode.id).Nodup) :
    depthOf (front ++ node::back) node.id = some front.length := by
  cases found : depthOf (front ++ node::back) node.id with
  | none => exact absurd (List.mem_map.mpr ⟨node,by simp,rfl⟩) (depthOf_none found)
  | some depth =>
    obtain ⟨other,at',named⟩ := depthOf_some found
    have here : (front ++ node::back)[front.length]? = some node := by simp
    have first : ((front ++ node::back).map AclNode.id)[depth]? = some node.id := by
      rw [getElem?_map,at',map_some,named]
    have second : ((front ++ node::back).map AclNode.id)[front.length]? = some node.id := by
      rw [getElem?_map,here,map_some]
    have bound := (List.getElem?_eq_some_iff.mp first).1
    rw [(distinct.getElem_inj_iff).mp ((List.getElem?_eq_some_iff.mp first).2.trans
      (List.getElem?_eq_some_iff.mp second).2.symm)]

private def nearer (chain : List AclNode) (nearest : Nat × Option String) (source : PrincipalSource) : Nat × Option String :=
  match depthOf chain source.nodeId with
  | none => nearest
  | some depth => if nearest.1 ≤ depth then (depth + 1,some source.nodeId) else nearest

private theorem nearer_spec (sources : List PrincipalSource) (start : Nat × Option String) :
    (sources.foldl (nearer chain) start = start ∨ ∃ source ∈ sources, ∃ depth,
      depthOf chain source.nodeId = some depth ∧
      sources.foldl (nearer chain) start = (depth + 1,some source.nodeId)) ∧
    start.1 ≤ (sources.foldl (nearer chain) start).1 ∧
    ∀ source ∈ sources, ∀ depth, depthOf chain source.nodeId = some depth →
      depth < (sources.foldl (nearer chain) start).1 := by
  induction sources generalizing start with
  | nil => exact ⟨.inl rfl,Nat.le_refl _,nofun⟩
  | cons source rest ih =>
    obtain ⟨origin,least,every⟩ := ih (nearer chain start source)
    rw [foldl_cons]
    have moved : (nearer chain start source = start ∨ ∃ depth, depthOf chain source.nodeId = some depth ∧
        nearer chain start source = (depth + 1,some source.nodeId)) ∧ start.1 ≤ (nearer chain start source).1 ∧
        ∀ depth, depthOf chain source.nodeId = some depth → depth < (nearer chain start source).1 := by
      unfold nearer
      cases found : depthOf chain source.nodeId with
      | none => exact ⟨.inl rfl,Nat.le_refl _,nofun⟩
      | some depth =>
        simp only []
        split
        next less =>
          refine ⟨.inr ⟨depth,rfl,rfl⟩,Nat.le_succ_of_le less,fun same eq => ?_⟩
          cases eq
          exact Nat.lt_succ_self _
        next more =>
          refine ⟨.inl rfl,Nat.le_refl _,fun same eq => ?_⟩
          cases eq
          exact Nat.lt_of_not_le more
    refine ⟨?_,Nat.le_trans moved.2.1 least,?_⟩
    · rcases origin with kept | ⟨later,member,depth,found,last⟩
      · rw [kept]
        rcases moved.1 with same | ⟨depth,found,same⟩
        · exact .inl same
        · exact .inr ⟨source,mem_cons_self,depth,found,same⟩
      · exact .inr ⟨later,mem_cons_of_mem _ member,depth,found,last⟩
    · intro one member depth found
      rcases mem_cons.mp member with rfl | inside
      · exact Nat.lt_of_lt_of_le (moved.2.2 depth found) least
      · exact every one inside depth found

theorem nearestSource_eq (distinct : (chain.map AclNode.id).Nodup) (sources : List PrincipalSource) :
    nearestSource chain sources =
      (chain.reverse.find? (fun node => (sources.map PrincipalSource.nodeId).contains node.id)).map AclNode.id := by
  obtain ⟨origin,-,every⟩ := @nearer_spec chain sources (0,none)
  change (sources.foldl (nearer chain) (0,none)).2 = _
  cases found : chain.reverse.find? (fun node => (sources.map PrincipalSource.nodeId).contains node.id) with
  | none =>
    rcases origin with same | ⟨source,member,depth,located,-⟩
    · rw [same]; rfl
    · obtain ⟨node,at',named⟩ := depthOf_some located
      have absent := find?_eq_none.mp found node (mem_reverse.mpr (mem_of_getElem? at'))
      refine absurd (contains_iff_mem.mpr (mem_map.mpr ⟨source,member,named.symm⟩)) absent
  | some node =>
    obtain ⟨taken,later,earlier,split,none'⟩ := find?_eq_some_iff_append.mp found
    have path : chain = earlier.reverse ++ node::later.reverse := by
      rw [← reverse_reverse chain,split]
      simp
    obtain ⟨source,member,named⟩ := mem_map.mp (contains_iff_mem.mp taken)
    have here : depthOf chain source.nodeId = some earlier.reverse.length := by
      rw [named,path]
      exact depthOf_split (path ▸ distinct)
    have reached := every source member _ here
    rcases origin with same | ⟨best,chosen,depth,located,last⟩
    · rw [same] at reached
      cases reached
    · rw [last] at reached ⊢
      obtain ⟨deep,at',named'⟩ := depthOf_some located
      rw [path,getElem?_append_right (Nat.le_of_lt_succ reached)] at at'
      cases ahead : depth - earlier.reverse.length with
      | zero =>
        rw [ahead] at at'
        cases at'
        exact congrArg some named'.symm
      | succ more =>
        rw [ahead,getElem?_cons_succ] at at'
        have beyond : deep ∈ later := mem_reverse.mp (mem_of_getElem? at')
        have absent := none' deep beyond
        rw [named',contains_iff_mem.mpr (mem_map.mpr ⟨best,chosen,rfl⟩)] at absent
        cases absent

end Nearest

section Proofs

variable {chain : List AclNode} {subject : Subject}

private theorem principalsOf_subset {teamIds : List String} (more : subject.teamIds ⊆ teamIds) :
    principalsOf subject ⊆ principalsOf ⟨subject.userId,teamIds⟩ := by
  intro principal member
  rcases mem_cons.mp member with rfl | inside
  · exact mem_cons_self
  · obtain ⟨team,joined,rfl⟩ := mem_map.mp inside
    exact mem_cons_of_mem _ (mem_map.mpr ⟨team,more joined,rfl⟩)

theorem effective_mono {teamIds : List String} (more : subject.teamIds ⊆ teamIds) :
    (resolution chain subject).effective ⊆ (resolution chain ⟨subject.userId,teamIds⟩).effective := by
  intro permission held
  obtain ⟨principal,member,source,found,given⟩ := mem_effective.mp held
  exact mem_effective.mpr ⟨principal,principalsOf_subset more member,source,found,given⟩

theorem resolution_congr (distinct : (chain.map AclNode.id).Nodup)
    (distinct' : (other.map AclNode.id).Nodup)
    (grants : ∀ principal, nearestGrant other principal = nearestGrant chain principal)
    (order : ∀ sources : List PrincipalSource, (∀ source ∈ sources, source.nodeId ∈ chain.map AclNode.id) →
      (other.reverse.find? (fun node => (sources.map PrincipalSource.nodeId).contains node.id)).map AclNode.id =
      (chain.reverse.find? (fun node => (sources.map PrincipalSource.nodeId).contains node.id)).map AclNode.id) :
    resolution other subject = resolution chain subject := by
  have same : nearestGrant other = nearestGrant chain := funext grants
  unfold resolution
  simp only [same,nearestSource_eq distinct,nearestSource_eq distinct']
  rw [order]
  intro source member
  obtain ⟨principal,-,found⟩ := mem_filterMap.mp member
  obtain ⟨-,node,stored,named,-⟩ := nearestGrant_some found
  exact mem_map.mpr ⟨node,stored,named⟩

private theorem alike_map {Target : Type} (value : AclNode → Target)
    (agree : ∀ node same, Shuffled node same → value node = value same) (alike : List.Forall₂ Shuffled other chain) :
    other.map value = chain.map value := by
  induction alike with
  | nil => rfl
  | cons same _ ih => rw [map_cons,map_cons,agree _ _ same,ih]

private theorem alike_grants (single : ∀ node ∈ chain, (node.grants.map Grant.principal).Nodup)
    (alike : List.Forall₂ Shuffled other chain) (principal : Principal) :
    other.map (fun node => grantOn node principal) = chain.map (fun node => grantOn node principal) := by
  induction alike with
  | nil => rfl
  | cons same _ ih =>
    rw [map_cons,map_cons,grantOn_shuffled same (single _ mem_cons_self),
      ih (fun node member => single node (mem_cons_of_mem _ member))]

private theorem find_id (chain : List AclNode) (ids : List String) :
    (chain.reverse.find? (fun node => ids.contains node.id)).map AclNode.id =
      (chain.map AclNode.id).reverse.find? ids.contains := by
  rw [← map_reverse,find?_map]
  rfl

private theorem nearest_none (valid : Valid chain) :
    (resolution chain subject).nearestSourceNodeId = none ↔ (resolution chain subject).sources = [] := by
  change nearestSource chain (resolution chain subject).sources = none ↔ _
  rw [nearestSource_eq valid.distinct,map_eq_none_iff,find?_eq_none]
  constructor
  · intro absent
    refine eq_nil_iff_forall_not_mem.mpr (fun source member => ?_)
    obtain ⟨principal,-,found⟩ := mem_sources member
    obtain ⟨-,node,stored,named,-⟩ := nearestGrant_some found
    exact absent node (mem_reverse.mpr stored) (contains_iff_mem.mpr (mem_map.mpr ⟨source,member,named.symm⟩))
  · intro none' node _
    rw [none']
    simp

private theorem effective_nil (filled : ∀ node ∈ chain, ∀ grant ∈ node.grants, grant.permissions ≠ []) :
    (resolution chain subject).sources = [] ↔ (resolution chain subject).effective = [] := by
  constructor
  · intro none'
    change ((resolution chain subject).sources.flatMap PrincipalSource.permissions).eraseDups = []
    rw [none']
    rfl
  · intro nothing
    refine eq_nil_iff_forall_not_mem.mpr (fun source member => ?_)
    obtain ⟨principal,asked,found⟩ := mem_sources member
    obtain ⟨-,node,stored,-,grant,given,-,same⟩ := nearestGrant_some found
    obtain ⟨permission,held⟩ := exists_mem_of_ne_nil _ (filled node stored grant given)
    have effective : permission ∈ (resolution chain subject).effective :=
      mem_effective.mpr ⟨principal,asked,source,found,same ▸ mem_sortPermissions.mpr held⟩
    rw [nothing] at effective
    cases effective

/-- Every valid chain obeys the laws, whoever asks. -/
theorem resolver_laws (valid : Valid chain) : Laws chain subject where
  answered := resolve_linked valid.linked
  memberships teamIds same permission := by
    constructor
    · intro held
      exact @effective_mono chain ⟨subject.userId,teamIds⟩ subject.teamIds (fun team joined => (same team).mp joined) _ held
    · intro held
      exact effective_mono (fun team joined => (same team).mpr joined) held
  shuffled other alike := by
    have ids : other.map AclNode.id = chain.map AclNode.id := alike_map AclNode.id (fun _ _ same => same.id) alike
    have links := alike_map (fun node : AclNode => (node.id,node.parentId))
      (fun _ _ same => Prod.ext same.id same.parentId) alike
    rw [resolve,resolve,assertChain_congr links,resolution_congr valid.distinct (ids ▸ valid.distinct) ?_ ?_]
    · intro principal
      refine nearestGrant_congr (alike_grants valid.single alike principal)
    · intro sources _
      rw [find_id,find_id,ids]
  joined teamIds more := effective_mono more
  inserted front back node path bare fresh parent := by
    subst path
    have linked := assertChain_inserted valid.linked parent
    have distinct : ((front ++ node::under node.id back).map AclNode.id).Nodup := by
      rw [map_append,map_cons,ids_under]
      have old := valid.distinct
      rw [map_append] at old fresh
      exact nodup_middle.mpr (nodup_cons.mpr ⟨fresh,old⟩)
    rw [resolve_linked linked,resolve_linked valid.linked,resolution_congr valid.distinct distinct ?_ ?_]
    · intro principal
      rw [nearestGrant_append,nearestGrant_append,nearestGrant_map (node::under node.id back),map_cons,
        grantOn_without bare,grantOn_under,reverse_cons,findSome?_append,nearestGrant_map back]
      simp
    · intro sources inside
      have passed : (sources.map PrincipalSource.nodeId).contains node.id = false := by
        refine Bool.eq_false_iff.mpr (fun named => ?_)
        obtain ⟨source,member,same⟩ := mem_map.mp (contains_iff_mem.mp named)
        exact fresh (same ▸ inside source member)
      rw [find_id,find_id,map_append,map_append,map_cons,ids_under,reverse_append,
        reverse_append,reverse_cons,append_assoc,find?_append,find?_append,
        find?_append,find?_singleton,passed]
      rfl
  replaced front node back principal grants path kept other apart := by
    subst path
    refine nearestGrant_congr ?_
    rw [map_append,map_append,map_cons,map_cons]
    have same : grantOn { node with grants := grants } other = grantOn node other := by
      rw [grantOn,grantOn,find_other apart kept]
    rw [same]
  deepest id nearest := by
    change nearestSource chain _ = some id at nearest
    rw [nearestSource_eq valid.distinct] at nearest
    obtain ⟨node,found,rfl⟩ := map_eq_some_iff.mp nearest
    obtain ⟨taken,later,earlier,split,passed⟩ := find?_eq_some_iff_append.mp found
    refine ⟨earlier.reverse,node,later.reverse,?_,rfl,?_,?_⟩
    · rw [← reverse_reverse chain,split]
      simp
    · exact mem_map.mp (contains_iff_mem.mp taken)
    · intro source member inside
      obtain ⟨deeper,stored,same⟩ := mem_map.mp inside
      have absent := passed deeper (mem_reverse.mp stored)
      have named : ((principalsOf subject).filterMap (nearestGrant chain)).map PrincipalSource.nodeId |>.contains
          source.nodeId := contains_iff_mem.mpr (mem_map.mpr ⟨source,member,rfl⟩)
      rw [same,named] at absent
      cases absent
  unserved := nearest_none valid
  silent filled := by
    rw [nearest_none valid]
    exact effective_nil filled

def annex : List AclNode :=
  [⟨"s",none,[⟨.team "t",[.list]⟩]⟩,⟨"f",some "s",[⟨.user "u",[.read,.create]⟩]⟩]

theorem resolver_laws_annex : Laws annex ⟨"u",["t"]⟩ := resolver_laws ⟨rfl,by decide,by decide⟩

/-- A row without permissions is still a source. -/
theorem empty_grant_named : ¬∀ (chain : List AclNode) (subject : Subject), Valid chain →
    ((resolution chain subject).nearestSourceNodeId = none ↔ (resolution chain subject).effective = []) := by
  intro silent
  have named := (silent [⟨"s",none,[⟨.user "u",[]⟩]⟩] ⟨"u",[]⟩ ⟨rfl,by decide,by decide⟩).mpr rfl
  exact absurd named (by decide)

end Proofs

end Depsis.Authz

import Depsis.Permissions.Service

/-! The chains of `PermissionsService` against the stored tree: the walk up from a
folder is the path to its share, and what a subject may do is inherited along it.
-/
namespace Depsis.Permissions

open Depsis.Authz Depsis.Files Depsis.Foundation List

inductive Climbed (up : String → String → Prop) (grants : String → List Grant) : List AclNode → Prop
  | top {id : String} (root : ∀ parent, ¬up id parent) : Climbed up grants [⟨id,none,grants id⟩]
  | step {id : String} {upper : AclNode} {rest : List AclNode} (above : up id upper.id)
    (climbed : Climbed up grants (upper::rest)) : Climbed up grants (⟨id,some upper.id,grants id⟩::upper::rest)

def heldBy (grants : String → List Grant) (principal : Principal) (node : String) : Option Grant :=
  (grants node).find? (fun grant => grant.principal = principal)

def Entitled (up : String → String → Prop) (grants : String → List Grant) (node : String) (subject : Subject)
    (permission : Permission) : Prop :=
  ∃ principal ∈ principalsOf subject, ∃ grant, Inherits up (heldBy grants principal) node grant ∧
    permission ∈ grant.permissions

theorem Entitled.congr {up : String → String → Prop} {grants other : String → List Grant} {node : String}
    {subject : Subject} {permission : Permission}
    (same : ∀ upper, Relation.ReflTransGen up node upper → grants upper = other upper) :
    Entitled up grants node subject permission ↔ Entitled up other node subject permission := by
  have held (principal : Principal) (grant : Grant) : Inherits up (heldBy grants principal) node grant ↔
      Inherits up (heldBy other principal) node grant :=
    ⟨Inherits.congr (fun upper climbs => by rw [heldBy,heldBy,same upper climbs]),
      Inherits.congr (fun upper climbs => by rw [heldBy,heldBy,same upper climbs])⟩
  simp only [Entitled,held]

namespace Climbed

variable {up : String → String → Prop} {grants : String → List Grant} {nodes : List AclNode}

theorem path (climbed : Climbed up grants nodes) : Path up (nodes.map AclNode.id) := by
  induction climbed with
  | top root => exact .top root
  | step above _ ih => exact .step above ih

private theorem linked_append {previous : String} {rest : List AclNode} {node : AclNode}
    (ok : linked previous rest = .ok ())
    (next : node.parentId = some ((rest.getLast?.map AclNode.id).getD previous)) :
    linked previous (rest ++ [node]) = .ok () := by
  induction rest generalizing previous with
  | nil => simp_all [linked]
  | cons first rest ih =>
    simp only [linked] at ok
    split at ok
    next parent =>
      simp only [cons_append,linked,if_pos parent]
      refine ih ok (next.trans ?_)
      rw [getLast?_cons]
      cases rest.getLast? <;> rfl
    next => cases ok

theorem assertChain_reverse (climbed : Climbed up grants nodes) : assertChain nodes.reverse = .ok () := by
  induction climbed with
  | top => rfl
  | @step id upper rest above climbed ih =>
    rw [reverse_cons]
    obtain ⟨root,chain,turned⟩ : ∃ root chain, (upper::rest).reverse = root::chain :=
      exists_cons_of_ne_nil (by simp)
    have last : (chain.getLast?.map AclNode.id).getD root.id = upper.id := by
      have whole : (root::chain).getLast? = some upper := by rw [← turned]; simp
      rw [getLast?_cons] at whole
      cases final : chain.getLast? <;> simp_all
    rw [turned] at ih ⊢
    simp only [assertChain,cons_append] at ih ⊢
    split at ih
    next => cases ih
    next => exact linked_append ih (by rw [last])

theorem ends {first : AclNode} {rest : List AclNode} (side : String) :
    lastNodeId (first::rest).reverse side = .ok first.id := by
  simp [lastNodeId]

theorem own_grants (climbed : Climbed up grants nodes) : ∀ node ∈ nodes, node.grants = grants node.id := by
  induction climbed with
  | top => intro node member; cases mem_singleton.mp member; rfl
  | step _ _ ih =>
    intro node member
    rcases mem_cons.mp member with rfl | later
    · rfl
    · exact ih node later

private theorem nearest (own : ∀ node ∈ nodes, node.grants = grants node.id) (principal : Principal) :
    (nodes.findSome? (fun node => grantOn node principal)).map PrincipalSource.permissions =
      ((nodes.map AclNode.id).findSome? (heldBy grants principal)).map (fun grant => sortPermissions grant.permissions) := by
  induction nodes with
  | nil => rfl
  | cons node rest ih =>
    have here : grantOn node principal = (heldBy grants principal node.id).map
        (fun grant => ⟨principal,node.id,sortPermissions grant.permissions⟩) := by
      rw [grantOn,own node mem_cons_self]
      rfl
    simp only [map_cons,findSome?_cons,here]
    cases heldBy grants principal node.id with
    | none => exact ih (fun upper member => own upper (mem_cons_of_mem _ member))
    | some grant => rfl

theorem effective (forest : Forest up) {first : AclNode} {rest : List AclNode}
    (climbed : Climbed up grants (first::rest)) {subject : Subject} {permission : Permission} :
    permission ∈ (resolution (first::rest).reverse subject).effective ↔
      Entitled up grants first.id subject permission := by
  rw [mem_effective]
  refine exists_congr (fun principal => and_congr_right' ?_)
  have found := nearest climbed.own_grants principal
  rw [nearestGrant,reverse_reverse]
  constructor
  · rintro ⟨source,here,given⟩
    rw [here,Option.map_some] at found
    obtain ⟨grant,held,same⟩ := Option.map_eq_some_iff.mp found.symm
    rw [map_cons] at held
    refine ⟨grant,(Inherits.findSome?_iff forest climbed.path).mp held,?_⟩
    rwa [← same,mem_sortPermissions] at given
  · rintro ⟨grant,inherits,given⟩
    rw [map_cons,(Inherits.findSome?_iff forest climbed.path).mpr inherits,Option.map_some] at found
    obtain ⟨source,here,same⟩ := Option.map_eq_some_iff.mp found
    exact ⟨source,here,by rwa [same,mem_sortPermissions]⟩

end Climbed

inductive Placed (entries : List FileEntry) (organizationId shareId : String) : FileEntry → Nat → Prop
  | top {entry : FileEntry} (stored : entry ∈ entries) (owner : entry.organizationId = organizationId)
    (share : entry.shareId = shareId) (root : entry.parentId = none) : Placed entries organizationId shareId entry 0
  | inside {upper entry : FileEntry} {depth : Nat} (above : Placed entries organizationId shareId upper depth)
    (stored : entry ∈ entries) (owner : entry.organizationId = organizationId) (share : entry.shareId = shareId)
    (child : entry.parentId = some upper.id) : Placed entries organizationId shareId entry (depth + 1)

section Tree

variable {tables : Tables} {organizationId shareId : String} {entry : FileEntry} {depth : Nat}

theorem Placed.stored (placed : Placed tables.entries organizationId shareId entry depth) :
    entry ∈ tables.entries ∧ entry.organizationId = organizationId ∧ entry.shareId = shareId := by
  cases placed <;> exact ⟨by assumption,by assumption,by assumption⟩

theorem Placed.depth_unique {other : Nat} (placed : Placed tables.entries organizationId shareId entry depth)
    (again : Placed tables.entries organizationId shareId entry other) : depth = other := by
  induction placed generalizing other with
  | top _ _ _ root =>
    cases again with
    | top => rfl
    | inside _ _ _ _ child => rw [root] at child; cases child
  | @inside upper entry depth above _ _ _ child ih =>
    cases again with
    | top _ _ _ root => rw [root] at child; cases child
    | @inside upper _ further again _ _ _ hangs =>
      have same := Descent.entry_of_id tables.keyed above.stored.1 again.stored.1
        (Option.some.inj (child.symm.trans hangs))
      rw [ih (same ▸ again)]

theorem find_entry (stored : entry ∈ tables.entries) (owner : entry.organizationId = organizationId) :
    tables.entries.find? (fun other => other.organizationId = organizationId ∧ other.id = entry.id) = some entry := by
  cases found : tables.entries.find? (fun other => other.organizationId = organizationId ∧ other.id = entry.id) with
  | none => exact absurd (find?_eq_none.mp found entry stored) (by simp [owner])
  | some other =>
    have test := find?_some found
    simp only [decide_eq_true_eq] at test
    rw [Descent.entry_of_id tables.keyed (mem_of_find?_eq_some found) stored test.2]

def Shared (tables : Tables) (shareId : String) : Prop := ∃ share ∈ tables.shares, share.id = shareId

theorem root_of_shared (shared : Shared tables shareId) (parent : String) :
    ¬Under tables.entries shareId shareId parent := by
  rintro ⟨entry,stored,same,_⟩
  obtain ⟨share,held,rfl⟩ := shared
  exact tables.apart share held entry stored same

def chainNodes (shareId : String) (rows : List NodeRow) (grants : String → List Grant) : List AclNode :=
  rows.map (fun row => ⟨row.id,some (row.parentId.getD shareId),grants row.id⟩) ++ [⟨shareId,none,grants shareId⟩]

theorem buildChain_reverse (rows : List NodeRow) (grants : String → List Grant) :
    buildChain shareId rows.reverse grants = (chainNodes shareId rows grants).reverse := by
  simp [buildChain,chainNodes]

theorem ups_climbed (shared : Shared tables shareId) (grants : String → List Grant)
    (placed : Placed tables.entries organizationId shareId entry depth) {steps : Nat} (room : depth ≤ steps) :
    ∃ rows top, ups tables.entries organizationId steps entry.id = ⟨entry.id,entry.parentId⟩::rows ∧
      (ups tables.entries organizationId steps entry.id).getLast? = some top ∧ top.parentId = none ∧
      Climbed (Under tables.entries shareId) grants
        (chainNodes shareId (ups tables.entries organizationId steps entry.id) grants) := by
  have under {entry : FileEntry} (stored : entry ∈ tables.entries) :
      Under tables.entries shareId entry.id (entry.parentId.getD shareId) := ⟨entry,stored,rfl,rfl⟩
  induction placed generalizing steps with
  | @top entry stored owner share root =>
    have rows : ups tables.entries organizationId steps entry.id = [⟨entry.id,none⟩] := by
      unfold ups
      simp only [find_entry stored owner,root]
    refine ⟨[],⟨entry.id,none⟩,by rw [rows,root],by rw [rows]; rfl,rfl,?_⟩
    rw [rows]
    have step := under stored
    rw [root] at step
    exact @Climbed.step _ _ _ ⟨shareId,none,grants shareId⟩ _ step (.top (root_of_shared shared))
  | @inside upper entry depth above stored owner share child ih =>
    obtain ⟨steps,rfl⟩ : ∃ further, steps = further + 1 := ⟨steps - 1,by omega⟩
    obtain ⟨rows,top,first,last,root,climbed⟩ := @ih steps (by omega)
    have longer : ups tables.entries organizationId (steps + 1) entry.id =
        ⟨entry.id,entry.parentId⟩::ups tables.entries organizationId steps upper.id := by
      rw [ups]
      simp only [find_entry stored owner,child]
    refine ⟨_,top,longer,?_,root,?_⟩
    · rw [longer,getLast?_cons,last,Option.getD_some]
    · rw [longer,child]
      rw [first] at climbed ⊢
      have step := under stored
      rw [child] at step
      exact .step step climbed

def ShareTree (tables : Tables) (organizationId : String) : Prop :=
  ∀ entry ∈ tables.entries, entry.organizationId = organizationId →
    Shared tables entry.shareId ∧ ∃ depth ≤ MAX_TREE_DEPTH,
      Placed tables.entries organizationId entry.shareId entry depth

theorem ancestorRows_placed (shared : Shared tables shareId)
    (placed : Placed tables.entries organizationId shareId entry depth) (room : depth ≤ MAX_TREE_DEPTH)
    {isFolder : Bool} : ancestorRows tables organizationId ⟨shareId,some entry.id,isFolder⟩ =
      .ok (ups tables.entries organizationId MAX_TREE_DEPTH entry.id).reverse := by
  obtain ⟨rows,top,_,last,root,_⟩ := ups_climbed shared (fun _ => []) placed room
  simp only [ancestorRows,head?_reverse,last,root,if_true]

end Tree

section Grants

def Readable (row : GrantRow) : Prop := ∃ grant, readGrant row = .ok grant

def grantsOn (rows : List GrantRow) (shareId node : String) : List Grant :=
  (rows.filter (fun row => nodeOf shareId row = node)).filterMap (fun row => (readGrant row).toOption)

theorem mapM_readable {Source Target Failure : Type*} {step : Source → Except Failure Target} {items : List Source}
    {answers : List Target} (done : items.mapM step = .ok answers) : ∀ item ∈ items, ∃ answer, step item = .ok answer := by
  induction items generalizing answers with
  | nil => exact fun _ member => nomatch member
  | cons item rest ih =>
    rw [mapM_cons] at done
    cases first : step item with
    | error => rw [first] at done; cases done
    | ok answer =>
      cases later : rest.mapM step with
      | error => rw [first,later] at done; cases done
      | ok further =>
        intro other member
        rcases mem_cons.mp member with rfl | member
        · exact ⟨answer,first⟩
        · exact ih later other member

theorem groupGrants_readable {rows : List GrantRow} {shareId : String} {grants : String → List Grant}
    (grouped : groupGrants rows shareId = .ok grants) : ∀ row ∈ rows, Readable row := by
  intro row member
  unfold groupGrants at grouped
  cases read : rows.mapM (fun row => (readGrant row).map (fun grant => (nodeOf shareId row,grant))) with
  | error => rw [read] at grouped; cases grouped
  | ok =>
    obtain ⟨answer,made⟩ := mapM_readable read row member
    cases here : readGrant row with
    | error => rw [here] at made; cases made
    | ok grant => exact ⟨grant,here⟩

theorem groupGrants_ok {rows : List GrantRow} {shareId : String} (readable : ∀ row ∈ rows, Readable row) :
    groupGrants rows shareId = .ok (grantsOn rows shareId) := by
  let answer (row : GrantRow) : Grant := (readGrant row).toOption.getD ⟨.team "",[]⟩
  have reads (row : GrantRow) (member : row ∈ rows) : readGrant row = .ok (answer row) := by
    obtain ⟨grant,read⟩ := readable row member
    simp [answer,read,Except.toOption]
  rw [groupGrants,mapM_ok (fun row => (nodeOf shareId row,answer row))
    (fun row member => by rw [reads row member]; rfl)]
  refine congrArg Except.ok (funext (fun node => ?_))
  simp only [grantsOn,filter_map,map_map]
  have kept : ∀ row ∈ rows.filter (fun row => nodeOf shareId row = node), (readGrant row).toOption = some (answer row) := by
    intro row member
    rw [reads row (mem_filter.mp member).1]
    rfl
  rw [filterMap_congr kept,filterMap_eq_map']
  rfl

def shareGrants (grants : List GrantRow) (organizationId shareId : String) : String → List Grant :=
  grantsOn (grants.filter (fun row => row.organizationId = organizationId ∧ row.shareId = shareId)) shareId

theorem grantsOn_grantRows {tables : Tables} {organizationId shareId : String} {ids : List String} {node : String}
    (shared : Shared tables shareId) (listed : node = shareId ∨ node ∈ ids) :
    grantsOn (grantRows tables.grants organizationId shareId ids) shareId node =
      shareGrants tables.grants organizationId shareId node := by
  unfold shareGrants grantsOn grantRows
  rw [filter_filter,filter_filter]
  refine congrArg _ (filter_congr (fun row member => ?_))
  rw [Bool.eq_iff_iff]
  simp only [Bool.and_eq_true,decide_eq_true_eq,selects_iff]
  constructor
  · rintro ⟨on,owner,share,_⟩
    exact ⟨on,owner,share⟩
  · rintro ⟨on,owner,share⟩
    refine ⟨on,owner,share,fun id entry => ?_⟩
    rw [nodeOf,entry,Option.getD_some] at on
    subst on
    rcases listed with root | inside
    · have referenced := tables.referenced row member
      simp only [entry,Option.all_some,any_eq_true,decide_eq_true_eq] at referenced
      obtain ⟨stored,held,same⟩ := referenced
      obtain ⟨owned,kept,rfl⟩ := shared
      exact absurd (same.trans root) (tables.apart owned kept stored held)
    · exact inside

theorem readable_of_more {grants : List GrantRow} {organizationId shareId : String} {ids more : List String}
    (fewer : ∀ id ∈ ids, id ∈ more)
    (readable : ∀ row ∈ grantRows grants organizationId shareId more, Readable row) :
    ∀ row ∈ grantRows grants organizationId shareId ids, Readable row := by
  intro row member
  obtain ⟨stored,test⟩ := mem_filter.mp member
  obtain ⟨owner,share,inside⟩ := selects_iff.mp test
  exact readable row (mem_filter.mpr
    ⟨stored,selects_iff.mpr ⟨owner,share,fun id entry => fewer id (inside id entry)⟩⟩)

end Grants

section Resolving

variable {tables : Tables} {organizationId shareId : String} {entry : FileEntry} {depth : Nat}

theorem mem_ups (shared : Shared tables shareId)
    (placed : Placed tables.entries organizationId shareId entry depth) (room : depth ≤ MAX_TREE_DEPTH) {upper : String} :
    Relation.ReflTransGen (Under tables.entries shareId) entry.id upper ↔
      upper ∈ (ups tables.entries organizationId MAX_TREE_DEPTH entry.id).map NodeRow.id ∨ upper = shareId := by
  obtain ⟨rows,_,first,_,_,climbed⟩ := ups_climbed shared (fun _ => []) placed room
  have path := climbed.path
  have ids : (chainNodes shareId (ups tables.entries organizationId MAX_TREE_DEPTH entry.id) (fun _ => [])).map AclNode.id =
      (ups tables.entries organizationId MAX_TREE_DEPTH entry.id).map NodeRow.id ++ [shareId] := by
    simp [chainNodes,Function.comp_def]
  rw [ids] at path
  have whole : ∃ rest, (ups tables.entries organizationId MAX_TREE_DEPTH entry.id).map NodeRow.id ++ [shareId] =
      entry.id::rest := by
    rw [first]
    exact ⟨_,rfl⟩
  obtain ⟨rest,split⟩ := whole
  rw [split] at path
  rw [← path.mem_iff (under_forest tables.keyed),← split,mem_append,mem_singleton]

theorem resolveAt_entry (shared : Shared tables shareId)
    (placed : Placed tables.entries organizationId shareId entry depth) (room : depth ≤ MAX_TREE_DEPTH)
    (readable : ∀ row ∈ grantRows tables.grants organizationId shareId
      ((ups tables.entries organizationId MAX_TREE_DEPTH entry.id).map NodeRow.id), Readable row) (subject : Subject) :
    ∃ resolution, resolveAt tables organizationId (.entry entry.id) subject = .ok resolution ∧
      ∀ permission, permission ∈ resolution.effective ↔ Entitled (Under tables.entries shareId)
        (shareGrants tables.grants organizationId shareId) entry.id subject permission := by
  obtain ⟨stored,owner,share⟩ := placed.stored
  have target : locate tables organizationId (.entry entry.id) =
      .ok ⟨shareId,some entry.id,decide (entry.kind = .folder)⟩ := by
    simp only [locate,find_entry stored owner,share]
  have ids : (ups tables.entries organizationId MAX_TREE_DEPTH entry.id).reverse.map NodeRow.id =
      ((ups tables.entries organizationId MAX_TREE_DEPTH entry.id).map NodeRow.id).reverse := map_reverse
  have grouped : groupGrants (grantRows tables.grants organizationId shareId
      ((ups tables.entries organizationId MAX_TREE_DEPTH entry.id).reverse.map NodeRow.id)) shareId = .ok (grantsOn
        (grantRows tables.grants organizationId shareId
          ((ups tables.entries organizationId MAX_TREE_DEPTH entry.id).reverse.map NodeRow.id)) shareId) :=
    groupGrants_ok (readable_of_more (fun id member => by rw [ids] at member; exact mem_reverse.mp member) readable)
  generalize same : grantsOn (grantRows tables.grants organizationId shareId
    ((ups tables.entries organizationId MAX_TREE_DEPTH entry.id).reverse.map NodeRow.id)) shareId = grants at grouped
  obtain ⟨rows,top,first,_,_,climbed⟩ := ups_climbed shared grants placed room
  refine ⟨resolution (buildChain shareId (ups tables.entries organizationId MAX_TREE_DEPTH entry.id).reverse grants) subject,
    ?_,fun permission => ?_⟩
  · rw [resolveAt,target]
    simp only [bind,Except.bind,ancestorRows_placed shared placed room,grouped,resolved]
    rw [resolve_linked (by rw [buildChain_reverse]; exact climbed.assertChain_reverse)]
    rfl
  · rw [buildChain_reverse]
    rw [first] at climbed ⊢
    refine (climbed.effective (under_forest tables.keyed)).trans (Entitled.congr (fun upper climbs => ?_))
    rw [← same,grantsOn_grantRows shared]
    rcases (mem_ups shared placed room).mp climbs with inside | root
    · exact .inr (by rw [ids]; exact mem_reverse.mpr inside)
    · exact .inl root

theorem resolveAt_share (owned : ∃ share ∈ tables.shares, share.organizationId = organizationId ∧ share.id = shareId)
    (readable : ∀ row ∈ grantRows tables.grants organizationId shareId [], Readable row) (subject : Subject) :
    ∃ resolution, resolveAt tables organizationId (.share shareId) subject = .ok resolution ∧
      ∀ permission, permission ∈ resolution.effective ↔ Entitled (Under tables.entries shareId)
        (shareGrants tables.grants organizationId shareId) shareId subject permission := by
  obtain ⟨share,held,owner,id⟩ := owned
  have shared : Shared tables shareId := ⟨share,held,id⟩
  have target : locate tables organizationId (.share shareId) = .ok ⟨shareId,none,true⟩ := by
    cases found : tables.shares.find? (fun share => share.organizationId = organizationId ∧ share.id = shareId) with
    | none => exact absurd (find?_eq_none.mp found share held) (by simp [owner,id])
    | some other =>
      have test := find?_some found
      simp only [decide_eq_true_eq] at test
      simp only [locate,found,test.2]
  generalize same : grantsOn (grantRows tables.grants organizationId shareId []) shareId = grants
  have grouped : groupGrants (grantRows tables.grants organizationId shareId []) shareId = .ok grants :=
    same ▸ groupGrants_ok readable
  have climbed : Climbed (Under tables.entries shareId) grants [⟨shareId,none,grants shareId⟩] :=
    .top (root_of_shared shared)
  refine ⟨resolution [⟨shareId,none,grants shareId⟩] subject,?_,fun permission => ?_⟩
  · rw [resolveAt,target]
    simp only [bind,Except.bind,ancestorRows,map_nil,grouped,resolved]
    change Except.mapError _ (resolve [⟨shareId,none,grants shareId⟩] subject) = _
    have linked : assertChain [⟨shareId,none,grants shareId⟩] = .ok () := climbed.assertChain_reverse
    rw [resolve_linked linked]
    rfl
  · refine (climbed.effective (under_forest tables.keyed)).trans (Entitled.congr (fun upper climbs => ?_))
    have root : upper = shareId := by
      rcases Relation.ReflTransGen.cases_head climbs with same | ⟨parent,above,_⟩
      · exact same.symm
      · exact absurd above (root_of_shared shared parent)
    rw [← same,grantsOn_grantRows shared (.inl root)]

end Resolving

end Depsis.Permissions

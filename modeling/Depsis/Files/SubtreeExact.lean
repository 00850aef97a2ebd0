import Depsis.Files.SubtreeAccess
import Mathlib.Data.List.Find

/-! The chains of `accessFor` are the full ones of the stored tree, and below a node
that holds a permission only a node with a grant row can lack it: the check of a
subtree answers what the resolver answers node by node.
-/
namespace Depsis.Files.SubtreeAccess

open Depsis.Authz Depsis.Permissions Depsis.Foundation Relation List AList

def pathUp (tables : Tables) (organizationId id : String) : List NodeRow :=
  ups tables.entries organizationId tables.entries.length id

def grantsFor (tables : Tables) (caller : Caller) (shareId target node : String) : List Grant :=
  syntheticGrants caller (decide (node = target)) ++ shareGrants tables.grants caller.organizationId shareId node

def fullChain (tables : Tables) (caller : Caller) (shareId id : String) : List AclNode :=
  buildChain shareId (pathUp tables caller.organizationId id).reverse (grantsFor tables caller shareId id)

def Granted (tables : Tables) (caller : Caller) (shareId : String) (permission : Permission) (id : String) : Prop :=
  ∃ answer, resolve (fullChain tables caller shareId id) (subjectOf tables caller.organizationId caller.userId) =
    .ok answer ∧ permission ∈ answer.effective

section Paths

variable {tables : Tables} {organizationId shareId : String} {entry : FileEntry} {depth : Nat}

private theorem placed_path (shared : Shared tables shareId)
    (placed : Permissions.Placed tables.entries organizationId shareId entry depth) :
    ∃ rest, Path (Under tables.entries shareId) (entry.id::rest) ∧ rest.length = depth + 1 ∧
      ∀ id ∈ entry.id::rest, id ∈ shareId::tables.entries.map FileEntry.id := by
  have under {entry : FileEntry} (stored : entry ∈ tables.entries) :
      Under tables.entries shareId entry.id (entry.parentId.getD shareId) := ⟨entry,stored,rfl,rfl⟩
  induction placed with
  | @top entry stored owner share root =>
    have step := under stored
    rw [root] at step
    refine ⟨[shareId],.step step (.top (root_of_shared shared)),rfl,?_⟩
    intro id member
    rcases mem_cons.mp member with rfl | last
    · exact mem_cons_of_mem _ (mem_map_of_mem stored)
    · exact mem_cons.mpr (.inl (mem_singleton.mp last))
  | @inside upper entry depth above stored owner share child ih =>
    obtain ⟨rest,path,long,inside⟩ := ih
    have step := under stored
    rw [child] at step
    refine ⟨upper.id::rest,.step step path,by rw [length_cons,long],?_⟩
    intro id member
    rcases mem_cons.mp member with rfl | later
    · exact mem_cons_of_mem _ (mem_map_of_mem stored)
    · exact inside id later

theorem depth_lt (shared : Shared tables shareId)
    (placed : Permissions.Placed tables.entries organizationId shareId entry depth) : depth < tables.entries.length := by
  obtain ⟨rest,path,long,inside⟩ := placed_path shared placed
  have count := List.Nodup.length_le_of_subset (path.nodup (under_forest tables.keyed)) inside
  simp only [length_cons,length_map,long] at count
  omega

theorem ups_top {steps : Nat} (stored : entry ∈ tables.entries) (owner : entry.organizationId = organizationId)
    (root : entry.parentId = none) : ups tables.entries organizationId steps entry.id = [nodeRow entry] := by
  unfold ups
  simp only [find_entry stored owner,root,nodeRow]

theorem ups_inside {steps : Nat} {upper : String} (stored : entry ∈ tables.entries)
    (owner : entry.organizationId = organizationId) (child : entry.parentId = some upper) :
    ups tables.entries organizationId (steps + 1) entry.id =
      nodeRow entry::ups tables.entries organizationId steps upper := by
  rw [ups]
  simp only [find_entry stored owner,child,nodeRow]

theorem ups_steps (placed : Permissions.Placed tables.entries organizationId shareId entry depth) {steps more : Nat}
    (room : depth ≤ steps) (further : depth ≤ more) :
    ups tables.entries organizationId steps entry.id = ups tables.entries organizationId more entry.id := by
  induction placed generalizing steps more with
  | top stored owner share root => rw [ups_top stored owner root,ups_top stored owner root]
  | @inside upper entry depth above stored owner share child ih =>
    obtain ⟨steps,rfl⟩ : ∃ fewer, steps = fewer + 1 := ⟨steps - 1,by omega⟩
    obtain ⟨more,rfl⟩ : ∃ fewer, more = fewer + 1 := ⟨more - 1,by omega⟩
    rw [ups_inside stored owner child,ups_inside stored owner child,@ih steps more (by omega) (by omega)]

theorem pathUp_top (stored : entry ∈ tables.entries) (owner : entry.organizationId = organizationId)
    (root : entry.parentId = none) : pathUp tables organizationId entry.id = [nodeRow entry] := ups_top stored owner root

theorem pathUp_inside {upper : FileEntry} (shared : Shared tables shareId)
    (above : Permissions.Placed tables.entries organizationId shareId upper depth) (stored : entry ∈ tables.entries)
    (owner : entry.organizationId = organizationId) (share : entry.shareId = shareId)
    (child : entry.parentId = some upper.id) :
    pathUp tables organizationId entry.id = nodeRow entry::pathUp tables organizationId upper.id := by
  have room := depth_lt shared (.inside above stored owner share child)
  have enough := ups_steps above (by omega : depth ≤ tables.entries.length - 1) (by omega : depth ≤ tables.entries.length)
  rw [pathUp,pathUp,← enough,← ups_inside stored owner child]
  congr 1
  omega

theorem pathUp_length (shared : Shared tables shareId)
    (placed : Permissions.Placed tables.entries organizationId shareId entry depth) :
    (pathUp tables organizationId entry.id).length = depth + 1 := by
  induction placed with
  | top stored owner share root => rw [pathUp_top stored owner root]; rfl
  | inside above stored owner share child ih =>
    rw [pathUp_inside shared above stored owner share child,length_cons,ih]

private theorem pathUp_climbed (shared : Shared tables shareId)
    (placed : Permissions.Placed tables.entries organizationId shareId entry depth) (grants : String → List Grant) :
    ∃ rows, pathUp tables organizationId entry.id = nodeRow entry::rows ∧
      Climbed (Under tables.entries shareId) grants
        (chainNodes shareId (pathUp tables organizationId entry.id) grants) := by
  have room := depth_lt shared placed
  obtain ⟨rows,_,first,_,_,climbed⟩ :=
    ups_climbed shared grants placed (by omega : depth ≤ tables.entries.length)
  exact ⟨rows,first,climbed⟩

theorem pathUp_nodup (shared : Shared tables shareId)
    (placed : Permissions.Placed tables.entries organizationId shareId entry depth) :
    ((pathUp tables organizationId entry.id).map NodeRow.id).Nodup := by
  obtain ⟨rows,_,climbed⟩ := pathUp_climbed shared placed (fun _ => [])
  have distinct := climbed.path.nodup (under_forest tables.keyed)
  rw [ids_chainNodes] at distinct
  exact (nodup_append.mp distinct).1

theorem mem_pathUp (shared : Shared tables shareId)
    (placed : Permissions.Placed tables.entries organizationId shareId entry depth) {upper : String}
    (climbs : ReflTransGen (Under tables.entries shareId) entry.id upper) :
    upper ∈ (pathUp tables organizationId entry.id).map NodeRow.id ∨ upper = shareId := by
  obtain ⟨rows,first,climbed⟩ := pathUp_climbed shared placed (fun _ => [])
  have path := climbed.path
  rw [ids_chainNodes,first] at path
  have listed : upper ∈ (nodeRow entry::rows).map NodeRow.id ++ [shareId] :=
    (path.mem_iff (under_forest tables.keyed)).mpr climbs
  rw [first]
  rcases mem_append.mp listed with inside | top
  · exact .inl inside
  · exact .inr (mem_singleton.mp top)

theorem resolve_path (shared : Shared tables shareId)
    (placed : Permissions.Placed tables.entries organizationId shareId entry depth) (grants : String → List Grant)
    (subject : Subject) : ∃ answer,
      resolve (buildChain shareId (pathUp tables organizationId entry.id).reverse grants) subject = .ok answer ∧
      ∀ permission, permission ∈ answer.effective ↔
        Entitled (Under tables.entries shareId) grants entry.id subject permission := by
  obtain ⟨rows,first,climbed⟩ := pathUp_climbed shared placed grants
  rw [buildChain_reverse]
  refine ⟨_,resolve_linked climbed.assertChain_reverse,fun permission => ?_⟩
  rw [first] at climbed ⊢
  exact climbed.effective (under_forest tables.keyed)

end Paths

section Ancestry

variable {tables : Tables} {organizationId shareId : String} {targets : List String} {entry : FileEntry} {depth : Nat}

theorem isNamed_iff : isNamed organizationId shareId targets entry = true ↔
    entry.organizationId = organizationId ∧ entry.shareId = shareId ∧ entry.id ∈ targets := by
  simp [isNamed,and_assoc]

theorem mem_parentRows {entries : List FileEntry} {row above : NodeRow} :
    above ∈ parentRows entries organizationId shareId row ↔ ∃ entry ∈ entries,
      entry.organizationId = organizationId ∧ entry.shareId = shareId ∧ row.parentId = some entry.id ∧
        nodeRow entry = above := by
  simp only [parentRows,mem_map,mem_filter,isNamed_iff,Option.mem_toList,and_assoc]

theorem mem_ancestry {entries : List FileEntry} {row : NodeRow} : row ∈ ancestry entries organizationId shareId targets ↔
    ∃ entry ∈ entries, entry.organizationId = organizationId ∧ entry.shareId = shareId ∧ entry.id ∈ targets ∧
      ReflTransGen (Reach.Next (parentRows entries organizationId shareId)) (nodeRow entry) row := by
  have closed : ∀ node ∈ entries.map nodeRow, ∀ other ∈ parentRows entries organizationId shareId node,
      other ∈ entries.map nodeRow := by
    intro node _ other member
    obtain ⟨entry,stored,_,_,_,rfl⟩ := mem_parentRows.mp member
    exact mem_map_of_mem stored
  have listed : ∀ node ∈ (entries.filter (isNamed organizationId shareId targets)).map nodeRow,
      node ∈ entries.map nodeRow := by
    intro node member
    obtain ⟨entry,kept,rfl⟩ := mem_map.mp member
    exact mem_map_of_mem (mem_filter.mp kept).1
  rw [ancestry,Reach.mem_reach closed listed (by rw [length_map])]
  constructor
  · rintro ⟨top,member,path⟩
    obtain ⟨entry,kept,rfl⟩ := mem_map.mp member
    obtain ⟨stored,test⟩ := mem_filter.mp kept
    obtain ⟨owner,share,target⟩ := isNamed_iff.mp test
    exact ⟨entry,stored,owner,share,target,path⟩
  · rintro ⟨entry,stored,owner,share,target,path⟩
    exact ⟨nodeRow entry,mem_map_of_mem (mem_filter.mpr ⟨stored,isNamed_iff.mpr ⟨owner,share,target⟩⟩),path⟩

theorem ancestry_stored {entries : List FileEntry} {row : NodeRow}
    (member : row ∈ ancestry entries organizationId shareId targets) :
    ∃ entry ∈ entries, entry.organizationId = organizationId ∧ entry.shareId = shareId ∧ nodeRow entry = row := by
  obtain ⟨entry,stored,owner,share,_,path⟩ := mem_ancestry.mp member
  rcases ReflTransGen.cases_tail path with same | ⟨last,_,after⟩
  · exact ⟨entry,stored,owner,share,same.symm⟩
  · obtain ⟨upper,held,owner,share,_,same⟩ := mem_parentRows.mp after
    exact ⟨upper,held,owner,share,same⟩

theorem pathUp_ancestry (shared : Shared tables shareId) (placed : Permissions.Placed tables.entries organizationId shareId entry depth)
    (above : nodeRow entry ∈ ancestry tables.entries organizationId shareId targets) :
    ∀ row ∈ pathUp tables organizationId entry.id, row ∈ ancestry tables.entries organizationId shareId targets := by
  induction placed with
  | top stored owner share root =>
    intro row member
    rw [pathUp_top stored owner root] at member
    exact (mem_singleton.mp member) ▸ above
  | @inside upper entry depth placed stored owner share child ih =>
    intro row member
    rw [pathUp_inside shared placed stored owner share child] at member
    rcases mem_cons.mp member with rfl | later
    · exact above
    · refine ih ?_ row later
      obtain ⟨first,held,owned,shared,target,path⟩ := mem_ancestry.mp above
      obtain ⟨kept,owner,share⟩ := placed.stored
      exact mem_ancestry.mpr ⟨first,held,owned,shared,target,
        path.tail (mem_parentRows.mpr ⟨upper,kept,owner,share,child,rfl⟩)⟩

variable {caller : Caller}

theorem parentsOf_row {row : NodeRow}
    (member : row ∈ ancestry tables.entries caller.organizationId shareId targets) :
    (parentsOf tables caller shareId targets).lookup row.id = some row.parentId := by
  refine lookup_fill_agree (mem_map.mpr ⟨_,mem_map_of_mem member,rfl⟩) (fun other listed => ?_)
  obtain ⟨twin,also,same⟩ := mem_map.mp listed
  obtain ⟨entry,stored,_,_,rfl⟩ := ancestry_stored member
  obtain ⟨second,held,_,_,rfl⟩ := ancestry_stored also
  cases Descent.entry_of_id tables.keyed held stored (congrArg Prod.fst same)
  exact (congrArg Prod.snd same).symm

theorem parentsOf_some {id : String} {parent : Option String}
    (found : (parentsOf tables caller shareId targets).lookup id = some parent) :
    ⟨id,parent⟩ ∈ ancestry tables.entries caller.organizationId shareId targets := by
  rcases lookup_fill_some found with listed | before
  · obtain ⟨row,member,same⟩ := mem_map.mp listed
    cases same
    exact member
  · cases before

end Ancestry

section Climbing

variable {tables : Tables} {caller : Caller} {shareId : String} {entry : FileEntry} {depth : Nat}
  {granted : Table String (List Grant)} {parentOf : Table String (Option String)} {target : String}

def grantsSeen (caller : Caller) (granted : Table String (List Grant)) (shareId target node : String) : List Grant :=
  syntheticGrants caller (decide (node = target)) ++
    (granted.lookup (if node = shareId then ROOT else node)).getD []

private theorem climb_eq (shared : Shared tables shareId)
    (placed : Permissions.Placed tables.entries caller.organizationId shareId entry depth) {steps : Nat} (room : depth < steps)
    (loaded : ∀ row ∈ pathUp tables caller.organizationId entry.id, parentOf.lookup row.id = some row.parentId) :
    climb target shareId parentOf granted caller steps entry.id =
      some ((pathUp tables caller.organizationId entry.id).map
        (fun row => ⟨row.id,some (row.parentId.getD shareId),grantsSeen caller granted shareId target row.id⟩)) := by
  have seen {entry : FileEntry} (stored : entry ∈ tables.entries) : grantsSeen caller granted shareId target entry.id =
      syntheticGrants caller (decide (entry.id = target)) ++ (granted.lookup entry.id).getD [] := by
    obtain ⟨share,held,rfl⟩ := shared
    rw [grantsSeen,if_neg (tables.apart share held entry stored)]
  induction placed generalizing steps with
  | @top entry stored owner share root =>
    obtain ⟨steps,rfl⟩ : ∃ fewer, steps = fewer + 1 := ⟨steps - 1,by omega⟩
    rw [pathUp_top stored owner root] at loaded ⊢
    have here : parentOf.lookup entry.id = some none := by
      have known := loaded _ mem_cons_self
      rwa [nodeRow,root] at known
    simp only [climb,here,nodeRow,root,map_cons,map_nil,seen stored]
  | @inside upper entry depth above stored owner share child ih =>
    obtain ⟨steps,rfl⟩ : ∃ fewer, steps = fewer + 1 := ⟨steps - 1,by omega⟩
    rw [pathUp_inside shared above stored owner share child] at loaded ⊢
    have here : parentOf.lookup entry.id = some (some upper.id) := by
      have known := loaded _ mem_cons_self
      rwa [nodeRow,child] at known
    have further := @ih steps (by omega) (fun row member => loaded row (mem_cons_of_mem _ member))
    simp only [climb,here,further,nodeRow,child,map_cons,Option.map_some,seen stored]

theorem chainTo_path (shared : Shared tables shareId)
    (placed : Permissions.Placed tables.entries caller.organizationId shareId entry depth)
    (loaded : ∀ row ∈ pathUp tables caller.organizationId entry.id, parentOf.lookup row.id = some row.parentId) :
    chainTo (some entry.id) shareId parentOf granted caller = some
      (buildChain shareId (pathUp tables caller.organizationId entry.id).reverse
        (grantsSeen caller granted shareId entry.id)) := by
  have room : depth < parentOf.size + 1 := by
    have count := length_le_size (pathUp_nodup shared placed) (fun key member => by
      obtain ⟨row,listed,rfl⟩ := mem_map.mp member
      rw [loaded row listed]
      rfl)
    rw [length_map,pathUp_length shared placed] at count
    omega
  have top : syntheticGrants caller (some entry.id).isNone ++ (granted.lookup ROOT).getD [] =
      grantsSeen caller granted shareId entry.id shareId := by
    obtain ⟨share,held,rfl⟩ := shared
    have apart : share.id ≠ entry.id := fun same => tables.apart share held entry placed.stored.1 same.symm
    rw [grantsSeen,if_pos rfl,decide_eq_false apart,Option.isNone_some]
  simp only [chainTo,climb_eq shared placed room loaded,top,Option.map_some,buildChain,map_reverse]

end Climbing

section Grants

variable {caller : Caller} {shareId : String}

theorem lookup_groupByKey (rows : List GrantRow) (key : String) :
    ((groupByKey rows).lookup key).getD [] = ((rows.filterMap keyedGrant).filter (fun entry => entry.1 = key)).map Prod.snd := by
  have folded (entries : List (String × Grant)) (granted : Table String (List Grant)) :
      ((entries.foldl pushGrant granted).lookup key).getD [] =
        (granted.lookup key).getD [] ++ (entries.filter (fun entry => entry.1 = key)).map Prod.snd := by
    induction entries generalizing granted with
    | nil => simp
    | cons entry rest ih =>
      rw [foldl_cons,ih,filter_cons,pushGrant]
      by_cases same : entry.1 = key
      · subst same
        simp
      · simp [same,lookup_insert_ne (Ne.symm same)]
  exact folded _ ∅

theorem keyedGrant_stored (tables : Stored) {row : GrantRow} (member : row ∈ tables.grants) :
    ∃ grant, keyedGrant row = some (row.entryId.getD ROOT,grant) ∧ readGrant row = .ok grant ∧
      principalOf row = some grant.principal := by
  obtain ⟨permissions,read,kept⟩ : ∃ permissions, readPermissions row.permissions = .ok permissions ∧
      row.permissions.filterMap asPermission = permissions := by
    have known := tables.known row member
    generalize row.permissions = names at known
    induction names with
    | nil => exact ⟨[],rfl,rfl⟩
    | cons name rest ih =>
      obtain ⟨permissions,read,kept⟩ := ih (fun other later => known other (mem_cons_of_mem _ later))
      obtain ⟨permission,here⟩ := Option.isSome_iff_exists.mp (known name mem_cons_self)
      refine ⟨permission::permissions,?_,by rw [filterMap_cons,here,kept]⟩
      rw [readPermissions] at read ⊢
      rw [mapM_cons,read,here]
      rfl
  obtain ⟨name,listed⟩ := exists_mem_of_ne_nil _ (tables.notEmpty row member)
  obtain ⟨permission,here⟩ := Option.isSome_iff_exists.mp (tables.known row member name listed)
  have given : permission ∈ permissions := kept ▸ mem_filterMap.mpr ⟨name,listed,here⟩
  obtain ⟨first,more,rfl⟩ := exists_cons_of_ne_nil (ne_nil_of_mem given)
  have one := tables.onePrincipal row member
  have answer : readGrant row = .ok ⟨Permissions.principalOf row.userId row.teamId,first::more⟩ := by
    rw [readGrant,read]
    rfl
  refine ⟨_,?_,answer,?_⟩
  · unfold keyedGrant principalOf Permissions.principalOf
    cases user : row.userId with
    | some id => simp only [kept]
    | none =>
      cases team : row.teamId with
      | some id => simp only [kept,Option.getD_some]
      | none => simp [user,team] at one
  · unfold principalOf Permissions.principalOf
    cases user : row.userId with
    | some id => rfl
    | none =>
      cases team : row.teamId with
      | some id => rfl
      | none => simp [user,team] at one

theorem isOwn_iff (tables : Stored) {row : GrantRow} (member : row ∈ tables.grants) {principal : Principal}
    (names : principalOf row = some principal) {teamIds ids : List String} :
    isOwn caller shareId teamIds ids row = true ↔ row.organizationId = caller.organizationId ∧ row.shareId = shareId ∧
      (∀ id, row.entryId = some id → id ∈ ids) ∧ principal ∈ principalsOf ⟨caller.userId,teamIds⟩ := by
  have one := tables.onePrincipal row member
  unfold principalOf at names
  rw [isOwn,Bool.and_eq_true,selects_iff,and_assoc,and_assoc]
  refine and_congr_right' (and_congr_right' (and_congr_right' ?_))
  cases user : row.userId with
  | some id =>
    cases team : row.teamId with
    | some other => simp [user,team] at one
    | none =>
      simp only [user] at names
      cases names
      simp [principalsOf]
  | none =>
    cases team : row.teamId with
    | some id =>
      simp only [user,team] at names
      cases names
      simp [principalsOf]
    | none => simp [user,team] at one

theorem heldBy_groupByKey (tables : Stored) {teamIds ids : List String} {principal : Principal} {node : String}
    (own : principal ∈ principalsOf ⟨caller.userId,teamIds⟩) (shared : Shared tables.toTables shareId)
    (listed : node = shareId ∨ node ∈ ids ∧ node ≠ ROOT) :
    (((groupByKey (tables.grants.filter (isOwn caller shareId teamIds ids))).lookup
      (if node = shareId then ROOT else node)).getD []).find? (fun grant => grant.principal = principal) =
      heldBy (shareGrants tables.grants caller.organizationId shareId) principal node := by
  rw [lookup_groupByKey,heldBy,shareGrants,grantsOn,find?_map,find?_filter,find?_filterMap,
    find?_filter,find?_filterMap,find?_filter,find?_filter]
  have key (row : GrantRow) (member : row ∈ tables.grants) :
      (row.entryId.getD ROOT = if node = shareId then ROOT else node) ↔ nodeOf shareId row = node := by
    obtain ⟨share,held,rfl⟩ := shared
    rw [nodeOf]
    cases entryId : row.entryId with
    | none =>
      simp only [Option.getD_none]
      constructor
      · intro same
        split at same
        next root => exact root.symm
        next inside => exact absurd same.symm (listed.resolve_left inside).2
      · rintro rfl
        rw [if_pos rfl]
    | some id =>
      have referenced := tables.referenced row member
      simp only [entryId,Option.all_some,any_eq_true,decide_eq_true_eq] at referenced
      obtain ⟨stored,kept,rfl⟩ := referenced
      simp only [Option.getD_some]
      constructor
      · intro same
        split at same
        next => exact absurd same (tables.uuids stored kept)
        next => exact same
      · rintro rfl
        rw [if_neg (tables.apart share held stored kept)]
  rw [find?_congr (fun row member => ?_)]
  · cases found : tables.grants.find? _ with
    | none => rfl
    | some row =>
      obtain ⟨grant,keyed,read,_⟩ := keyedGrant_stored tables (mem_of_find?_eq_some found)
      simp only [Option.bind_some,keyed,read]
      rfl
  · obtain ⟨grant,keyed,read,names⟩ := keyedGrant_stored tables member
    rw [Bool.eq_iff_iff]
    simp only [decide_eq_true_eq,keyed,read,Except.toOption,Option.any_some,Function.comp_apply,
      isOwn_iff tables member names,key row member]
    constructor
    · rintro ⟨⟨owner,share,_,_⟩,on,same⟩
      exact ⟨⟨owner,share⟩,on,same⟩
    · rintro ⟨⟨owner,share⟩,on,rfl⟩
      refine ⟨⟨owner,share,fun id entry => ?_,own⟩,on,rfl⟩
      rw [nodeOf,entry,Option.getD_some] at on
      subst on
      have referenced := tables.referenced row member
      simp only [entry,Option.all_some,any_eq_true,decide_eq_true_eq] at referenced
      obtain ⟨stored,kept,rfl⟩ := referenced
      obtain ⟨held,stays,rfl⟩ := shared
      exact (listed.resolve_left (tables.apart held stays stored kept)).1

end Grants

section Access

variable {caller : Caller} {shareId : String}

private theorem lookup_build {tables : Tables} {parentOf : Table String (Option String)}
    {granted : Table String (List Grant)} (access : AccessMap) (target node : Option String) :
    (build tables caller shareId parentOf granted access target).lookup node =
      (if node = target then (chainTo node shareId parentOf granted caller).map
        (fun chain => ⟨chain,subjectOf tables caller.organizationId caller.userId⟩) else none).or (access.lookup node) := by
  unfold build
  by_cases same : node = target
  · subst same
    rw [if_pos rfl]
    cases chainTo node shareId parentOf granted caller with
    | none => rfl
    | some chain => simp
  · rw [if_neg same,Option.none_or]
    cases chainTo target shareId parentOf granted caller with
    | none => rfl
    | some chain => exact lookup_insert_ne same

private theorem lookup_builds {tables : Tables} {parentOf : Table String (Option String)}
    {granted : Table String (List Grant)} (targets : List (Option String)) (access : AccessMap) (node : Option String) :
    (targets.foldl (build tables caller shareId parentOf granted) access).lookup node =
      (if node ∈ targets then (chainTo node shareId parentOf granted caller).map
        (fun chain => ⟨chain,subjectOf tables caller.organizationId caller.userId⟩) else none).or (access.lookup node) := by
  induction targets generalizing access with
  | nil => simp
  | cons target rest ih =>
    rw [foldl_cons,ih,lookup_build]
    by_cases here : node = target
    · subst here
      by_cases later : node ∈ rest
      · simp [later,← Option.or_assoc]
      · simp [later]
    · simp [here]

private theorem mem_reduceOption {nodes : List (Option String)} {id : String} (asked : some id ∈ nodes) :
    id ∈ nodes.reduceOption := mem_filterMap.mpr ⟨some id,asked,rfl⟩

theorem lookup_accessFor {tables : Tables} {nodes : List (Option String)} {id : String} (asked : some id ∈ nodes) :
    (accessFor tables caller shareId nodes).lookup (some id) =
      (chainTo (some id) shareId (parentsOf tables caller shareId nodes.reduceOption.eraseDups)
        (grantedTo tables caller shareId (parentsOf tables caller shareId nodes.reduceOption.eraseDups)) caller).map
        (fun chain => ⟨chain,subjectOf tables caller.organizationId caller.userId⟩) := by
  have target : some id ∈ nodes.reduceOption.eraseDups.map some := by
    apply mem_map_of_mem
    exact mem_eraseDups.mpr (mem_reduceOption asked)
  dsimp only [accessFor]
  rw [lookup_builds,if_pos target]
  split
  next => rw [lookup_build,if_neg nofun,Option.none_or]; exact Option.or_none
  next => exact Option.or_none

theorem entitled_congr {up : String → String → Prop} {grants other : String → List Grant} {node : String}
    {subject : Subject} {permission : Permission}
    (same : ∀ principal ∈ principalsOf subject, ∀ upper, ReflTransGen up node upper →
      heldBy grants principal upper = heldBy other principal upper) :
    Entitled up grants node subject permission ↔ Entitled up other node subject permission := by
  refine exists_congr (fun principal => and_congr_right (fun own => ?_))
  refine exists_congr (fun grant => and_congr_left' ?_)
  exact ⟨Inherits.congr (same principal own),
    Inherits.congr (fun upper climbs => (same principal own upper climbs).symm)⟩

theorem granted_iff {tables : Tables} {entry : FileEntry} {depth : Nat} (shared : Shared tables shareId)
    (placed : Permissions.Placed tables.entries caller.organizationId shareId entry depth) {permission : Permission} :
    Granted tables caller shareId permission entry.id ↔
      Entitled (Under tables.entries shareId) (grantsFor tables caller shareId entry.id) entry.id
        (subjectOf tables caller.organizationId caller.userId) permission := by
  obtain ⟨answer,resolved,exact'⟩ := resolve_path shared placed (grantsFor tables caller shareId entry.id)
    (subjectOf tables caller.organizationId caller.userId)
  rw [← exact' permission]
  constructor
  · rintro ⟨other,again,given⟩
    rw [fullChain,resolved] at again
    cases again
    exact given
  · intro given
    exact ⟨answer,resolved,given⟩

theorem permissionsOf_granted (tables : Stored) {nodes : List (Option String)} {entry : FileEntry}
    (stored : entry ∈ tables.entries) (owner : entry.organizationId = caller.organizationId)
    (share : entry.shareId = shareId) (asked : some entry.id ∈ nodes) :
    ∃ held, permissionsOf (accessFor tables.toTables caller shareId nodes) (some entry.id) = .ok held ∧
      ∀ permission, permission ∈ held ↔ Granted tables.toTables caller shareId permission entry.id := by
  obtain ⟨depth,placed⟩ := tables.hangs entry stored
  rw [owner,share] at placed
  have shared : Shared tables.toTables shareId := share ▸ tables.owned entry stored
  have target : entry.id ∈ nodes.reduceOption.eraseDups := mem_eraseDups.mpr (mem_reduceOption asked)
  have found := @lookup_accessFor caller shareId tables.toTables nodes entry.id asked
  generalize nodes.reduceOption.eraseDups = targets at target found
  have loaded : ∀ row ∈ pathUp tables.toTables caller.organizationId entry.id,
      (parentsOf tables.toTables caller shareId targets).lookup row.id = some row.parentId := by
    intro row member
    apply parentsOf_row
    exact pathUp_ancestry shared placed (mem_ancestry.mpr ⟨entry,stored,owner,share,target,.refl⟩) row member
  rw [chainTo_path shared placed loaded,Option.map_some] at found
  obtain ⟨answer,resolved,effective⟩ := resolve_path shared placed (grantsSeen caller
    (grantedTo tables.toTables caller shareId (parentsOf tables.toTables caller shareId targets)) shareId entry.id)
    (subjectOf tables.toTables caller.organizationId caller.userId)
  refine ⟨answer.effective,?_,fun permission => ?_⟩
  · rw [permissionsOf,found]
    simp only [resolved]
    rfl
  · rw [effective,granted_iff shared placed]
    apply entitled_congr
    intro principal own upper climbs
    have listed : upper = shareId ∨ upper ∈ (parentsOf tables.toTables caller shareId targets).keys ∧ upper ≠ ROOT := by
      rcases mem_pathUp shared placed climbs with inside | top
      · obtain ⟨row,member,rfl⟩ := mem_map.mp inside
        refine .inr ⟨mem_keys.mp (lookup_isSome.mp (by rw [loaded row member]; rfl)),?_⟩
        obtain ⟨held,kept,same,_⟩ := ups_stored member
        exact same ▸ tables.uuids held kept
      · exact .inl top
    have rows := @heldBy_groupByKey caller shareId tables _ _ principal upper own shared listed
    simp only [heldBy,grantsSeen,grantsFor,find?_append] at rows ⊢
    rw [grantedTo,rows]

theorem accessFor_stored {tables : Tables} {nodes : List (Option String)} {id : String} (asked : some id ∈ nodes)
    {held : List Permission} {permission : Permission}
    (answered : permissionsOf (accessFor tables caller shareId nodes) (some id) = .ok held) (given : permission ∈ held) :
    ∃ entry ∈ tables.entries, entry.organizationId = caller.organizationId ∧ entry.shareId = shareId ∧ entry.id = id := by
  rw [permissionsOf,lookup_accessFor asked] at answered
  simp only [chainTo,climb] at answered
  split at answered
  next => cases answered; cases given
  next found =>
    cases parent : (parentsOf tables caller shareId nodes.reduceOption.eraseDups).lookup id with
    | none => simp [parent] at found
    | some upper =>
      obtain ⟨entry,stored,owner,share,same⟩ := ancestry_stored (parentsOf_some parent)
      exact ⟨entry,stored,owner,share,congrArg NodeRow.id same⟩

end Access

def HangsIn (entries : List FileEntry) (top node : String) : Prop :=
  ∃ entry ∈ entries, entry.id = node ∧ entry.parentId = some top

def InSubtree (entries : List FileEntry) (rootId id : String) : Prop := ReflTransGen (HangsIn entries) rootId id

section Subtree

variable {tables : Stored} {caller : Caller} {shareId : String} {root : FileEntry}

theorem hangs_stored {top : FileEntry} {node : String} (stored : top ∈ tables.entries)
    (inside : HangsIn tables.entries top.id node) : ∃ entry ∈ tables.entries, entry.id = node ∧
      entry.organizationId = top.organizationId ∧ entry.shareId = top.shareId ∧ entry.parentId = some top.id := by
  obtain ⟨entry,held,rfl,child⟩ := inside
  obtain ⟨depth,placed⟩ := tables.hangs entry held
  cases placed with
  | top _ _ _ none' => rw [none'] at child; cases child
  | inside above _ _ _ also =>
    obtain ⟨kept,owner,share⟩ := above.stored
    have same := Descent.entry_of_id tables.keyed kept stored (Option.some.inj (also.symm.trans child))
    subst same
    exact ⟨entry,held,rfl,owner.symm,share.symm,child⟩

theorem subtree_stored (stored : root ∈ tables.entries) {id : String} (inside : InSubtree tables.entries root.id id) :
    ∃ entry ∈ tables.entries, entry.id = id ∧ entry.organizationId = root.organizationId ∧
      entry.shareId = root.shareId := by
  induction inside with
  | refl => exact ⟨root,stored,rfl,rfl,rfl⟩
  | tail _ step ih =>
    obtain ⟨top,held,rfl,owner,share⟩ := ih
    obtain ⟨entry,kept,same,owned,shared,_⟩ := hangs_stored held step
    exact ⟨entry,kept,same,owned.trans owner,shared.trans share⟩

theorem hangs_of_below {entries : List FileEntry} {organizationId top node : String}
    (step : Levels.RightBelow (childIds entries organizationId) top node) : HangsIn entries top node := by
  obtain ⟨entry,kept,same⟩ := mem_map.mp step
  obtain ⟨held,test⟩ := mem_filter.mp kept
  simp only [Bool.and_eq_true,decide_eq_true_eq] at test
  exact ⟨entry,held,same,test.2⟩

theorem rightBelow_iff {top : FileEntry} {node : String} (stored : top ∈ tables.entries)
    (owner : top.organizationId = caller.organizationId) :
    Levels.RightBelow (childIds tables.entries caller.organizationId) top.id node ↔ HangsIn tables.entries top.id node := by
  refine ⟨hangs_of_below,fun inside => ?_⟩
  obtain ⟨entry,held,same,owned,_,child⟩ := hangs_stored stored inside
  refine mem_map.mpr ⟨entry,mem_filter.mpr ⟨held,?_⟩,same⟩
  rw [Bool.and_eq_true,decide_eq_true_eq,decide_eq_true_eq]
  exact ⟨owned.trans owner,child⟩

theorem below_iff (stored : root ∈ tables.entries) (owner : root.organizationId = caller.organizationId) {id : String} :
    ReflTransGen (Levels.RightBelow (childIds tables.entries caller.organizationId)) root.id id ↔
      InSubtree tables.entries root.id id := by
  constructor
  · intro path
    induction path with
    | refl => exact .refl
    | tail _ step ih => exact ih.tail (hangs_of_below step)
  · intro path
    induction path with
    | refl => exact .refl
    | tail path step ih =>
      obtain ⟨top,held,rfl,owned,_⟩ := subtree_stored stored path
      exact ih.tail ((rightBelow_iff held (owned.trans owner)).mpr step)

theorem deeper {top : FileEntry} {depth : Nat} {node : String}
    (placed : Permissions.Placed tables.entries top.organizationId top.shareId top depth)
    (path : TransGen (HangsIn tables.entries) top.id node) : ∃ entry ∈ tables.entries, entry.id = node ∧
      entry.organizationId = top.organizationId ∧ entry.shareId = top.shareId ∧
      ∃ further, depth < further ∧ Permissions.Placed tables.entries top.organizationId top.shareId entry further := by
  induction path with
  | single step =>
    obtain ⟨entry,held,same,owner,share,child⟩ := hangs_stored placed.stored.1 step
    exact ⟨entry,held,same,owner,share,depth + 1,by omega,.inside placed held owner share child⟩
  | tail _ step ih =>
    obtain ⟨upper,kept,rfl,owned,shared,further,deep,above⟩ := ih
    obtain ⟨entry,held,same,owner,share,child⟩ := hangs_stored kept step
    exact ⟨entry,held,same,owner.trans owned,share.trans shared,further + 1,by omega,
      .inside above held (owner.trans owned) (share.trans shared) child⟩

theorem subtreeIds_some (stored : root ∈ tables.entries) (owner : root.organizationId = caller.organizationId)
    (share : root.shareId = shareId) : ∃ tree, subtreeIds tables.toTables caller shareId root.id = some tree ∧
      ∀ id, id ∈ tree ↔ InSubtree tables.entries root.id id := by
  have starts (id : String) : id ∈ (tables.entries.filter (isNamed caller.organizationId shareId [root.id])).map
      FileEntry.id ↔ id = root.id := by
    simp only [mem_map,mem_filter,isNamed_iff,mem_singleton]
    constructor
    · rintro ⟨entry,⟨_,_,_,named⟩,rfl⟩
      exact named
    · rintro rfl
      exact ⟨root,⟨stored,owner,share,rfl⟩,rfl⟩
  have ends : (subtreeIds tables.toTables caller shareId root.id).isSome := by
    refine Levels.levels_ends (tables.entries.map FileEntry.id) ?_ ?_ (by rw [length_map])
    · intro top first node path
      rw [starts] at first
      subst first
      obtain ⟨entry,held,same,_⟩ := subtree_stored stored ((below_iff stored owner).mp path)
      exact mem_map.mpr ⟨entry,held,same⟩
    · intro top first node path cycle
      rw [starts] at first
      subst first
      obtain ⟨entry,held,rfl,owned,_⟩ := subtree_stored stored ((below_iff stored owner).mp path)
      obtain ⟨depth,placed⟩ := tables.hangs entry held
      have round : TransGen (HangsIn tables.entries) entry.id entry.id := cycle.lift id (fun _ _ => hangs_of_below)
      obtain ⟨again,kept,same,_,_,further,deep,also⟩ := deeper placed round
      cases Descent.entry_of_id tables.keyed kept held same
      have level := placed.depth_unique also
      omega
  obtain ⟨tree,ran⟩ := Option.isSome_iff_exists.mp ends
  refine ⟨tree,ran,fun id => ?_⟩
  rw [Levels.mem_levels ran]
  constructor
  · rintro ⟨top,first,path⟩
    rw [starts] at first
    subst first
    exact (below_iff stored owner).mp path
  · intro inside
    exact ⟨root.id,(starts _).mpr rfl,(below_iff stored owner).mpr inside⟩

theorem granted_admin (admin : caller.isOrganizationAdmin = true) {entry : FileEntry} (stored : entry ∈ tables.entries)
    (owner : entry.organizationId = caller.organizationId) (share : entry.shareId = shareId) (permission : Permission) :
    Granted tables.toTables caller shareId permission entry.id := by
  obtain ⟨depth,placed⟩ := tables.hangs entry stored
  rw [owner,share] at placed
  rw [granted_iff (share ▸ tables.owned entry stored) placed]
  refine ⟨.user caller.userId,mem_cons_self,⟨.user caller.userId,PERMISSIONS⟩,.own ?_,?_⟩
  · simp [heldBy,grantsFor,syntheticGrants,admin]
  · change permission ∈ PERMISSIONS
    cases permission <;> decide

theorem granted_bare {top entry : FileEntry} (held : top ∈ tables.entries) (stored : entry ∈ tables.entries)
    (owner : entry.organizationId = caller.organizationId) (share : entry.shareId = shareId)
    (child : entry.parentId = some top.id)
    (bare : ∀ row ∈ tables.grants, row.organizationId = caller.organizationId → row.shareId = shareId →
      row.entryId ≠ some entry.id)
    {permission : Permission} (granted : Granted tables.toTables caller shareId permission top.id) :
    Granted tables.toTables caller shareId permission entry.id := by
  cases admin : caller.isOrganizationAdmin with
  | true => exact granted_admin admin stored owner share permission
  | false =>
    have shared : Shared tables.toTables shareId := share ▸ tables.owned entry stored
    obtain ⟨again,kept,same,owned,sharing,_⟩ := hangs_stored held ⟨entry,stored,rfl,child⟩
    cases Descent.entry_of_id tables.keyed kept stored same
    obtain ⟨depth,above⟩ := tables.hangs top held
    rw [← owned,← sharing,owner,share] at above
    have placed := Permissions.Placed.inside above stored owner share child
    have rows (target node : String) : grantsFor tables.toTables caller shareId target node =
        shareGrants tables.grants caller.organizationId shareId node := by
      simp [grantsFor,syntheticGrants,admin]
    have none' : shareGrants tables.grants caller.organizationId shareId entry.id = [] := by
      rw [shareGrants,grantsOn,filter_filter,filter_eq_nil_iff.mpr,filterMap_nil]
      intro row member test
      simp only [Bool.and_eq_true,decide_eq_true_eq] at test
      obtain ⟨on,owns,sharing'⟩ := test
      cases carries : row.entryId with
      | none =>
        obtain ⟨own,holds,rfl⟩ := shared
        rw [nodeOf,carries] at on
        exact tables.apart own holds entry stored on.symm
      | some id =>
        rw [nodeOf,carries] at on
        exact bare row member owns sharing' (carries.trans (congrArg some on))
    rw [granted_iff shared above] at granted
    rw [granted_iff shared placed]
    obtain ⟨principal,own,grant,inherits,given⟩ := granted
    refine ⟨principal,own,grant,.inherited ?_ ⟨entry,stored,rfl,congrArg (·.getD shareId) child⟩ ?_,given⟩
    · simp [heldBy,rows,none']
    · exact inherits.congr (fun upper _ => by rw [heldBy,heldBy,rows,rows])

theorem mem_carriersIn {tree : List String} {id : String} : id ∈ carriersIn tables.toTables caller shareId root.id tree ↔
    id ∈ tree ∧ id ≠ root.id ∧ ∃ row ∈ tables.grants, row.organizationId = caller.organizationId ∧
      row.shareId = shareId ∧ row.entryId = some id := by
  simp only [carriersIn,mem_dedup,mem_filter,mem_filterMap,Bool.and_eq_true,decide_eq_true_eq,
    contains_iff_mem]
  constructor
  · rintro ⟨⟨row,⟨stored,owner,share⟩,entry⟩,inside,other⟩
    exact ⟨inside,other,row,stored,owner,share,entry⟩
  · rintro ⟨inside,other,row,stored,owner,share,entry⟩
    exact ⟨⟨row,⟨stored,owner,share⟩,entry⟩,inside,other⟩

theorem granted_throughout (stored : root ∈ tables.entries) (owner : root.organizationId = caller.organizationId)
    (share : root.shareId = shareId) {permission : Permission} {tree : List String}
    (all : ∀ id, id ∈ tree ↔ InSubtree tables.entries root.id id)
    (checked : Granted tables.toTables caller shareId permission root.id)
    (carriers : ∀ id ∈ carriersIn tables.toTables caller shareId root.id tree,
      Granted tables.toTables caller shareId permission id) {id : String} (inside : InSubtree tables.entries root.id id) :
    Granted tables.toTables caller shareId permission id := by
  -- down the subtree: a node without a row of its own has what the node it hangs in has
  induction inside with
  | refl => exact checked
  | @tail upper node path step ih =>
    obtain ⟨top,held,rfl,owned,sharing⟩ := subtree_stored stored path
    obtain ⟨entry,kept,rfl,owned',sharing',child⟩ := hangs_stored held step
    by_cases carried : entry.id ∈ carriersIn tables.toTables caller shareId root.id tree
    · exact carriers entry.id carried
    · by_cases same : entry.id = root.id
      · exact same ▸ checked
      · refine granted_bare held kept (owned'.trans (owned.trans owner)) (sharing'.trans (sharing.trans share)) child ?_ ih
        intro row member owns shares' carries
        exact carried (mem_carriersIn.mpr ⟨(all _).mpr (path.tail step),same,row,member,owns,shares',carries⟩)

private theorem isRefused_granted {ids : List String} {entry : FileEntry} (stored : entry ∈ tables.entries)
    (owner : entry.organizationId = caller.organizationId) (share : entry.shareId = shareId) (asked : entry.id ∈ ids)
    (permission : Permission) : ∃ verdict,
      isRefused (accessFor tables.toTables caller shareId (ids.map some)) permission entry.id = .ok verdict ∧
      (verdict = true ↔ ¬Granted tables.toTables caller shareId permission entry.id) := by
  obtain ⟨held,answered,effective⟩ := permissionsOf_granted tables stored owner share (mem_map_of_mem asked)
  refine ⟨!held.contains permission,by rw [isRefused,answered],?_⟩
  rw [← effective permission]
  simp

theorem assertSubtreeAccess_answers (stored : root ∈ tables.entries) (owner : root.organizationId = caller.organizationId)
    (share : root.shareId = shareId) {permission : Permission} {tree : List String}
    (ran : subtreeIds tables.toTables caller shareId root.id = some tree)
    (all : ∀ id, id ∈ tree ↔ InSubtree tables.entries root.id id) :
    (assertSubtreeAccess tables.toTables caller shareId root.id permission = .ok () ∧
      ∀ id ∈ carriersIn tables.toTables caller shareId root.id tree,
        Granted tables.toTables caller shareId permission id) ∨
    (∃ count, 0 < count ∧ assertSubtreeAccess tables.toTables caller shareId root.id permission =
        .error (.subtreeForbidden permission count)) ∧
      ∃ id ∈ carriersIn tables.toTables caller shareId root.id tree,
        ¬Granted tables.toTables caller shareId permission id := by
  generalize list : carriersIn tables.toTables caller shareId root.id tree = carriers
  by_cases none' : carriers = []
  · subst none'
    refine .inl ⟨?_,nofun⟩
    simp only [assertSubtreeAccess,ran,list,if_true]
  have judged (id : String) (member : id ∈ carriers) : ∃ verdict,
      isRefused (accessFor tables.toTables caller shareId (carriers.map some)) permission id = .ok verdict ∧
      (verdict = true ↔ ¬Granted tables.toTables caller shareId permission id) := by
    obtain ⟨inside,_⟩ := mem_carriersIn.mp (list ▸ member)
    obtain ⟨entry,held,rfl,owned,shared⟩ := subtree_stored stored ((all id).mp inside)
    exact isRefused_granted held (owned.trans owner) (shared.trans share) member permission
  let verdict (id : String) : Bool :=
    (isRefused (accessFor tables.toTables caller shareId (carriers.map some)) permission id).toOption.getD false
  have answers (id : String) (member : id ∈ carriers) :
      isRefused (accessFor tables.toTables caller shareId (carriers.map some)) permission id = .ok (verdict id) := by
    obtain ⟨answer,judged,_⟩ := judged id member
    simp [verdict,judged,Except.toOption]
  have means (id : String) (member : id ∈ carriers) :
      verdict id = true ↔ ¬Granted tables.toTables caller shareId permission id := by
    obtain ⟨answer,judged,refused⟩ := judged id member
    rw [← refused]
    simp [verdict,judged,Except.toOption]
  have check : assertSubtreeAccess tables.toTables caller shareId root.id permission =
      if 0 < (carriers.map verdict).count true then
        .error (.subtreeForbidden permission ((carriers.map verdict).count true)) else .ok () := by
    simp only [assertSubtreeAccess,ran,list,none',if_false,mapM_ok verdict answers]
  by_cases refused : 0 < (carriers.map verdict).count true
  · rw [if_pos refused] at check
    obtain ⟨id,member,answer⟩ := mem_map.mp (count_pos_iff.mp refused)
    exact .inr ⟨⟨_,refused,check⟩,id,member,(means id member).mp answer⟩
  · rw [if_neg refused] at check
    refine .inl ⟨check,fun id member => ?_⟩
    by_contra lacking
    exact refused (count_pos_iff.mpr (mem_map.mpr ⟨id,member,(means id member).mpr lacking⟩))

end Subtree

/-- The check of a subtree passes exactly when the resolver grants the permission at every
folder and file in it, each by its full chain, and refuses for the reason it names otherwise. -/
theorem subtree_resolved (tables : Stored) (caller : Caller) (shareId rootId : String) (permission : Permission)
    (checked : ∃ held, permissionsOf (accessFor tables.toTables caller shareId [some rootId]) (some rootId) = .ok held ∧
      permission ∈ held) :
    (assertSubtreeAccess tables.toTables caller shareId rootId permission = .ok () ↔
      ∀ id, InSubtree tables.entries rootId id → Granted tables.toTables caller shareId permission id) ∧
    ∀ id, InSubtree tables.entries rootId id → ¬Granted tables.toTables caller shareId permission id →
      ∃ count, 0 < count ∧ assertSubtreeAccess tables.toTables caller shareId rootId permission =
        .error (.subtreeForbidden permission count) := by
  obtain ⟨held,answered,given⟩ := checked
  obtain ⟨root,stored,owner,share,rfl⟩ := accessFor_stored mem_cons_self answered given
  obtain ⟨again,resolved,effective⟩ := @permissionsOf_granted caller shareId tables _ root stored owner share mem_cons_self
  rw [answered] at resolved
  cases resolved
  have granted := (effective permission).mp given
  obtain ⟨tree,ran,all⟩ := subtreeIds_some stored owner share
  rcases @assertSubtreeAccess_answers tables caller shareId root stored owner share permission tree ran all with
    ⟨passes,carriers⟩ | ⟨refuses,id,member,lacking⟩
  · have throughout := fun id => @granted_throughout tables caller shareId root stored owner share permission tree all granted carriers id
    refine ⟨⟨fun _ => throughout,fun _ => passes⟩,fun id inside lacking => absurd (throughout id inside) lacking⟩
  · refine ⟨⟨fun passes => ?_,fun throughout => ?_⟩,fun _ _ _ => refuses⟩
    · obtain ⟨count,_,refused⟩ := refuses
      rw [refused] at passes
      cases passes
    · exact absurd (throughout id ((all id).mp (mem_carriersIn.mp member).1)) lacking

def officeEntries : List FileEntry :=
  [⟨"plans","o","s",none,.folder,"Plans",false⟩,⟨"old","o","s",some "plans",.folder,"Old",true⟩,
    ⟨"draft","o","s",some "old",.file,"draft.txt",false⟩]

private theorem office_hangs : ∀ entry ∈ officeEntries, ∃ depth,
    Permissions.Placed officeEntries entry.organizationId entry.shareId entry depth := by
  have plans : Permissions.Placed officeEntries "o" "s" ⟨"plans","o","s",none,.folder,"Plans",false⟩ 0 :=
    .top (by simp [officeEntries]) rfl rfl rfl
  have old : Permissions.Placed officeEntries "o" "s" ⟨"old","o","s",some "plans",.folder,"Old",true⟩ 1 :=
    .inside plans (by simp [officeEntries]) rfl rfl rfl
  have draft : Permissions.Placed officeEntries "o" "s" ⟨"draft","o","s",some "old",.file,"draft.txt",false⟩ 2 :=
    .inside old (by simp [officeEntries]) rfl rfl rfl
  intro entry member
  simp only [officeEntries,mem_cons,not_mem_nil,or_false] at member
  rcases member with rfl | rfl | rfl
  · exact ⟨0,plans⟩
  · exact ⟨1,old⟩
  · exact ⟨2,draft⟩

private theorem office_owned : ∀ entry ∈ officeEntries, ∃ share ∈ [(⟨"s","o","files"⟩ : Share)],
    share.id = entry.shareId := by decide

def office : Stored where
  shares := [⟨"s","o","files"⟩]
  entries := officeEntries
  grants := [⟨"o","s",none,some "clerk",none,["list","delete"]⟩,⟨"o","s",some "old",some "clerk",none,["list"]⟩]
  keyed := by decide
  apart := by decide
  referenced := by decide
  users := [⟨"clerk","o","clerk",false⟩]
  teams := []
  members := []
  usersKeyed := by decide
  unique := by decide
  uuids := by decide
  owned := office_owned
  hangs := office_hangs
  onePrincipal := by decide
  known := by decide
  notEmpty := by decide

/-- Deleting the outer folder is refused for the inner one. -/
theorem narrowed_refused :
    (assertSubtreeAccess office.toTables ⟨"o","clerk",false⟩ "s" "plans" .delete = .ok () ↔
      ∀ id, InSubtree office.entries "plans" id → Granted office.toTables ⟨"o","clerk",false⟩ "s" .delete id) ∧
    ∀ id, InSubtree office.entries "plans" id → ¬Granted office.toTables ⟨"o","clerk",false⟩ "s" .delete id →
      ∃ count, 0 < count ∧ assertSubtreeAccess office.toTables ⟨"o","clerk",false⟩ "s" "plans" .delete =
        .error (.subtreeForbidden .delete count) :=
  subtree_resolved office ⟨"o","clerk",false⟩ "s" "plans" .delete ⟨[.list,.delete],by decide +kernel,by decide⟩

example : assertSubtreeAccess office.toTables ⟨"o","clerk",false⟩ "s" "plans" .delete =
    .error (.subtreeForbidden .delete 1) := by decide +kernel

end Depsis.Files.SubtreeAccess

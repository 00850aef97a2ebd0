import Depsis.Permissions.Chains

/-! The preview's walk up its own parent map: for every node whose way up was
loaded it yields the chain that `buildChain` makes of the stored rows.
-/
namespace Depsis.Permissions

open Depsis.Authz Depsis.Files Depsis.Foundation List AList

variable {tables : Tables} {organizationId shareId : String}

def InShare (tables : Tables) (organizationId shareId id : String) : Prop :=
  id = shareId ∨ ∃ entry depth, depth ≤ MAX_TREE_DEPTH ∧
    Placed tables.entries organizationId shareId entry depth ∧ entry.id = id

def rowsUp (tables : Tables) (organizationId id : String) : List NodeRow :=
  ups tables.entries organizationId MAX_TREE_DEPTH id

theorem rowsUp_share (shared : Shared tables shareId) : rowsUp tables organizationId shareId = [] := by
  obtain ⟨share,held,rfl⟩ := shared
  unfold rowsUp ups
  rw [find?_eq_none.mpr]
  intro entry stored same
  simp only [decide_eq_true_eq] at same
  exact tables.apart share held entry stored same.2

theorem rowsUp_climbed (shared : Shared tables shareId) {id : String} (inside : InShare tables organizationId shareId id)
    (grants : String → List Grant) : ∃ first rest,
      chainNodes shareId (rowsUp tables organizationId id) grants = first::rest ∧ first.id = id ∧
        Climbed (Under tables.entries shareId) grants (first::rest) := by
  rcases inside with rfl | ⟨entry,depth,room,placed,rfl⟩
  · rw [rowsUp_share shared]
    exact ⟨_,[],rfl,rfl,.top (root_of_shared shared)⟩
  · obtain ⟨rows,_,first,_,_,climbed⟩ := ups_climbed shared grants placed room
    have split : chainNodes shareId (rowsUp tables organizationId entry.id) grants =
        ⟨entry.id,some (entry.parentId.getD shareId),grants entry.id⟩::chainNodes shareId rows grants := by
      rw [rowsUp,first]
      rfl
    change Climbed _ grants (chainNodes shareId (rowsUp tables organizationId entry.id) grants) at climbed
    rw [split] at climbed
    exact ⟨_,_,split,rfl,climbed⟩

theorem ids_chainNodes (rows : List NodeRow) (grants : String → List Grant) :
    (chainNodes shareId rows grants).map AclNode.id = rows.map NodeRow.id ++ [shareId] := by
  simp [chainNodes,Function.comp_def]

theorem mem_rowsUp (shared : Shared tables shareId) {id upper : String}
    (inside : InShare tables organizationId shareId id) :
    Relation.ReflTransGen (Under tables.entries shareId) id upper ↔
      upper ∈ (rowsUp tables organizationId id).map NodeRow.id ∨ upper = shareId := by
  obtain ⟨first,rest,split,rfl,climbed⟩ := rowsUp_climbed shared inside (fun _ => [])
  have path := climbed.path
  rw [map_cons] at path
  rw [← path.mem_iff (under_forest tables.keyed),← map_cons,← split,ids_chainNodes,mem_append,
    mem_singleton]

theorem ups_stored {entries : List FileEntry} {steps : Nat} {id : String} {row : NodeRow}
    (member : row ∈ ups entries organizationId steps id) :
    ∃ entry ∈ entries, entry.id = row.id ∧ entry.parentId = row.parentId := by
  induction steps generalizing id with
  | zero =>
    unfold ups at member
    split at member
    next => cases member
    next entry found =>
      cases mem_singleton.mp member
      exact ⟨entry,mem_of_find?_eq_some found,rfl,rfl⟩
  | succ steps ih =>
    unfold ups at member
    split at member
    next => cases member
    next entry found =>
      rcases mem_cons.mp member with rfl | above
      · exact ⟨entry,mem_of_find?_eq_some found,rfl,rfl⟩
      · cases parent : entry.parentId with
        | none => rw [parent] at above; cases above
        | some upper => rw [parent] at above; exact ih above

section Map

variable {ancestors nodes : List NodeRow}

private theorem rows_agree {rows : List NodeRow} {id parent : String} {value : Option String}
    (stored : ∀ row ∈ rows, ∃ entry ∈ tables.entries, entry.id = row.id ∧ entry.parentId = row.parentId)
    (under : Under tables.entries shareId id parent)
    (member : (id,value) ∈ rows.map (fun row => (row.id,some (row.parentId.getD shareId)))) : value = some parent := by
  obtain ⟨row,listed,same⟩ := mem_map.mp member
  cases same
  obtain ⟨entry,held,id,above⟩ := stored row listed
  exact congrArg some (under_forest tables.keyed _ _ _ ⟨entry,held,id,by rw [above]⟩ under)

private theorem keys_rows (rows : List NodeRow) :
    (rows.map (fun row => (row.id,some (row.parentId.getD shareId)))).map Prod.fst = rows.map NodeRow.id := by
  simp [Function.comp_def]

variable (stored : ∀ row ∈ ancestors ++ nodes, ∃ entry ∈ tables.entries, entry.id = row.id ∧
  entry.parentId = row.parentId)

include stored

theorem parentTable_row {id parent : String} (listed : id ∈ (ancestors ++ nodes).map NodeRow.id)
    (under : Under tables.entries shareId id parent) :
    (parentTable shareId ancestors nodes).lookup id = some (some parent) := by
  have here (row : NodeRow) (member : row ∈ nodes) := stored row (mem_append_right _ member)
  have upper (row : NodeRow) (member : row ∈ ancestors) := stored row (mem_append_left _ member)
  by_cases below : id ∈ nodes.map NodeRow.id
  · exact lookup_fill_agree (by rwa [keys_rows]) (fun value member => rows_agree here under member)
  · have above : id ∈ ancestors.map NodeRow.id := by
      rw [map_append] at listed
      exact (mem_append.mp listed).resolve_right below
    refine (lookup_fill_of_notMem (by rwa [keys_rows])).trans ?_
    exact lookup_fill_agree (by rwa [keys_rows]) (fun value member => rows_agree upper under member)

theorem parentTable_share (shared : Shared tables shareId) :
    (parentTable shareId ancestors nodes).lookup shareId = some none := by
  have absent (row : NodeRow) (member : row ∈ ancestors ++ nodes) : row.id ≠ shareId := by
    intro same
    obtain ⟨entry,held,id,_⟩ := stored row member
    obtain ⟨share,kept,rfl⟩ := shared
    exact tables.apart share kept entry held (id.trans same)
  have apart (rows : List NodeRow) (part : ∀ row ∈ rows, row ∈ ancestors ++ nodes) :
      shareId ∉ (rows.map (fun row => (row.id,some (row.parentId.getD shareId)))).map Prod.fst := by
    rw [keys_rows]
    intro member
    obtain ⟨row,listed,same⟩ := mem_map.mp member
    exact absent row (part row listed) same
  refine (lookup_fill_of_notMem (apart nodes (fun _ member => mem_append_right _ member))).trans ?_
  refine (lookup_fill_of_notMem (apart ancestors (fun _ member => mem_append_left _ member))).trans ?_
  exact lookup_insert _

omit stored in
private theorem climb_ok {parents : Table String (Option String)} {grants : String → List Grant} {steps : Nat}
    {chain : List AclNode} (climbed : Climbed (Under tables.entries shareId) grants chain)
    (loaded : ∀ node ∈ chain, parents.lookup node.id = some node.parentId) (room : chain.length ≤ steps) {id : String}
    (first : chain.head?.map AclNode.id = some id) : climb parents grants steps id = .ok chain := by
  induction climbed generalizing steps id with
  | top root =>
    obtain ⟨steps,rfl⟩ : ∃ further, steps = further + 1 := ⟨steps - 1,by simp at room; omega⟩
    cases first
    simp only [climb,loaded _ mem_cons_self]
  | @step id' upper rest above _ ih =>
    obtain ⟨steps,rfl⟩ : ∃ further, steps = further + 1 := ⟨steps - 1,by simp at room; omega⟩
    cases first
    have further := @ih steps (fun node member => loaded node (mem_cons_of_mem _ member))
      (by simpa using room) upper.id rfl
    simp only [climb,loaded _ mem_cons_self,further]
    rfl

theorem chainTo_eq (shared : Shared tables shareId) {id : String} (inside : InShare tables organizationId shareId id)
    (loaded : ∀ upper, Relation.ReflTransGen (Under tables.entries shareId) id upper →
      upper = shareId ∨ upper ∈ (ancestors ++ nodes).map NodeRow.id) (grants : String → List Grant) :
    chainTo id (parentTable shareId ancestors nodes) grants =
      .ok (buildChain shareId (rowsUp tables organizationId id).reverse grants) := by
  obtain ⟨first,rest,split,same,climbed⟩ := rowsUp_climbed shared inside grants
  have path := climbed.path
  have above (node : AclNode) (member : node ∈ first::rest) :
      (parentTable shareId ancestors nodes).lookup node.id = some node.parentId := by
    have root := parentTable_share stored shared
    have climbs : Relation.ReflTransGen (Under tables.entries shareId) id node.id := by
      rw [map_cons] at path
      exact same ▸ (path.mem_iff (under_forest tables.keyed)).mp (mem_map_of_mem (f := AclNode.id) member)
    rw [← split] at member
    rcases mem_append.mp member with entry | top
    · obtain ⟨row,listed,rfl⟩ := mem_map.mp entry
      obtain ⟨held,kept,id',parent⟩ := ups_stored listed
      have under : Under tables.entries shareId row.id (row.parentId.getD shareId) :=
        ⟨held,kept,id',by rw [parent]⟩
      rcases loaded row.id climbs with rooted | known
      · exact absurd (rooted ▸ under) (root_of_shared shared _)
      · exact parentTable_row stored known under
    · cases mem_singleton.mp top
      exact root
  have count : (first::rest).length ≤ (parentTable shareId ancestors nodes).size := by
    rw [← length_map AclNode.id]
    refine length_le_size (path.nodup (under_forest tables.keyed)) (fun key member => ?_)
    obtain ⟨node,listed,rfl⟩ := mem_map.mp member
    rw [above node listed]
    rfl
  rw [chainTo,climb_ok climbed above (by omega) (by rw [← same]; rfl),buildChain_reverse,split]
  rfl

end Map

def refOf (shareId id : String) : NodeRef := if id = shareId then .share id else .entry id

theorem resolveAt_node (shared : Shared tables shareId) {id : String}
    (owned : id = shareId → ∃ share ∈ tables.shares, share.organizationId = organizationId ∧ share.id = shareId)
    (inside : InShare tables organizationId shareId id)
    (readable : ∀ row ∈ grantRows tables.grants organizationId shareId ((rowsUp tables organizationId id).map NodeRow.id),
      Readable row) (subject : Subject) :
    ∃ resolution, resolveAt tables organizationId (refOf shareId id) subject = .ok resolution ∧
      ∀ permission, permission ∈ resolution.effective ↔ Entitled (Under tables.entries shareId)
        (shareGrants tables.grants organizationId shareId) id subject permission := by
  rcases inside with rfl | ⟨entry,depth,room,placed,rfl⟩
  · rw [rowsUp_share shared] at readable
    rw [refOf,if_pos rfl]
    exact resolveAt_share (owned rfl) readable subject
  · have apart : entry.id ≠ shareId := by
      obtain ⟨share,held,rfl⟩ := shared
      exact tables.apart share held entry placed.stored.1
    rw [refOf,if_neg apart]
    exact resolveAt_entry shared placed room readable subject

end Depsis.Permissions

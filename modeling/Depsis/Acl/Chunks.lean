import Depsis.Acl.Apply

/-! The chunks of one `permissions.apply` job, each resumed at the cursor the
last one answered: together they write the named scope, each folder once, and
the share root when no entry is named.
-/
namespace Depsis.Acl

open Depsis.Authz Depsis.Files Depsis.Foundation Depsis.Permissions List AList Function

def Hangs (entries : List FileEntry) (parent id : String) : Prop :=
  ∃ entry ∈ entries, entry.id = id ∧ entry.parentId = some parent

def InScope (snapshot : Snapshot) (organizationId shareId : String) (entryId : Option String) (id : String) : Prop :=
  (∃ entry depth, (shareDescent organizationId shareId).Reaches snapshot.entries entry depth ∧ entry.id = id) ∧
    ∀ top, entryId = some top → Relation.ReflTransGen (Hangs snapshot.entries) top id

structure Loadable (snapshot : Snapshot) (organizationId shareId : String) : Prop where
  stored : ∃ share ∈ snapshot.shares, share.organizationId = organizationId ∧ share.id = shareId
  shallow : ∀ entry depth, (shareDescent organizationId shareId).Reaches snapshot.entries entry depth →
    depth < MAX_TREE_DEPTH
  few : ∀ ids : List String, ids.Nodup → (∀ id ∈ ids, InScope snapshot organizationId shareId none id) →
    ids.length < TREE_LOAD_LIMIT

section Tree

variable {snapshot : Snapshot} {organizationId shareId : String}

theorem shareDescent_rooted : (shareDescent organizationId shareId).Rooted snapshot.entries := by
  intro entry parent depth starts _ child
  simp only [shareDescent,Bool.and_eq_true,decide_eq_true_eq] at starts
  rw [starts.1.2] at child
  cases child

theorem walk_ids_nodup (steps : Nat) :
    (((shareDescent organizationId shareId).walk snapshot.entries steps).map FolderRow.id).Nodup :=
  Descent.walk_nodup snapshot.keyed shareDescent_rooted steps

theorem loadedRows_nodup : ((loadedRows snapshot organizationId shareId).map FolderRow.id).Nodup :=
  (walk_ids_nodup _).sublist ((take_sublist _ _).map _)

variable {depth : Nat} {row : FolderRow}

theorem hangs_row {parent : String}
    (member : row ∈ (shareDescent organizationId shareId).level snapshot.entries depth) :
    Hangs snapshot.entries parent row.id ↔ row.parentId = some parent := by
  obtain ⟨entry,reached,id,above⟩ := Descent.level_sound member
  constructor
  · rintro ⟨other,stored,same,hangs⟩
    have equal := Descent.entry_of_id snapshot.keyed stored reached.stored (same.trans id)
    rw [above,← equal,hangs]
  · exact fun parent => ⟨entry,reached.stored,id.symm,above.symm.trans parent⟩

theorem root_parent
    (member : row ∈ (shareDescent organizationId shareId).level snapshot.entries 0) : row.parentId = none := by
  obtain ⟨entry,stored,rfl⟩ := mem_map.mp member
  have starts := (mem_filter.mp stored).2
  simp only [shareDescent,Bool.and_eq_true,decide_eq_true_eq] at starts
  exact starts.1.2

variable (bounds : Loadable snapshot organizationId shareId)

include bounds

private theorem level_shallow
    (member : row ∈ (shareDescent organizationId shareId).level snapshot.entries depth) : depth < MAX_TREE_DEPTH := by
  obtain ⟨entry,reached,_⟩ := Descent.level_sound member
  exact bounds.shallow entry depth reached

private theorem walk_few :
    ((shareDescent organizationId shareId).walk snapshot.entries (MAX_TREE_DEPTH + 1)).length < TREE_LOAD_LIMIT := by
  have count := bounds.few _ (walk_ids_nodup (MAX_TREE_DEPTH + 1)) (fun id member => by
    obtain ⟨row,listed,rfl⟩ := mem_map.mp member
    obtain ⟨depth,_,level⟩ := Descent.mem_walk.mp listed
    obtain ⟨entry,reached,same,_⟩ := Descent.level_sound level
    exact ⟨⟨entry,depth,reached,same.symm⟩,fun _ named => nomatch named⟩)
  rwa [length_map] at count

theorem loadedRows_whole : loadedRows snapshot organizationId shareId =
    (shareDescent organizationId shareId).walk snapshot.entries (MAX_TREE_DEPTH + 1) :=
  take_of_length_le (Nat.le_of_lt (walk_few bounds))

theorem mem_loadedRows : row ∈ loadedRows snapshot organizationId shareId ↔
    ∃ depth, row ∈ (shareDescent organizationId shareId).level snapshot.entries depth := by
  rw [loadedRows_whole bounds,Descent.mem_walk]
  constructor
  · rintro ⟨depth,_,member⟩
    exact ⟨depth,member⟩
  · rintro ⟨depth,member⟩
    have shallow := level_shallow bounds member
    exact ⟨depth,by omega,member⟩

theorem depth_lt_loadedRows
    (member : row ∈ (shareDescent organizationId shareId).level snapshot.entries depth) :
    depth < (loadedRows snapshot organizationId shareId).length := by
  have shallow := level_shallow bounds member
  rw [loadedRows_whole bounds]
  exact Descent.depth_lt_length member (by omega)

theorem mem_loadedIds {id : String} : id ∈ (loadedRows snapshot organizationId shareId).map FolderRow.id ↔
    ∃ entry depth, (shareDescent organizationId shareId).Reaches snapshot.entries entry depth ∧ entry.id = id := by
  constructor
  · intro member
    obtain ⟨row,listed,rfl⟩ := mem_map.mp member
    obtain ⟨depth,level⟩ := (mem_loadedRows bounds).mp listed
    obtain ⟨entry,reached,same,_⟩ := Descent.level_sound level
    exact ⟨entry,depth,reached,same.symm⟩
  · rintro ⟨entry,depth,reached,rfl⟩
    obtain ⟨row,level,same,_⟩ := Descent.level_complete reached
    exact mem_map.mpr ⟨row,(mem_loadedRows bounds).mpr ⟨depth,level⟩,same⟩

omit bounds in
private theorem parent_of_row (member : row ∈ loadedRows snapshot organizationId shareId) :
    (parentTable (loadedRows snapshot organizationId shareId)).lookup row.id = some row.parentId :=
  lookup_fill_of_mem (by simpa [comp_def] using loadedRows_nodup)
    (mem_map.mpr ⟨row,member,rfl⟩)

omit bounds in
private theorem inSubtree_step {top : String} {steps : Nat}
    (member : row ∈ loadedRows snapshot organizationId shareId) :
    inSubtree (parentTable (loadedRows snapshot organizationId shareId)) top (steps + 1) (some row.id) = true ↔
      row.id = top ∨
        inSubtree (parentTable (loadedRows snapshot organizationId shareId)) top steps row.parentId = true := by
  simp only [inSubtree,parent_of_row member,Option.join_some]
  split
  next here => simp [here]
  next below => simp [below]

theorem inSubtree_iff {top : String} {steps : Nat} (room : depth < steps)
    (member : row ∈ (shareDescent organizationId shareId).level snapshot.entries depth) :
    inSubtree (parentTable (loadedRows snapshot organizationId shareId)) top steps (some row.id) = true ↔
      Relation.ReflTransGen (Hangs snapshot.entries) top row.id := by
  induction depth generalizing row steps with
  | zero =>
    obtain ⟨steps,rfl⟩ : ∃ further, steps = further + 1 := ⟨steps - 1,by omega⟩
    have stop : inSubtree (parentTable (loadedRows snapshot organizationId shareId)) top steps none = false := by
      cases steps <;> rfl
    rw [inSubtree_step ((mem_loadedRows bounds).mpr ⟨0,member⟩),Relation.ReflTransGen.cases_tail_iff,
      root_parent member,stop]
    simp [hangs_row member,root_parent member]
  | succ depth ih =>
    obtain ⟨steps,rfl⟩ : ∃ further, steps = further + 1 := ⟨steps - 1,by omega⟩
    obtain ⟨upper,above,hangs⟩ := Descent.level_parent member
    rw [inSubtree_step ((mem_loadedRows bounds).mpr ⟨depth + 1,member⟩),Relation.ReflTransGen.cases_tail_iff,
      hangs,ih (by omega) above]
    simp [hangs_row member,hangs]

theorem mem_candidates {entryId : Option String} {id : String} :
    id ∈ candidates (loadedRows snapshot organizationId shareId) entryId ↔
      InScope snapshot organizationId shareId entryId id := by
  unfold InScope
  rw [← mem_loadedIds bounds]
  cases entryId with
  | none => simp [candidates]
  | some top =>
    simp only [candidates,mem_map,mem_filter,Option.some.injEq,forall_eq']
    have under {row : FolderRow} (listed : row ∈ loadedRows snapshot organizationId shareId) :
        inSubtree (parentTable (loadedRows snapshot organizationId shareId)) top
            ((loadedRows snapshot organizationId shareId).length + 1) (some row.id) = true ↔
          Relation.ReflTransGen (Hangs snapshot.entries) top row.id := by
      obtain ⟨depth,level⟩ := (mem_loadedRows bounds).mp listed
      have room := depth_lt_loadedRows bounds level
      exact inSubtree_iff bounds (by omega) level
    constructor
    · rintro ⟨row,⟨listed,inside⟩,rfl⟩
      exact ⟨⟨row,listed,rfl⟩,(under listed).mp inside⟩
    · rintro ⟨⟨row,listed,rfl⟩,inside⟩
      exact ⟨row,⟨listed,(under listed).mpr inside⟩,rfl⟩

omit bounds in
theorem candidates_nodup (entryId : Option String) :
    (candidates (loadedRows snapshot organizationId shareId) entryId).Nodup := by
  cases entryId with
  | none => exact loadedRows_nodup
  | some top => exact loadedRows_nodup.sublist (filter_sublist.map _)

omit bounds in
theorem shareId_apart {id : String}
    (member : id ∈ (loadedRows snapshot organizationId shareId).map FolderRow.id)
    (known : ∃ share ∈ snapshot.shares, share.organizationId = organizationId ∧ share.id = shareId) : id ≠ shareId := by
  obtain ⟨row,listed,rfl⟩ := mem_map.mp member
  obtain ⟨depth,_,level⟩ := Descent.mem_walk.mp (mem_of_mem_take listed)
  obtain ⟨entry,reached,same,_⟩ := Descent.level_sound level
  obtain ⟨share,stored,_,rfl⟩ := known
  exact same ▸ snapshot.apart share stored entry reached.stored

private theorem parents_root :
    (parents shareId (loadedRows snapshot organizationId shareId)).lookup shareId = some none := by
  refine (lookup_fill_of_notMem (fun listed => ?_)).trans (lookup_insert _)
  rw [map_map] at listed
  exact shareId_apart listed bounds.stored rfl

omit bounds in
private theorem parents_row (member : row ∈ loadedRows snapshot organizationId shareId) :
    (parents shareId (loadedRows snapshot organizationId shareId)).lookup row.id =
      some (some (row.parentId.getD shareId)) :=
  lookup_fill_of_mem (by simpa [comp_def] using loadedRows_nodup)
    (mem_map.mpr ⟨row,member,rfl⟩)

private theorem parents_size : (parents shareId (loadedRows snapshot organizationId shareId)).size =
    (loadedRows snapshot organizationId shareId).length + 1 := by
  have distinct : (((loadedRows snapshot organizationId shareId).map
      (fun row => (row.id,some (row.parentId.getD shareId)))).map Prod.fst).Nodup := by
    simpa [comp_def] using loadedRows_nodup
  rw [parents,size_fill distinct,size_insert_of_none (by simp),length_map,Nat.add_comm]
  · rfl
  · intro key listed
    rw [map_map] at listed
    rw [lookup_insert_ne (shareId_apart listed bounds.stored)]
    rfl

theorem climb_row (granted : String → List Grant) (steps : Nat) (room : depth + 1 < steps)
    (member : row ∈ (shareDescent organizationId shareId).level snapshot.entries depth) :
    ∃ below, climb (parents shareId (loadedRows snapshot organizationId shareId)) granted steps (some row.id) =
      some (below ++ [⟨shareId,none,granted shareId⟩]) := by
  induction depth generalizing row steps with
  | zero =>
    obtain ⟨steps,rfl⟩ : ∃ further, steps = further + 2 := ⟨steps - 2,by omega⟩
    have parent := parents_row ((mem_loadedRows bounds).mpr ⟨0,member⟩)
    rw [root_parent member] at parent
    exact ⟨[⟨row.id,some shareId,granted row.id⟩],by simp [climb,parent,parents_root bounds]⟩
  | succ depth ih =>
    obtain ⟨steps,rfl⟩ : ∃ further, steps = further + 1 := ⟨steps - 1,by omega⟩
    obtain ⟨upper,above,hangs⟩ := Descent.level_parent member
    have parent := parents_row ((mem_loadedRows bounds).mpr ⟨depth + 1,member⟩)
    rw [hangs] at parent
    obtain ⟨below,climbed⟩ := ih steps (by omega) above
    refine ⟨⟨row.id,some upper.id,granted row.id⟩::below,?_⟩
    change ((parents shareId (loadedRows snapshot organizationId shareId)).lookup row.id).bind _ = _
    rw [parent]
    simp [climbed]

omit bounds in
private theorem chainTo_of_climb {granted : String → List Grant} {node : String} (below : List AclNode)
    (climbed : climb (parents shareId (loadedRows snapshot organizationId shareId)) granted
      ((parents shareId (loadedRows snapshot organizationId shareId)).size + 1) (some node) =
        some (below ++ [⟨shareId,none,granted shareId⟩])) :
    (chainTo node shareId (parents shareId (loadedRows snapshot organizationId shareId)) granted).isSome := by
  simp [chainTo,climbed]

theorem chainTo_isSome (granted : String → List Grant) {node : String}
    (target : node = shareId ∨ InScope snapshot organizationId shareId none node) :
    (chainTo node shareId (parents shareId (loadedRows snapshot organizationId shareId)) granted).isSome := by
  rcases target with same | inside
  · rw [same]
    refine chainTo_of_climb [] ?_
    simp [climb,parents_root bounds]
  · obtain ⟨row,listed,rfl⟩ := mem_map.mp ((mem_loadedIds bounds).mpr inside.1)
    obtain ⟨depth,level⟩ := (mem_loadedRows bounds).mp listed
    have room := depth_lt_loadedRows bounds level
    have size := parents_size bounds
    obtain ⟨below,climbed⟩ := climb_row bounds granted
      ((parents shareId (loadedRows snapshot organizationId shareId)).size + 1) (by omega) level
    exact chainTo_of_climb below climbed

end Tree

section Job

def World.Faulty (world : World) : Prop :=
  (∃ call message, world.agent call = some message) ∨ ∃ principal message, world.gidFor principal = .error message

theorem entriesFor_error {gidFor : Principal → Except String (Option Nat)} {entries : List ResolvedEntry}
    {message : String} (failed : entriesFor gidFor entries = .error message) :
    ∃ entry ∈ entries, gidFor entry.principal = .error message := by
  induction entries with
  | nil => cases failed
  | cons entry rest ih =>
    have later (raised : entriesFor gidFor rest = .error message) :
        ∃ further ∈ entry::rest, gidFor further.principal = .error message := by
      obtain ⟨further,member,raised⟩ := ih raised
      exact ⟨further,mem_cons_of_mem _ member,raised⟩
    unfold entriesFor at failed
    split at failed
    next raised => cases failed; exact ⟨entry,mem_cons_self,raised⟩
    next => exact later failed
    next =>
      cases outcome : entriesFor gidFor rest with
      | error raised => rw [outcome] at failed; cases failed; exact later outcome
      | ok _ => rw [outcome] at failed; cases failed

theorem writeNode_spec (plan : Plan) (world : World) (node : String) :
    (∀ write ∈ (plan.writeNode world node).2, write.node = node) ∧
      ((plan.writeNode world node).1 = none → (plan.writeNode world node).2.isSome) ∧
      ((plan.writeNode world node).1.isSome → plan.chain node = none ∨ world.Faulty) := by
  unfold Plan.writeNode
  split
  next missing => simp [missing]
  next chain _ =>
    split
    next message failed =>
      obtain ⟨entry,_,raised⟩ := entriesFor_error failed
      exact ⟨by simp,by simp,fun _ => .inr (.inr ⟨entry.principal,message,raised⟩)⟩
    next entries _ =>
      refine ⟨fun write made => by cases made; rfl,fun _ => rfl,fun failed => .inr (.inl ?_)⟩
      simp only [Option.isSome_map] at failed
      obtain ⟨message,answered⟩ := Option.isSome_iff_exists.mp failed
      exact ⟨_,message,answered⟩

variable {plan : Plan} {world : World} {payload : ApplyAclPayload}

private theorem nodes_of_targets (targets : List String) :
    (((targets.map (plan.writeNode world)).filterMap Prod.snd).map Write.node).Sublist targets ∧
      ((targets.map (plan.writeNode world)).filterMap Prod.fst = [] →
        ((targets.map (plan.writeNode world)).filterMap Prod.snd).map Write.node = targets) := by
  induction targets with
  | nil => exact ⟨.slnil,fun _ => rfl⟩
  | cons node rest ih =>
    obtain ⟨named,made,_⟩ := writeNode_spec plan world node
    simp only [map_cons,filterMap_cons]
    cases write : (plan.writeNode world node).2 with
    | none =>
      refine ⟨ih.1.cons _,fun quiet => ?_⟩
      cases failure : (plan.writeNode world node).1 with
      | none => rw [write] at made; cases made failure
      | some message => rw [failure] at quiet; cases quiet
    | some written =>
      have same := named written write
      simp only [map_cons,same]
      refine ⟨ih.1.cons_cons _,fun quiet => ?_⟩
      cases failure : (plan.writeNode world node).1 with
      | none => rw [failure] at quiet; rw [ih.2 quiet]
      | some message => rw [failure] at quiet; cases quiet

theorem run_sublist : ((plan.run world payload).writes.map Write.node).Sublist (plan.targets payload) :=
  (nodes_of_targets _).1

theorem run_ok {next : Option String} (done : (plan.run world payload).result = .ok next) :
    (plan.run world payload).writes.map Write.node = plan.targets payload ∧ next = plan.folders.next := by
  simp only [Plan.run] at done ⊢
  split at done <;> cases done
  next quiet => exact ⟨(nodes_of_targets _).2 quiet,rfl⟩

theorem run_error {message : String} (failed : (plan.run world payload).result = .error message) :
    (∃ node ∈ plan.targets payload, plan.chain node = none) ∨ world.Faulty := by
  simp only [Plan.run] at failed
  split at failed
  next => cases failed
  next some =>
    obtain ⟨failure,member⟩ := exists_mem_of_ne_nil _ some
    obtain ⟨outcome,made,raised⟩ := mem_filterMap.mp member
    obtain ⟨node,target,rfl⟩ := mem_map.mp made
    obtain ⟨_,_,cause⟩ := writeNode_spec plan world node
    rcases cause (by simp [raised]) with missing | faulty
    · exact .inl ⟨node,target,missing⟩
    · exact .inr faulty

end Job

/-- The jobs of one change: the handler enqueues a continuation at the cursor the last
job answered, and stops when there is none or the job failed. -/
def applyAll (snapshot : Snapshot) (organizationId shareId : String) (entryId : Option String)
    (worlds : Nat → World) : Nat → Nat → Option String → Option (List Applied)
  | 0,_,_ => none
  | fuel + 1,job,after =>
    let applied := apply snapshot organizationId ⟨shareId,entryId,after⟩ (worlds job)
    match applied.result with
    | .ok (some next) =>
      (applyAll snapshot organizationId shareId entryId worlds fuel (job + 1) (some next)).map (applied::·)
    | _ => some [applied]

def Applied.Done (applied : Applied) : Prop := ∃ next, applied.result = .ok next

def written (jobs : List Applied) : List String := jobs.flatMap (fun applied => applied.writes.map Write.node)

def rootOf (shareId : String) (entryId after : Option String) : List String :=
  if entryId = none ∧ after = none then [shareId] else []

section Scope

variable {snapshot : Snapshot} {organizationId shareId : String} {entryId : Option String}

def scope (snapshot : Snapshot) (organizationId shareId : String) (entryId : Option String) : List String :=
  JsString.sort (candidates (loadedRows snapshot organizationId shareId) entryId)

theorem scope_ordered : (scope snapshot organizationId shareId entryId).Pairwise
    (fun first second => JsString.lt first second = true) :=
  JsString.sort_strict (candidates_nodup entryId)

theorem scope_nodup : (scope snapshot organizationId shareId entryId).Nodup :=
  (JsString.sort_perm _).nodup_iff.mpr (candidates_nodup entryId)

variable (bounds : Loadable snapshot organizationId shareId)

include bounds

theorem mem_scope {id : String} : id ∈ scope snapshot organizationId shareId entryId ↔
    InScope snapshot organizationId shareId entryId id :=
  (JsString.sort_perm _).mem_iff.trans (mem_candidates bounds)

variable (entryId) in
theorem plan_loadable (after : Option String) :
    ∃ ready, plan snapshot organizationId ⟨shareId,entryId,after⟩ = .ok ready ∧ ready.shareId = shareId ∧
      ready.folders.all = loadedRows snapshot organizationId shareId ∧
      (ready.folders.written,ready.folders.next) =
        Cursor.page JsString.lt APPLY_CHUNK (scope snapshot organizationId shareId entryId) after := by
  obtain ⟨share,stored,owner,id⟩ := bounds.stored
  have found : (snapshot.shares.find? (fun share => share.organizationId = organizationId ∧ share.id = shareId)).isSome := by
    rw [find?_isSome]
    exact ⟨share,stored,by simp [owner,id]⟩
  obtain ⟨known,lookup⟩ := Option.isSome_iff_exists.mp found
  have few : ¬TREE_LOAD_LIMIT ≤ (loadedRows snapshot organizationId shareId).length := by
    rw [loadedRows_whole bounds]
    exact Nat.not_le.mpr (walk_few bounds)
  have shallow : (loadedRows snapshot organizationId shareId).find?
      (fun row => decide (MAX_TREE_DEPTH ≤ row.depth)) = none := by
    refine find?_eq_none.mpr (fun row listed => ?_)
    obtain ⟨depth,level⟩ := (mem_loadedRows bounds).mp listed
    rw [Descent.level_depth level,decide_eq_true_eq]
    exact Nat.not_le.mpr (level_shallow bounds level)
  refine ⟨⟨known.name,shareId,⟨loadedRows snapshot organizationId shareId,
    (Cursor.page JsString.lt APPLY_CHUNK (scope snapshot organizationId shareId entryId) after).1,
    (Cursor.page JsString.lt APPLY_CHUNK (scope snapshot organizationId shareId entryId) after).2⟩,
    grantRows snapshot organizationId shareId⟩,?_,rfl,rfl,rfl⟩
  simp only [plan,shareName,folderRows,lookup,if_neg few,shallow]
  rfl

variable (entryId) in
theorem apply_chunk (after : Option String) (world : World) :
    let applied := apply snapshot organizationId ⟨shareId,entryId,after⟩ world
    let page := Cursor.page JsString.lt APPLY_CHUNK (scope snapshot organizationId shareId entryId) after
    (applied.writes.map Write.node).Sublist (rootOf shareId entryId after ++ page.1) ∧
      (∀ next, applied.result = .ok next →
        applied.writes.map Write.node = rootOf shareId entryId after ++ page.1 ∧ next = page.2) ∧
      (∀ message, applied.result = .error message → world.Faulty) := by
  obtain ⟨ready,planned,share,rows,page⟩ := plan_loadable entryId bounds after
  have targets : ready.targets ⟨shareId,entryId,after⟩ = rootOf shareId entryId after ++
      (Cursor.page JsString.lt APPLY_CHUNK (scope snapshot organizationId shareId entryId) after).1 := by
    rw [← page]
    simp only [Plan.targets,rootOf]
    split <;> rfl
  simp only [apply,planned]
  refine ⟨targets ▸ run_sublist,fun next done => ?_,fun message failed => ?_⟩
  · rw [← targets,← page]
    exact run_ok done
  · rcases run_error failed with ⟨node,target,missing⟩ | faulty
    · have inside : node = shareId ∨ InScope snapshot organizationId shareId none node := by
        rw [targets] at target
        rcases mem_append.mp target with root | folder
        · simp only [rootOf] at root
          split at root
          · exact .inl (mem_singleton.mp root)
          · cases root
        · have member : node ∈ scope snapshot organizationId shareId entryId := by
            have kept := mem_of_mem_take folder
            cases after with
            | none => exact kept
            | some mark => exact (mem_filter.mp kept).1
          exact .inr ⟨((mem_scope bounds).mp member).1,fun _ named => nomatch named⟩
      have reachable := chainTo_isSome bounds (granted ready.shareId ready.grants) inside
      rw [Plan.chain,share,rows] at missing
      rw [share,missing] at reachable
      cases reachable
    · exact faulty

variable (entryId) in
theorem applyAll_spec (worlds : Nat → World) (job : Nat) (after : Option String) :
    ∃ fuel jobs, applyAll snapshot organizationId shareId entryId worlds fuel job after = some jobs ∧
      (written jobs).Sublist (rootOf shareId entryId after ++
        Cursor.remaining JsString.lt (scope snapshot organizationId shareId entryId) after) ∧
      ((∀ applied ∈ jobs, applied.Done) → written jobs = rootOf shareId entryId after ++
        Cursor.remaining JsString.lt (scope snapshot organizationId shareId entryId) after) ∧
      ∀ index applied, jobs[index]? = some applied → ¬applied.Done → (worlds (job + index)).Faulty := by
  generalize size : (Cursor.remaining JsString.lt (scope snapshot organizationId shareId entryId) after).length = count
  induction count using Nat.strongRecOn generalizing job after with
  | ind count ih =>
    obtain ⟨within,done,fault⟩ := apply_chunk entryId bounds after (worlds job)
    generalize chunk : apply snapshot organizationId ⟨shareId,entryId,after⟩ (worlds job) = applied at within done fault
    cases outcome : applied.result with
    | error message =>
      refine ⟨1,[applied],by simp [applyAll,chunk,outcome],?_,fun all => ?_,fun index other found _ => ?_⟩
      · simp only [written,flatMap_cons,flatMap_nil,append_nil]
        exact within.trans ((take_sublist _ _).append_left _)
      · obtain ⟨next,ok⟩ := all applied mem_cons_self
        rw [outcome] at ok
        cases ok
      · obtain ⟨rfl,_⟩ : index = 0 ∧ applied = other := by
          cases index <;> simp_all
        exact fault message outcome
    | ok next =>
      obtain ⟨whole,cursor⟩ := done next outcome
      have sound : applied.Done := ⟨next,outcome⟩
      cases next with
      | none =>
        have last := Cursor.page_last (by decide) cursor.symm
        rw [last] at whole
        refine ⟨1,[applied],by simp [applyAll,chunk,outcome],?_,fun _ => ?_,fun index other found bad => ?_⟩
        · simp [written,whole]
        · simp [written,whole]
        · cases index <;> simp_all
      | some mark =>
        obtain ⟨split,positive⟩ := Cursor.page_next scope_ordered JsString.not_lt_self
          (fun _ _ => JsString.not_lt_back) (fun _ _ _ => JsString.lt_chain) cursor.symm
        have shorter : (Cursor.remaining JsString.lt (scope snapshot organizationId shareId entryId)
            (some mark)).length < count := by
          rw [← size,split,length_append]
          omega
        obtain ⟨fuel,jobs,ran,inside,all,faults⟩ := ih _ shorter (job + 1) (some mark) rfl
        have noRoot : rootOf shareId entryId (some mark) = [] := by simp [rootOf]
        rw [noRoot,nil_append] at inside all
        refine ⟨fuel + 1,applied::jobs,by simp [applyAll,chunk,outcome,ran],?_,fun good => ?_,
          fun index other found bad => ?_⟩
        · rw [split,← append_assoc,← whole]
          exact inside.append_left _
        · rw [split,← append_assoc,← whole,← all (fun later member => good later (mem_cons_of_mem _ member))]
          rfl
        · cases index with
          | zero => cases found; exact absurd sound bad
          | succ index =>
            have later := faults index other found bad
            rwa [Nat.add_assoc,Nat.add_comm 1] at later

end Scope

def sample : Snapshot where
  shares := [⟨"s","o","files"⟩]
  entries := [⟨"top","o","s",none,.folder,"Top",false⟩,⟨"sub","o","s",some "top",.folder,"Sub",false⟩]
  grants := [⟨"o","s",none,none,some "staff",["list","read"]⟩]
  keyed := by decide
  apart := by decide
  referenced := by decide

def quiet : World := ⟨fun _ => none,fun _ => .ok (some 300000)⟩

theorem sample_reaches {entry : FileEntry}
    (reached : (shareDescent "o" "s").Reaches sample.entries entry depth) :
    (entry.id = "top" ∧ depth = 0) ∨ (entry.id = "sub" ∧ depth = 1) := by
  induction reached with
  | start stored starts =>
    rcases mem_cons.mp stored with rfl | stored
    · exact .inl ⟨rfl,rfl⟩
    · cases mem_singleton.mp stored
      cases starts
  | enter _ stored _ child ih =>
    rcases mem_cons.mp stored with rfl | stored
    · cases child
    · cases mem_singleton.mp stored
      rcases ih with ⟨_,rfl⟩ | ⟨id,_⟩
      · exact .inr ⟨rfl,rfl⟩
      · rw [id] at child
        exact absurd child (by decide)

theorem sample_loadable : Loadable sample "o" "s" where
  stored := ⟨_,mem_cons_self,rfl,rfl⟩
  shallow entry depth reached := by
    rcases sample_reaches reached with ⟨_,rfl⟩ | ⟨_,rfl⟩ <;> decide
  few ids distinct within := by
    have inside : ids ⊆ ["top","sub"] := fun id member => by
      obtain ⟨⟨entry,depth,reached,rfl⟩,_⟩ := within id member
      rcases sample_reaches reached with ⟨id,_⟩ | ⟨id,_⟩ <;> simp [id]
    have count := (subperm_of_subset distinct inside).length_le
    have limit : 2 < TREE_LOAD_LIMIT := by decide
    simp only [length_cons,length_nil] at count
    omega

end Depsis.Acl

import Depsis.Permissions.Walks

/-! The folders a preview resolves: the changed node, then the untrashed folders
below it level by level. All of them hang in the share, and the rows the
preview loads hold the whole way up from each.
-/
namespace Depsis.Permissions

open Depsis.Authz Depsis.Files Depsis.Foundation List Bool

def Scope (tables : Tables) (organizationId : String) (target : Target) (id : String) (rank : Nat) : Prop :=
  (id = target.nodeKey ∧ rank = 0) ∨ ∃ entry depth,
    (liveDescent organizationId target.shareId target.entryId).Reaches tables.entries entry depth ∧
      entry.id = id ∧ rank = depth + 1

structure Located (tables : Tables) (organizationId : String) (target : Target) : Prop where
  shared : Shared tables target.shareId
  root : target.entryId = none → ∃ share ∈ tables.shares,
    share.organizationId = organizationId ∧ share.id = target.shareId
  hung : ∀ id, target.entryId = some id → ∃ entry depth, depth ≤ MAX_TREE_DEPTH ∧
    Placed tables.entries organizationId target.shareId entry depth ∧ entry.id = id

variable {tables : Tables} {organizationId : String} {target : Target}

theorem located_of_locate {ref : NodeRef} (trees : ShareTree tables organizationId)
    (located : locate tables organizationId ref = .ok target) : Located tables organizationId target := by
  cases ref with
  | share id =>
    simp only [locate] at located
    split at located <;> cases located
    next share found =>
      have test := find?_some found
      simp only [decide_eq_true_eq] at test
      have held := mem_of_find?_eq_some found
      exact ⟨⟨share,held,rfl⟩,fun _ => ⟨share,held,test.1,rfl⟩,by rintro _ ⟨⟩⟩
  | entry id =>
    simp only [locate] at located
    split at located <;> cases located
    next entry found =>
      have test := find?_some found
      simp only [decide_eq_true_eq] at test
      obtain ⟨shared,depth,room,placed⟩ := trees entry (mem_of_find?_eq_some found) test.1
      exact ⟨shared,by rintro ⟨⟩,fun id same => ⟨entry,depth,room,placed,Option.some.inj same⟩⟩

section Live

variable (trees : ShareTree tables organizationId) (located : Located tables organizationId target)

include located

theorem Located.inShare : InShare tables organizationId target.shareId target.nodeKey := by
  cases entry : target.entryId with
  | none => exact .inl (by rw [Target.nodeKey,entry]; rfl)
  | some id =>
    obtain ⟨upper,depth,room,placed,same⟩ := located.hung id entry
    exact .inr ⟨upper,depth,room,placed,by rw [Target.nodeKey,entry]; exact same⟩

private theorem live_base (trees : ShareTree tables organizationId) : ∃ base,
    (∀ entry depth, (liveDescent organizationId target.shareId target.entryId).Reaches tables.entries entry depth →
      Placed tables.entries organizationId target.shareId entry (base + depth)) ∧
    ∀ id, target.entryId = some id → ∃ upper level, upper.id = id ∧
      Placed tables.entries organizationId target.shareId upper level ∧ base = level + 1 := by
  -- A child found through its parent only, placed by the tree of its own share.
  have child {parent entry : FileEntry} {level : Nat}
      (above : Placed tables.entries organizationId target.shareId parent level) (stored : entry ∈ tables.entries)
      (owner : entry.organizationId = organizationId) (hangs : entry.parentId = some parent.id) :
      Placed tables.entries organizationId target.shareId entry (level + 1) := by
    obtain ⟨_,_,_,placed⟩ := trees entry stored owner
    cases placed with
    | top _ _ _ root => rw [root] at hangs; cases hangs
    | @inside _ _ _ upper _ _ _ under =>
      have same := Descent.entry_of_id tables.keyed upper.stored.1 above.stored.1
        (Option.some.inj (under.symm.trans hangs))
      have share : entry.shareId = target.shareId := by rw [← upper.stored.2.2,same,above.stored.2.2]
      exact .inside above stored owner share hangs
  have walk (base : Nat) (starts : ∀ entry, entry ∈ tables.entries →
      (liveDescent organizationId target.shareId target.entryId).starts entry = true →
        Placed tables.entries organizationId target.shareId entry base) (entry : FileEntry) (depth : Nat)
      (reached : (liveDescent organizationId target.shareId target.entryId).Reaches tables.entries entry depth) :
      Placed tables.entries organizationId target.shareId entry (base + depth) := by
    induction reached with
    | start stored begins => exact starts _ stored begins
    | enter _ stored enters hangs ih =>
      simp only [liveDescent,and_eq_true,decide_eq_true_eq] at enters
      exact child ih stored enters.1.1 hangs
  cases node : target.entryId with
  | none =>
    refine ⟨0,fun entry depth reached => walk 0 (fun entry stored begins => ?_) entry depth (node ▸ reached),
      nofun⟩
    simp only [liveDescent,node,and_eq_true,decide_eq_true_eq] at begins
    exact .top stored begins.1.1.1.1 begins.1.1.1.2 begins.1.1.2
  | some id =>
    obtain ⟨upper,level,_,placed,rfl⟩ := located.hung id node
    refine ⟨level + 1,fun entry depth reached => walk (level + 1) (fun entry stored begins => ?_) entry depth (node ▸ reached),
      fun other same => ⟨upper,level,Option.some.inj same,placed,rfl⟩⟩
    simp only [liveDescent,node,and_eq_true,decide_eq_true_eq] at begins
    exact child placed stored begins.1.1.1.1 begins.1.1.2

include trees

theorem live_placed {entry : FileEntry} {depth : Nat}
    (reached : (liveDescent organizationId target.shareId target.entryId).Reaches tables.entries entry depth) :
    ∃ level ≤ MAX_TREE_DEPTH, depth ≤ level ∧ Placed tables.entries organizationId target.shareId entry level := by
  obtain ⟨base,places,_⟩ := live_base located trees
  have placed := places entry depth reached
  obtain ⟨_,level,room,own⟩ := trees entry placed.stored.1 placed.stored.2.1
  rw [placed.stored.2.2] at own
  have same := placed.depth_unique own
  exact ⟨base + depth,by omega,by omega,placed⟩

theorem live_rooted : (liveDescent organizationId target.shareId target.entryId).Rooted tables.entries := by
  intro entry parent depth starts reached hangs
  simp only [liveDescent,and_eq_true,decide_eq_true_eq] at starts
  rw [starts.1.1.2] at hangs
  obtain ⟨base,places,node⟩ := live_base located trees
  obtain ⟨upper,level,same,above,rfl⟩ := node parent.id hangs
  have deeper := places parent depth reached
  rw [← Descent.entry_of_id tables.keyed above.stored.1 deeper.stored.1 same] at deeper
  have := above.depth_unique deeper
  omega

theorem scope_inShare {id : String} {rank : Nat} (inside : Scope tables organizationId target id rank) :
    InShare tables organizationId target.shareId id := by
  rcases inside with ⟨rfl,_⟩ | ⟨entry,depth,reached,rfl,_⟩
  · exact located.inShare
  · obtain ⟨level,room,_,placed⟩ := live_placed trees located reached
    exact .inr ⟨entry,level,room,placed,rfl⟩

omit trees in
theorem scope_owned {id : String} {rank : Nat} (inside : Scope tables organizationId target id rank)
    (same : id = target.shareId) : ∃ share ∈ tables.shares,
      share.organizationId = organizationId ∧ share.id = target.shareId := by
  have apart (entry : FileEntry) (stored : entry ∈ tables.entries) : entry.id ≠ target.shareId := by
    obtain ⟨share,held,id⟩ := located.shared
    rw [← id]
    exact tables.apart share held entry stored
  rcases inside with ⟨rfl,_⟩ | ⟨entry,depth,reached,rfl,_⟩
  · cases node : target.entryId with
    | none => exact located.root node
    | some id =>
      obtain ⟨entry,_,_,placed,rfl⟩ := located.hung id node
      rw [Target.nodeKey,node] at same
      exact absurd same (apart entry placed.stored.1)
  · exact absurd same (apart entry reached.stored)

omit trees in
theorem scope_above {id upper : String} {rank : Nat} (inside : Scope tables organizationId target id rank)
    (climbs : Relation.ReflTransGen (Under tables.entries target.shareId) id upper) :
    upper = target.shareId ∨ upper ∈ (rowsUp tables organizationId target.nodeKey).map NodeRow.id ∨
      ∃ entry depth, (liveDescent organizationId target.shareId target.entryId).Reaches tables.entries entry depth ∧
        entry.id = upper := by
  have own {upper : String}
      (climbs : Relation.ReflTransGen (Under tables.entries target.shareId) target.nodeKey upper) :
      upper = target.shareId ∨ upper ∈ (rowsUp tables organizationId target.nodeKey).map NodeRow.id :=
    ((mem_rowsUp located.shared located.inShare).mp climbs).symm
  rcases inside with ⟨rfl,-⟩ | ⟨entry,depth,reached,rfl,-⟩
  · exact (own climbs).imp_right .inl
  · induction reached with
    | @start entry stored starts =>
      rcases Relation.ReflTransGen.cases_head climbs with same | ⟨parent,above,further⟩
      · exact .inr (.inr ⟨entry,0,.start stored starts,same⟩)
      · simp only [liveDescent,and_eq_true,decide_eq_true_eq] at starts
        have node : parent = target.nodeKey :=
          under_forest tables.keyed _ _ _ above ⟨entry,stored,rfl,by rw [starts.1.1.2]; rfl⟩
        exact (own (node ▸ further)).imp_right .inl
    | @enter parent entry depth reached stored enters child ih =>
      rcases Relation.ReflTransGen.cases_head climbs with same | ⟨above',above,further⟩
      · exact .inr (.inr ⟨entry,depth + 1,.enter reached stored enters child,same⟩)
      · have node : above' = parent.id :=
          under_forest tables.keyed _ _ _ above ⟨entry,stored,rfl,by rw [child]; rfl⟩
        exact ih (node ▸ further)

def ranked (tables : Tables) (organizationId : String) (target : Target) : List (String × Nat) :=
  (target.nodeKey,0)::(liveRows tables organizationId target).map (fun row => (row.id,row.depth + 1))

theorem mem_ranked {id : String} {rank : Nat} :
    (id,rank) ∈ ranked tables organizationId target ↔ Scope tables organizationId target id rank := by
  simp only [ranked,Scope,mem_cons,mem_map,Prod.mk.injEq]
  refine or_congr_right ⟨?_,?_⟩
  · rintro ⟨row,listed,rfl,rfl⟩
    obtain ⟨depth,_,level⟩ := Descent.mem_walk.mp listed
    obtain ⟨entry,reached,same,_⟩ := Descent.level_sound level
    exact ⟨entry,depth,reached,same.symm,by rw [Descent.level_depth level]⟩
  · rintro ⟨entry,depth,reached,rfl,rfl⟩
    obtain ⟨row,level,same,_⟩ := Descent.level_complete reached
    obtain ⟨_,room,deep,_⟩ := live_placed trees located reached
    exact ⟨row,Descent.mem_walk.mpr ⟨depth,by omega,level⟩,same,by rw [Descent.level_depth level]⟩

theorem ranked_nodup : ((ranked tables organizationId target).map Prod.fst).Nodup := by
  have ids : (ranked tables organizationId target).map Prod.fst =
      target.nodeKey::(liveRows tables organizationId target).map FolderRow.id := by
    simp [ranked,Function.comp_def]
  rw [ids]
  refine nodup_cons.mpr ⟨fun again => ?_,Descent.walk_nodup tables.keyed (live_rooted trees located) _⟩
  obtain ⟨row,listed,same⟩ := mem_map.mp again
  obtain ⟨depth,_,level⟩ := Descent.mem_walk.mp listed
  obtain ⟨entry,reached,id,_⟩ := Descent.level_sound level
  obtain ⟨base,places,node⟩ := live_base located trees
  have deeper := places entry depth reached
  rcases located.inShare with root | ⟨upper,top,_,placed,key⟩
  · obtain ⟨share,held,shareId⟩ := located.shared
    exact tables.apart share held entry reached.stored (by rw [← id,same,root,shareId])
  · cases entryId : target.entryId with
    | none =>
      rw [Target.nodeKey,entryId] at key
      obtain ⟨share,held,shareId⟩ := located.shared
      exact tables.apart share held upper placed.stored.1 (by rw [key]; exact shareId.symm)
    | some name =>
      obtain ⟨upper,level',named,above,rfl⟩ := node name entryId
      have equal : upper = entry := by
        refine Descent.entry_of_id tables.keyed above.stored.1 reached.stored ?_
        rw [named,← id,same,Target.nodeKey,entryId]
        rfl
      have := above.depth_unique (equal ▸ deeper)
      omega

theorem ranked_ordered : (ranked tables organizationId target).Pairwise (fun first second =>
    first.2 < second.2 ∨ (first.2 = second.2 ∧ JsString.lt first.1 second.1 = true)) := by
  have distinct := ranked_nodup trees located
  rw [ranked,map_cons,nodup_cons] at distinct
  refine pairwise_cons.mpr ⟨fun later member => ?_,?_⟩
  · obtain ⟨row,_,rfl⟩ := mem_map.mp member
    exact .inl (by simp)
  · have apart := pairwise_map.mp distinct.2
    have order := @Descent.walk_ordered (liveDescent organizationId target.shareId target.entryId)
      tables.entries MAX_TREE_DEPTH
    refine pairwise_map.mpr ((order.and (pairwise_map.mp apart)).imp (fun {first second} both => ?_))
    rcases both.1 with shallower | ⟨level,below⟩
    · exact .inl (by simpa using shallower)
    · refine .inr ⟨by simpa using level,decide_eq_true (lt_of_le_of_ne below (fun same => both.2 ?_))⟩
      exact JsString.encode_injective same

end Live

end Depsis.Permissions

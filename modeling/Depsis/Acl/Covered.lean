import Depsis.Acl.Chunks

/-! What a job sends for a principal against the `folder_grants` row nearest to
the folder. The job drops the names it does not know, and a row left without any
is dropped whole, so that a wider row above it shows through.
-/
namespace Depsis.Acl

open Depsis.Authz Depsis.Files Depsis.Foundation Depsis.Permissions List Option

def rowAt (shareId : String) (rows : List GrantRow) (test : GrantRow → Bool) (principal : Principal)
    (node : String) : Option GrantRow :=
  rows.find? (fun row => decide (nodeOf shareId row = node) && decide (principalOf row = some principal) && test row)

def any (_ : GrantRow) : Bool := true

def known (row : GrantRow) : Bool := row.permissions.any (fun name => (asPermission name).isSome)

def NearestRow (snapshot : Snapshot) (organizationId shareId : String) (test : GrantRow → Bool)
    (principal : Principal) : String → GrantRow → Prop :=
  Inherits (Under snapshot.entries shareId)
    (rowAt shareId (grantRows snapshot organizationId shareId) test principal)

def rowReads (row : GrantRow) : Bool := row.permissions.contains "list"

def rowWrites (row : GrantRow) : Bool :=
  row.permissions.contains "create" || row.permissions.contains "modify" || row.permissions.contains "move" ||
    row.permissions.contains "delete"

def rowEnters (row : GrantRow) : Bool :=
  rowReads row || rowWrites row || row.permissions.contains "read" || row.permissions.contains "download"

def Covers (row : GrantRow) (entry : AclEntry) : Prop :=
  (entry.read = true → rowReads row = true) ∧ (entry.write = true → rowWrites row = true) ∧
    (entry.execute = true → rowEnters row = true)

/-- What the job sends for the principal on the folder is covered by its nearest row,
and nothing is sent past a nearest row that carries no bit. -/
def WithinGrants (snapshot : Snapshot) (organizationId : String) (payload : ApplyAclPayload) (world : World)
    (node : String) (principal : Principal) : Prop :=
  ∀ write ∈ (apply snapshot organizationId payload world).writes, write.node = node →
    ∀ entry, (principal,entry) ∈ write.entries →
      (∃ row, NearestRow snapshot organizationId payload.shareId any principal node row ∧ Covers row entry) ∧
      ∀ row, NearestRow snapshot organizationId payload.shareId any principal node row → rowEnters row = true

section Bits

theorem contains_known (names : List String) (permission : Permission) :
    (sortPermissions (names.filterMap asPermission)).contains permission = names.contains permission.name := by
  rw [Bool.eq_iff_iff,contains_iff_mem,contains_iff_mem,mem_sortPermissions,mem_filterMap]
  constructor
  · rintro ⟨name,member,found⟩
    rwa [asPermission_some found]
  · exact fun member => ⟨permission.name,member,asPermission_name permission⟩

def rowEntry (principal : Principal) (row : GrantRow) : Option ResolvedEntry :=
  if rowEnters row then some ⟨principal,rowReads row,rowWrites row,rowEnters row⟩ else none

theorem known_of_rowEnters {row : GrantRow} (enters : rowEnters row = true) : known row = true := by
  have named (permission : Permission) (member : row.permissions.contains permission.name = true) :
      known row = true :=
    any_eq_true.mpr ⟨permission.name,contains_iff_mem.mp member,by simp [asPermission_name]⟩
  simp only [rowEnters,rowReads,rowWrites,Bool.or_eq_true] at enters
  rcases enters with ((list | ((create | modify) | move) | delete) | read) | download
  · exact named .list list
  · exact named .create create
  · exact named .modify modify
  · exact named .move move
  · exact named .delete delete
  · exact named .read read
  · exact named .download download

private theorem grantOf_some {row : GrantRow} {grant : Grant} : grantOf row = some grant ↔
    known row = true ∧ principalOf row = some grant.principal ∧
      grant.permissions = row.permissions.filterMap asPermission := by
  have none_known : row.permissions.filterMap asPermission = [] ↔ known row = false := by
    simp [known,filterMap_eq_nil_iff]
  unfold grantOf
  cases principalOf row with
  | none => simp
  | some principal =>
    obtain ⟨owner,permissions⟩ := grant
    by_cases empty : row.permissions.filterMap asPermission = []
    · simp [empty,none_known.mp empty]
    · have names : known row = true := by
        cases unknown : known row with
        | true => rfl
        | false => exact absurd (none_known.mpr unknown) empty
      simp [empty,names,eq_comm]

end Bits

section Walk

variable {shareId : String} {rows : List GrantRow} {principal : Principal}

private theorem grantOn_granted {node : AclNode} (grants : node.grants = granted shareId rows node.id) :
    grantOn node principal = (rowAt shareId rows known principal node.id).map (fun row =>
      ⟨principal,node.id,sortPermissions (row.permissions.filterMap asPermission)⟩) := by
  have same : (granted shareId rows node.id).find? (fun candidate => candidate.principal = principal) =
      (rowAt shareId rows known principal node.id).bind grantOf := by
    rw [granted,find?_filterMap,find?_filter]
    refine congrArg (fun test => (rows.find? test).bind grantOf) (funext (fun row => ?_))
    cases made : grantOf row with
    | none =>
      cases names : known row with
      | false => simp
      | true =>
        have bare : principalOf row ≠ some principal := fun owner => by
          have kept : grantOf row = some ⟨principal,row.permissions.filterMap asPermission⟩ :=
            grantOf_some.mpr ⟨names,owner,rfl⟩
          rw [made] at kept
          cases kept
        simp [bare]
    | some grant =>
      obtain ⟨names,owner,_⟩ := grantOf_some.mp made
      simp [names,owner]
  rw [grantOn,grants,same]
  cases found : rowAt shareId rows known principal node.id with
  | none => rfl
  | some row =>
    have test := find?_some found
    simp only [Bool.and_eq_true,decide_eq_true_eq] at test
    have made : grantOf row = some ⟨principal,row.permissions.filterMap asPermission⟩ :=
      grantOf_some.mpr ⟨test.2,test.1.2,rfl⟩
    simp [made]

theorem aclFor_walk {reversed : List AclNode} (grants : ∀ node ∈ reversed, node.grants = granted shareId rows node.id) :
    aclFor reversed.reverse principal =
      ((reversed.map AclNode.id).findSome? (rowAt shareId rows known principal)).bind (rowEntry principal) := by
  simp only [aclFor,nearestGrant,reverse_reverse]
  induction reversed with
  | nil => rfl
  | cons node rest ih =>
    simp only [map_cons,findSome?_cons,grantOn_granted (grants node mem_cons_self)]
    cases found : rowAt shareId rows known principal node.id with
    | none => exact ih (fun upper member => grants upper (mem_cons_of_mem _ member))
    | some row =>
      have reads : readBit (sortPermissions (row.permissions.filterMap asPermission)) = rowReads row :=
        contains_known _ _
      have writes : writeBit (sortPermissions (row.permissions.filterMap asPermission)) = rowWrites row := by
        simp only [writeBit,contains_known]
        rfl
      have enters : executeBit (sortPermissions (row.permissions.filterMap asPermission)) = rowEnters row := by
        simp only [executeBit,reads,writes,contains_known]
        rfl
      simp only [map_some,bind_some,reads,writes,enters,rowEntry]
      cases none : rowEnters row with
      | true => simp
      | false =>
        have parts := none
        simp only [rowEnters,Bool.or_eq_false_iff] at parts
        simp [parts]

end Walk

section Ancestry

variable {snapshot : Snapshot} {organizationId shareId : String}

variable (known : ∃ share ∈ snapshot.shares, share.organizationId = organizationId ∧ share.id = shareId)

include known

theorem under_root (parent : String) : ¬Under snapshot.entries shareId shareId parent := by
  rintro ⟨entry,stored,same,_⟩
  obtain ⟨share,held,_,rfl⟩ := known
  exact snapshot.apart share held entry stored same

omit known in
private theorem parents_some {node : String} {parent : Option String}
    (found : (parents shareId (loadedRows snapshot organizationId shareId)).lookup node = some parent) :
    (∃ upper, parent = some upper ∧ Under snapshot.entries shareId node upper) ∨ (node = shareId ∧ parent = none) := by
  rcases AList.lookup_fill_some found with listed | root
  · obtain ⟨row,member,same⟩ := mem_map.mp listed
    cases same
    obtain ⟨depth,_,level⟩ := Descent.mem_walk.mp (mem_of_mem_take member)
    obtain ⟨entry,reached,id,above⟩ := Descent.level_sound level
    exact .inl ⟨_,rfl,entry,reached.stored,id.symm,by rw [above]⟩
  · rcases AList.lookup_insert_cases root with ⟨same,rfl⟩ | ⟨-,root⟩
    · exact .inr ⟨same,rfl⟩
    · cases root

theorem climb_path {granted : String → List Grant} {steps : Nat} {node : String} {reversed : List AclNode}
    (climbed : climb (parents shareId (loadedRows snapshot organizationId shareId)) granted steps (some node) =
      some reversed) :
    (∃ above, reversed.map AclNode.id = node::above ∧ Path (Under snapshot.entries shareId) (node::above)) ∧
      ∀ upper ∈ reversed, upper.grants = granted upper.id := by
  induction steps generalizing node reversed with
  | zero => cases climbed
  | succ steps ih =>
    simp only [climb,bind_eq_some_iff,map_eq_some_iff] at climbed
    obtain ⟨parent,found,above,rest,rfl⟩ := climbed
    rcases parents_some found with ⟨upper,rfl,under⟩ | ⟨rfl,rfl⟩
    · obtain ⟨⟨further,ids,path⟩,grants⟩ := ih rest
      refine ⟨⟨upper::further,by simp [ids],.step under path⟩,fun other member => ?_⟩
      rcases mem_cons.mp member with rfl | later
      · rfl
      · exact grants other later
    · have stop : above = [] := by
        cases steps <;> cases rest <;> rfl
      subst stop
      refine ⟨⟨[],rfl,.top (under_root known)⟩,fun other member => ?_⟩
      cases mem_singleton.mp member
      rfl

variable {principal : Principal}

theorem aclFor_chain {node : String} {chain : List AclNode} {entry : ResolvedEntry}
    (found : chainTo node shareId (parents shareId (loadedRows snapshot organizationId shareId))
      (granted shareId (grantRows snapshot organizationId shareId)) = some chain) :
    aclFor chain principal = some entry ↔
      ∃ row, NearestRow snapshot organizationId shareId Acl.known principal node row ∧
        rowEntry principal row = some entry := by
  obtain ⟨reversed,climbed,ends⟩ := bind_eq_some_iff.mp found
  obtain ⟨⟨above,ids,path⟩,grants⟩ := climb_path known climbed
  have turned : chain = reversed.reverse := by
    split at ends
    · split at ends <;> cases ends
      rfl
    · cases ends
  rw [turned,aclFor_walk grants,ids,bind_eq_some_iff]
  refine exists_congr (fun row => and_congr_left' ?_)
  exact Inherits.findSome?_iff (under_forest snapshot.keyed) path

end Ancestry

section Reading

variable {snapshot : Snapshot} {organizationId : String} {payload : ApplyAclPayload} {ready : Plan}

private theorem loadable_of_rows {shareId : String}
    (stored : ∃ share ∈ snapshot.shares, share.organizationId = organizationId ∧ share.id = shareId)
    (few : ¬TREE_LOAD_LIMIT ≤ (loadedRows snapshot organizationId shareId).length)
    (shallow : (loadedRows snapshot organizationId shareId).find?
      (fun row => decide (MAX_TREE_DEPTH ≤ row.depth)) = none) : Loadable snapshot organizationId shareId := by
  have whole : loadedRows snapshot organizationId shareId =
      (shareDescent organizationId shareId).walk snapshot.entries (MAX_TREE_DEPTH + 1) := by
    refine take_of_length_le ?_
    rw [loadedRows,length_take] at few
    omega
  have bounded {depth : Nat} {row : FolderRow}
      (level : row ∈ (shareDescent organizationId shareId).level snapshot.entries depth) : depth < MAX_TREE_DEPTH := by
    by_contra deep
    -- The tree is cut one level past the bound, so a deeper row shows as its ancestor at the bound.
    have above : (shareDescent organizationId shareId).level snapshot.entries MAX_TREE_DEPTH ≠ [] := by
      have lower : row ∈ (shareDescent organizationId shareId).level snapshot.entries
          (MAX_TREE_DEPTH + (depth - MAX_TREE_DEPTH)) := by
        rwa [Nat.add_sub_of_le (Nat.not_lt.mp deep)]
      exact Descent.level_above lower
    obtain ⟨upper,member⟩ := exists_mem_of_ne_nil _ above
    have listed : upper ∈ loadedRows snapshot organizationId shareId := by
      rw [whole]
      exact Descent.mem_walk.mpr ⟨MAX_TREE_DEPTH,by omega,member⟩
    have small := find?_eq_none.mp shallow upper listed
    rw [Descent.level_depth member] at small
    simp at small
  refine ⟨stored,fun entry depth reached => ?_,fun ids distinct within => ?_⟩
  · obtain ⟨row,level,_⟩ := Descent.level_complete reached
    exact bounded level
  · have inside : ids ⊆ (loadedRows snapshot organizationId shareId).map FolderRow.id := by
      intro id member
      obtain ⟨⟨entry,depth,reached,rfl⟩,_⟩ := within id member
      obtain ⟨row,level,same,_⟩ := Descent.level_complete reached
      have shallow := bounded level
      rw [whole]
      exact mem_map.mpr ⟨row,Descent.mem_walk.mpr ⟨depth,by omega,level⟩,same⟩
    have count := (subperm_of_subset distinct inside).length_le
    rw [length_map] at count
    omega

theorem plan_ok (planned : plan snapshot organizationId payload = .ok ready) :
    Loadable snapshot organizationId payload.shareId ∧ ready.shareId = payload.shareId ∧
      ready.folders.all = loadedRows snapshot organizationId payload.shareId ∧
      ready.folders.written = (Cursor.page JsString.lt APPLY_CHUNK
        (scope snapshot organizationId payload.shareId payload.entryId) payload.after).1 ∧
      ready.grants = grantRows snapshot organizationId payload.shareId := by
  simp only [plan,shareName,folderRows] at planned
  cases found : snapshot.shares.find?
      (fun share => share.organizationId = organizationId ∧ share.id = payload.shareId) with
  | none => rw [found] at planned; cases planned
  | some share =>
    have test := find?_some found
    simp only [decide_eq_true_eq] at test
    rw [found] at planned
    by_cases few : TREE_LOAD_LIMIT ≤ (loadedRows snapshot organizationId payload.shareId).length
    · rw [if_pos few] at planned
      cases planned
    · rw [if_neg few] at planned
      cases shallow : (loadedRows snapshot organizationId payload.shareId).find?
          (fun row => decide (MAX_TREE_DEPTH ≤ row.depth)) with
      | some row => rw [shallow] at planned; cases planned
      | none =>
        rw [shallow] at planned
        cases planned
        exact ⟨loadable_of_rows ⟨share,mem_of_find?_eq_some found,test⟩ few shallow,rfl,rfl,rfl,rfl⟩

theorem targets_inside (planned : plan snapshot organizationId payload = .ok ready) {node : String}
    (target : node ∈ ready.targets payload) :
    node = payload.shareId ∨ InScope snapshot organizationId payload.shareId none node := by
  obtain ⟨bounds,_,_,written,_⟩ := plan_ok planned
  have folder (listed : node ∈ ready.folders.written) :
      InScope snapshot organizationId payload.shareId none node := by
    rw [written] at listed
    have kept : node ∈ scope snapshot organizationId payload.shareId payload.entryId := by
      have kept := mem_of_mem_take listed
      cases after : payload.after with
      | none => rwa [after] at kept
      | some mark => rw [after] at kept; exact (mem_filter.mp kept).1
    exact ⟨((mem_scope bounds).mp kept).1,fun _ named => nomatch named⟩
  simp only [Plan.targets] at target
  split at target
  · rcases mem_cons.mp target with root | listed
    · exact .inl root
    · exact .inr (folder listed)
  · exact .inr (folder target)

end Reading

section Sending

private theorem entriesFor_ok {gidFor : Principal → Except String (Option Nat)} {resolved : List ResolvedEntry}
    {entries : List (Principal × AclEntry)} (sent : entriesFor gidFor resolved = .ok entries) :
    (∀ entry ∈ resolved, ∃ number, gidFor entry.principal = .ok number) ∧
      ∀ principal acl, (principal,acl) ∈ entries ↔ ∃ entry ∈ resolved, ∃ gid, entry.principal = principal ∧
        gidFor principal = .ok (some gid) ∧ acl = ⟨gid,entry.read,entry.write,entry.execute⟩ := by
  induction resolved generalizing entries with
  | nil => cases sent; simp
  | cons entry rest ih =>
    unfold entriesFor at sent
    split at sent
    next => cases sent
    next found =>
      obtain ⟨numbered,listed⟩ := ih sent
      refine ⟨?_,fun principal acl => (listed principal acl).trans ?_⟩
      · rintro upper (_ | ⟨_,member⟩)
        · exact ⟨none,found⟩
        · exact numbered upper member
      · constructor
        · rintro ⟨upper,member,made⟩
          exact ⟨upper,mem_cons_of_mem _ member,made⟩
        · rintro ⟨upper,_ | ⟨_,member⟩,gid,rfl,given,rfl⟩
          · rw [found] at given; cases given
          · exact ⟨upper,member,gid,rfl,given,rfl⟩
    next number found =>
      cases outcome : entriesFor gidFor rest with
      | error => rw [outcome] at sent; cases sent
      | ok further =>
        rw [outcome] at sent
        cases sent
        obtain ⟨numbered,listed⟩ := ih outcome
        refine ⟨?_,fun principal acl => ?_⟩
        · rintro upper (_ | ⟨_,member⟩)
          · exact ⟨some number,found⟩
          · exact numbered upper member
        · rw [mem_cons,listed principal acl]
          constructor
          · rintro (made | ⟨upper,member,made⟩)
            · cases made
              exact ⟨entry,mem_cons_self,number,rfl,found,rfl⟩
            · exact ⟨upper,mem_cons_of_mem _ member,made⟩
          · rintro ⟨upper,_ | ⟨_,member⟩,gid,rfl,given,rfl⟩
            · rw [found] at given
              cases given
              exact .inl rfl
            · exact .inr ⟨upper,member,gid,rfl,given,rfl⟩

variable {snapshot : Snapshot} {organizationId : String} {payload : ApplyAclPayload} {ready : Plan} {world : World}
variable {node : String}

def Numbered (snapshot : Snapshot) (organizationId shareId : String) (world : World) (node : String) : Prop :=
  ∀ principal row, NearestRow snapshot organizationId shareId known principal node row → rowEnters row = true →
    ∃ number, world.gidFor principal = .ok number

private theorem nearest_listed {shareId : String} {test : GrantRow → Bool} {row : GrantRow}
    (nearest : NearestRow snapshot organizationId shareId test principal node row) :
    principal ∈ principals (grantRows snapshot organizationId shareId) := by
  induction nearest with
  | own here =>
    have test := find?_some here
    simp only [Bool.and_eq_true,decide_eq_true_eq] at test
    exact mem_eraseDups.mpr (mem_filterMap.mpr ⟨_,mem_of_find?_eq_some here,test.1.2⟩)
  | inherited _ _ _ ih => exact ih

private theorem mem_resolved (planned : plan snapshot organizationId payload = .ok ready) {chain : List AclNode}
    (found : ready.chain node = some chain) {entry : ResolvedEntry} :
    entry ∈ ready.resolved chain ↔ ∃ principal row,
      NearestRow snapshot organizationId payload.shareId known principal node row ∧
        rowEntry principal row = some entry := by
  obtain ⟨bounds,share,rows,_,grants⟩ := plan_ok planned
  rw [Plan.chain,share,rows,grants] at found
  simp only [Plan.resolved,grants,mem_filterMap]
  constructor
  · rintro ⟨principal,_,made⟩
    obtain ⟨row,nearest,carried⟩ := (aclFor_chain bounds.stored found).mp made
    exact ⟨principal,row,nearest,carried⟩
  · rintro ⟨principal,row,nearest,carried⟩
    exact ⟨principal,nearest_listed nearest,(aclFor_chain bounds.stored found).mpr ⟨row,nearest,carried⟩⟩

private theorem rowEntry_some {row : GrantRow} {entry : ResolvedEntry} :
    rowEntry principal row = some entry ↔
      rowEnters row = true ∧ entry = ⟨principal,rowReads row,rowWrites row,rowEnters row⟩ := by
  unfold rowEntry
  split
  next enters => simp only [enters,true_and,Option.some.injEq]; exact eq_comm
  next bare => simp [bare]

theorem sent_iff (planned : plan snapshot organizationId payload = .ok ready)
    (target : node ∈ ready.targets payload) (principal : Principal) (acl : AclEntry) :
    (∃ write ∈ (apply snapshot organizationId payload world).writes, write.node = node ∧
        (principal,acl) ∈ write.entries) ↔
      Numbered snapshot organizationId payload.shareId world node ∧ ∃ gid row,
        world.gidFor principal = .ok (some gid) ∧
        NearestRow snapshot organizationId payload.shareId known principal node row ∧ rowEnters row = true ∧
        acl = ⟨gid,rowReads row,rowWrites row,rowEnters row⟩ := by
  obtain ⟨bounds,share,rows,_,grants⟩ := plan_ok planned
  have reachable : (ready.chain node).isSome := by
    rw [Plan.chain,share,rows]
    exact chainTo_isSome bounds _ (targets_inside planned target)
  obtain ⟨chain,found⟩ := isSome_iff_exists.mp reachable
  have writes : (∃ write ∈ (apply snapshot organizationId payload world).writes, write.node = node ∧
      (principal,acl) ∈ write.entries) ↔
        ∃ entries, entriesFor world.gidFor (ready.resolved chain) = .ok entries ∧ (principal,acl) ∈ entries := by
    simp only [apply,planned,Plan.run]
    constructor
    · rintro ⟨write,member,rfl,inside⟩
      obtain ⟨outcome,made,wrote⟩ := mem_filterMap.mp member
      obtain ⟨upper,_,rfl⟩ := mem_map.mp made
      have same := (writeNode_spec ready world upper).1 write wrote
      subst same
      simp only [Plan.writeNode,found] at wrote
      split at wrote
      next => cases wrote
      next entries sent =>
        rw [← Option.some.inj wrote] at inside
        exact ⟨entries,sent,inside⟩
    · rintro ⟨entries,sent,inside⟩
      refine ⟨⟨node,((partsOf ready.shareId ready.folders.all).lookup node).getD [],entries⟩,?_,rfl,inside⟩
      refine mem_filterMap.mpr ⟨ready.writeNode world node,mem_map_of_mem target,?_⟩
      simp only [Plan.writeNode,found,sent]
  rw [writes]
  constructor
  · rintro ⟨entries,sent,inside⟩
    obtain ⟨numbered,listed⟩ := entriesFor_ok sent
    obtain ⟨entry,member,gid,rfl,given,rfl⟩ := (listed principal acl).mp inside
    obtain ⟨other,row,nearest,carried⟩ := (mem_resolved planned found).mp member
    obtain ⟨enters,rfl⟩ := rowEntry_some.mp carried
    refine ⟨fun upper held above bits => ?_,gid,row,given,nearest,enters,rfl⟩
    exact numbered _ ((mem_resolved planned found).mpr ⟨upper,held,above,rowEntry_some.mpr ⟨bits,rfl⟩⟩)
  · rintro ⟨numbered,gid,row,given,nearest,enters,rfl⟩
    have entry := (mem_resolved planned found).mpr ⟨principal,row,nearest,rowEntry_some.mpr ⟨enters,rfl⟩⟩
    cases sent : entriesFor world.gidFor (ready.resolved chain) with
    | error message =>
      obtain ⟨failing,member,raised⟩ := entriesFor_error sent
      obtain ⟨upper,held,above,carried⟩ := (mem_resolved planned found).mp member
      obtain ⟨bits,rfl⟩ := rowEntry_some.mp carried
      obtain ⟨number,given⟩ := numbered upper held above bits
      rw [given] at raised
      cases raised
    | ok entries => exact ⟨entries,rfl,((entriesFor_ok sent).2 principal _).mpr ⟨_,entry,gid,rfl,given,rfl⟩⟩

/-- The nearest row names nothing this build knows, and behind it a row shows through
that carries a bit. -/
def ShowsThrough (snapshot : Snapshot) (organizationId shareId node : String) (principal : Principal) : Prop :=
  (∃ narrow, NearestRow snapshot organizationId shareId any principal node narrow ∧ known narrow = false) ∧
    ∃ wide, NearestRow snapshot organizationId shareId known principal node wide ∧ rowEnters wide = true

private theorem rowAt_known {shareId : String} {rows : List GrantRow} :
    (∀ upper, rowAt shareId rows any principal upper = none → rowAt shareId rows known principal upper = none) ∧
      ∀ row, known row = true → ∀ upper, rowAt shareId rows any principal upper = some row →
        rowAt shareId rows known principal upper = some row := by
  refine ⟨fun upper bare => ?_,fun row names upper held => ?_⟩
  · refine find?_eq_none.mpr (fun row member test => ?_)
    refine find?_eq_none.mp bare row member ?_
    simp only [Bool.and_eq_true] at test
    simp [any,test.1.1,test.1.2]
  · obtain ⟨test,front,back,split,before⟩ := find?_eq_some_iff_append.mp held
    refine find?_eq_some_iff_append.mpr ⟨?_,front,back,split,fun other member => ?_⟩
    · simp only [Bool.and_eq_true] at test
      simp [names,test.1.1,test.1.2]
    · have fails := before other member
      simp only [any,Bool.and_true,Bool.not_eq_true'] at fails
      simp [fails]

theorem not_within {gid : Nat} (planned : plan snapshot organizationId payload = .ok ready)
    (target : node ∈ ready.targets payload)
    (numbered : Numbered snapshot organizationId payload.shareId world node)
    (given : world.gidFor principal = .ok (some gid))
    (shows : ShowsThrough snapshot organizationId payload.shareId node principal) :
    ¬WithinGrants snapshot organizationId payload world node principal := by
  obtain ⟨⟨narrow,nearest,unknown⟩,wide,shown,enters⟩ := shows
  intro within
  obtain ⟨write,made,same,inside⟩ := (sent_iff planned target principal _).mpr
    ⟨numbered,gid,wide,given,shown,enters,rfl⟩
  have carries := (within write made same _ inside).2 narrow nearest
  rw [known_of_rowEnters carries] at unknown
  cases unknown

private theorem target_of_write {write : Write} (made : write ∈ (apply snapshot organizationId payload world).writes) :
    ∃ ready, plan snapshot organizationId payload = .ok ready ∧ write.node ∈ ready.targets payload := by
  cases planned : plan snapshot organizationId payload with
  | error => simp only [apply,planned] at made; cases made
  | ok ready =>
    simp only [apply,planned] at made
    exact ⟨ready,rfl,run_sublist.subset (mem_map_of_mem made)⟩

/-- A job stays within the grants of a principal on a folder exactly when it does not send
past a nearest row whose names it has dropped. -/
theorem job_within_grants (snapshot : Snapshot) (organizationId : String) (payload : ApplyAclPayload) (world : World)
    (node : String) (principal : Principal) : WithinGrants snapshot organizationId payload world node principal ↔
    ¬((∃ ready, plan snapshot organizationId payload = .ok ready ∧ node ∈ ready.targets payload) ∧
      Numbered snapshot organizationId payload.shareId world node ∧
      (∃ gid, world.gidFor principal = .ok (some gid)) ∧
      ShowsThrough snapshot organizationId payload.shareId node principal) := by
  constructor
  · rintro within ⟨⟨ready,planned,target⟩,numbered,⟨gid,given⟩,shows⟩
    exact not_within planned target numbered given shows within
  · intro covered write made same acl inside
    obtain ⟨ready,planned,target⟩ := target_of_write made
    rw [same] at target
    obtain ⟨numbered,gid,wide,given,shown,enters,rfl⟩ :=
      (sent_iff planned target principal acl).mp ⟨write,made,same,inside⟩
    obtain ⟨row,nearest⟩ := shown.exists_of_thin rowAt_known.1
    have names : known row = true := by
      by_contra dropped
      exact covered ⟨⟨ready,planned,target⟩,numbered,⟨gid,given⟩,
        ⟨row,nearest,Bool.not_eq_true _ ▸ dropped⟩,wide,shown,enters⟩
    have own : row = wide :=
      Inherits.unique (under_forest snapshot.keyed) (nearest.thin rowAt_known.1 (rowAt_known.2 row names)) shown
    subst own
    refine ⟨⟨row,nearest,id,id,id⟩,fun other again => ?_⟩
    rwa [Inherits.unique (under_forest snapshot.keyed) again nearest]

/-- The staff may list and read the share, and on `top` hold only a permission newer than
this build. -/
def widened : Snapshot :=
  { sample with
    grants := [⟨"o","s",none,none,some "staff",["list","read"]⟩,⟨"o","s",some "top",none,some "staff",["future"]⟩]
    referenced := by decide }

theorem job_exceeds_grants : ¬∀ snapshot organizationId payload world node principal,
    WithinGrants snapshot organizationId payload world node principal := by
  intro within
  have bounds : Loadable widened "o" "s" :=
    ⟨sample_loadable.stored,sample_loadable.shallow,sample_loadable.few⟩
  obtain ⟨ready,planned,_,_,page⟩ := plan_loadable none bounds none
  have root : (shareDescent "o" "s").Reaches widened.entries ⟨"top","o","s",none,.folder,"Top",false⟩ 0 :=
    .start mem_cons_self rfl
  have listed : "top" ∈ scope widened "o" "s" none :=
    (mem_scope bounds).mpr ⟨⟨_,0,root,rfl⟩,fun _ named => nomatch named⟩
  have few : (scope widened "o" "s" none).length ≤ ["top","sub"].length := by
    refine (subperm_of_subset scope_nodup (fun id member => ?_)).length_le
    obtain ⟨⟨entry,depth,reached,rfl⟩,_⟩ := (mem_scope bounds).mp member
    rcases sample_reaches reached with ⟨id,_⟩ | ⟨id,_⟩ <;> simp [id]
  have target : "top" ∈ ready.targets ⟨"s",none,none⟩ := by
    refine mem_cons_of_mem _ ?_
    have written := congrArg Prod.fst page
    change ready.folders.written = (scope widened "o" "s" none).take APPLY_CHUNK at written
    rw [written,take_of_length_le (few.trans (by decide))]
    exact listed
  refine not_within planned target (fun _ _ _ _ => ⟨_,rfl⟩) rfl ?_
    (within widened "o" ⟨"s",none,none⟩ quiet "top" (.team "staff"))
  refine ⟨⟨⟨"o","s",some "top",none,some "staff",["future"]⟩,.own (by decide),by decide⟩,
    ⟨"o","s",none,none,some "staff",["list","read"]⟩,?_,by decide⟩
  exact .inherited (by decide) ⟨_,mem_cons_self,rfl,rfl⟩ (.own (by decide))

end Sending

end Depsis.Acl

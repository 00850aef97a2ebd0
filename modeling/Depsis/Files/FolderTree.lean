import Depsis.Foundation.Inherit
import Depsis.Foundation.JsString

/-! `file_entries` as a forest of folders, and the recursive query that walks it
level by level. The permission preview and the ACL job run the same walk with
their own filters and bounds.
-/
namespace Depsis.Files

open Depsis.Foundation List

inductive EntryKind where
  | folder
  | file
  deriving DecidableEq

structure FileEntry where
  id : String
  organizationId : String
  shareId : String
  parentId : Option String
  kind : EntryKind
  name : String
  trashed : Bool

structure FolderRow where
  id : String
  parentId : Option String
  parts : List String
  depth : Nat

def MAX_TREE_DEPTH : Nat := 256

structure Descent where
  starts : FileEntry → Bool
  enters : FileEntry → Bool

namespace Descent

variable (descent : Descent) (entries : List FileEntry)

def roots : List FolderRow :=
  (entries.filter descent.starts).map (fun entry => ⟨entry.id,entry.parentId,[entry.name],0⟩)

def children (row : FolderRow) : List FolderRow :=
  (entries.filter (fun entry => descent.enters entry && decide (entry.parentId = some row.id))).map
    (fun entry => ⟨entry.id,entry.parentId,row.parts ++ [entry.name],row.depth + 1⟩)

def level : Nat → List FolderRow
  | 0 => descent.roots entries
  | depth + 1 => (level depth).flatMap (descent.children entries)

def byId (rows : List FolderRow) : List FolderRow :=
  rows.mergeSort (fun first second => decide (JsString.encode first.id ≤ JsString.encode second.id))

def walkFrom : Nat → List FolderRow → List FolderRow
  | 0, working => byId working
  | steps + 1, working => byId working ++ walkFrom steps (working.flatMap (descent.children entries))

/-- The recursive query, cut after `steps` levels below the roots. -/
def walk (steps : Nat) : List FolderRow := descent.walkFrom entries steps (descent.roots entries)

/-- What the query means: the entry lies `depth` levels below a start. -/
inductive Reaches : FileEntry → Nat → Prop where
  | start {entry : FileEntry} (stored : entry ∈ entries) (starts : descent.starts entry = true) :
    Reaches entry 0
  | enter {parent entry : FileEntry} {depth : Nat} (above : Reaches parent depth) (stored : entry ∈ entries)
    (enters : descent.enters entry = true) (child : entry.parentId = some parent.id) : Reaches entry (depth + 1)

variable {descent entries}

variable {depth : Nat} {row : FolderRow}

private theorem mem_byId {rows : List FolderRow} : row ∈ byId rows ↔ row ∈ rows :=
  (mergeSort_perm rows _).mem_iff

theorem walk_empty {steps : Nat} (bare : descent.roots entries = []) : descent.walk entries steps = [] := by
  have down (steps : Nat) : descent.walkFrom entries steps [] = [] := by
    induction steps with
    | zero => simp [walkFrom,byId]
    | succ steps ih => simpa [walkFrom,byId] using ih
  rw [walk,bare,down]

private theorem mem_walkFrom {steps : Nat} :
    row ∈ descent.walkFrom entries steps (descent.level entries depth) ↔
      ∃ further ≤ steps, row ∈ descent.level entries (depth + further) := by
  induction steps generalizing depth with
  | zero =>
    simp only [walkFrom,mem_byId,Nat.le_zero]
    exact ⟨fun member => ⟨0,rfl,member⟩,fun ⟨_,same,member⟩ => by rwa [same] at member⟩
  | succ steps ih =>
    simp only [walkFrom,mem_append,mem_byId]
    change row ∈ descent.level entries depth ∨
      row ∈ descent.walkFrom entries steps (descent.level entries (depth + 1)) ↔ _
    rw [ih]
    constructor
    · rintro (here | ⟨further,bound,member⟩)
      · exact ⟨0,Nat.zero_le _,here⟩
      · exact ⟨further + 1,by omega,by rwa [Nat.add_assoc,Nat.add_comm 1] at member⟩
    · rintro ⟨further,bound,member⟩
      cases further with
      | zero => exact .inl member
      | succ further => exact .inr ⟨further,by omega,by rwa [Nat.add_assoc,Nat.add_comm 1]⟩

theorem mem_walk {steps : Nat} :
    row ∈ descent.walk entries steps ↔ ∃ depth ≤ steps, row ∈ descent.level entries depth := by
  change row ∈ descent.walkFrom entries steps (descent.level entries 0) ↔ _
  simp [mem_walkFrom]

theorem level_depth (member : row ∈ descent.level entries depth) :
    row.depth = depth := by
  induction depth generalizing row with
  | zero =>
    obtain ⟨entry,_,rfl⟩ := mem_map.mp member
    rfl
  | succ depth ih =>
    obtain ⟨parent,above,child⟩ := mem_flatMap.mp member
    obtain ⟨entry,_,rfl⟩ := mem_map.mp child
    exact congrArg (· + 1) (ih above)

theorem level_parent (member : row ∈ descent.level entries (depth + 1)) :
    ∃ parent ∈ descent.level entries depth, row.parentId = some parent.id := by
  obtain ⟨parent,above,child⟩ := mem_flatMap.mp member
  obtain ⟨entry,stored,rfl⟩ := mem_map.mp child
  simp only [mem_filter,Bool.and_eq_true,decide_eq_true_eq] at stored
  exact ⟨parent,above,stored.2.2⟩

theorem level_sound (member : row ∈ descent.level entries depth) :
    ∃ entry, descent.Reaches entries entry depth ∧ row.id = entry.id ∧ row.parentId = entry.parentId := by
  induction depth generalizing row with
  | zero =>
    obtain ⟨entry,stored,rfl⟩ := mem_map.mp member
    obtain ⟨stored,starts⟩ := mem_filter.mp stored
    exact ⟨entry,.start stored starts,rfl,rfl⟩
  | succ depth ih =>
    obtain ⟨parent,above,child⟩ := mem_flatMap.mp member
    obtain ⟨entry,stored,rfl⟩ := mem_map.mp child
    simp only [mem_filter,Bool.and_eq_true,decide_eq_true_eq] at stored
    obtain ⟨upper,reached,same,_⟩ := ih above
    exact ⟨entry,.enter reached stored.1 stored.2.1 (same ▸ stored.2.2),rfl,rfl⟩

theorem level_complete {entry : FileEntry} (reached : descent.Reaches entries entry depth) :
    ∃ row ∈ descent.level entries depth, row.id = entry.id ∧ row.parentId = entry.parentId := by
  induction reached with
  | @start entry stored starts =>
    refine ⟨_,mem_map_of_mem (mem_filter.mpr ⟨stored,starts⟩),rfl,rfl⟩
  | @enter parent entry depth above stored enters child ih =>
    obtain ⟨upper,member,same,_⟩ := ih
    refine ⟨_,mem_flatMap.mpr ⟨upper,member,mem_map_of_mem (mem_filter.mpr ⟨stored,?_⟩)⟩,rfl,rfl⟩
    simp [enters,child,same]

theorem level_empty {further : Nat} (empty : descent.level entries depth = []) :
    descent.level entries (depth + further) = [] := by
  induction further with
  | zero => exact empty
  | succ further ih =>
    change (descent.level entries (depth + further)).flatMap _ = []
    rw [ih]
    rfl

theorem level_above {further : Nat}
    (member : row ∈ descent.level entries (depth + further)) : descent.level entries depth ≠ [] := by
  intro empty
  rw [level_empty empty] at member
  cases member

private theorem length_walkFrom (depth : Nat) {steps further : Nat}
    (member : row ∈ descent.level entries (depth + further)) (bound : further ≤ steps) :
    further < (descent.walkFrom entries steps (descent.level entries depth)).length := by
  have here : 0 < (byId (descent.level entries depth)).length := by
    rw [byId,length_mergeSort]
    exact length_pos_iff.mpr (level_above member)
  induction steps generalizing depth further with
  | zero => simpa [walkFrom,Nat.le_zero.mp bound] using here
  | succ steps ih =>
    simp only [walkFrom,length_append]
    cases further with
    | zero => omega
    | succ further =>
      have below : row ∈ descent.level entries (depth + 1 + further) := by
        rwa [Nat.add_assoc,Nat.add_comm 1]
      have positive : 0 < (byId (descent.level entries (depth + 1))).length := by
        rw [byId,length_mergeSort]
        exact length_pos_iff.mpr (level_above below)
      have rest := ih (depth + 1) below (by omega) positive
      change further < (descent.walkFrom entries steps
        ((descent.level entries depth).flatMap (descent.children entries))).length at rest
      omega

theorem depth_lt_length {steps : Nat} (member : row ∈ descent.level entries depth)
    (bound : depth ≤ steps) : depth < (descent.walk entries steps).length :=
  length_walkFrom 0 (by rwa [Nat.zero_add]) bound

private theorem byId_ordered (rows : List FolderRow) :
    (byId rows).Pairwise (fun first second => JsString.encode first.id ≤ JsString.encode second.id) := by
  have sorted := @pairwise_mergeSort _
    (fun first second : FolderRow => decide (JsString.encode first.id ≤ JsString.encode second.id))
    (fun first second third below above => by
      simp only [decide_eq_true_eq] at below above ⊢
      exact below.trans above)
    (fun first second => by simpa using le_total (JsString.encode first.id) (JsString.encode second.id)) rows
  simpa [byId] using sorted

private theorem walkFrom_ordered (steps depth : Nat) : (descent.walkFrom entries steps (descent.level entries depth)).Pairwise
    (fun first second => first.depth < second.depth ∨
      (first.depth = second.depth ∧ JsString.encode first.id ≤ JsString.encode second.id)) := by
  have here (further : Nat) : (byId (descent.level entries further)).Pairwise (fun first second =>
      first.depth < second.depth ∨
        (first.depth = second.depth ∧ JsString.encode first.id ≤ JsString.encode second.id)) := by
    refine List.Pairwise.imp_of_mem (fun {first second} left right order => .inr ⟨?_,order⟩) (byId_ordered _)
    rw [level_depth (mem_byId.mp left),level_depth (mem_byId.mp right)]
  induction steps generalizing depth with
  | zero => exact here depth
  | succ steps ih =>
    refine pairwise_append.mpr ⟨here depth,ih (depth + 1),fun first left second right => .inl ?_⟩
    have below : second ∈ descent.walkFrom entries steps (descent.level entries (depth + 1)) := right
    obtain ⟨further,_,member⟩ := mem_walkFrom.mp below
    rw [level_depth (mem_byId.mp left),level_depth member]
    omega

theorem walk_ordered (steps : Nat) : (descent.walk entries steps).Pairwise (fun first second =>
    first.depth < second.depth ∨
      (first.depth = second.depth ∧ JsString.encode first.id ≤ JsString.encode second.id)) :=
  walkFrom_ordered steps 0

def Rooted (descent : Descent) (entries : List FileEntry) : Prop :=
  ∀ entry parent depth, descent.starts entry = true → descent.Reaches entries parent depth →
    entry.parentId ≠ some parent.id

theorem Reaches.stored {entry : FileEntry} (reached : descent.Reaches entries entry depth) :
    entry ∈ entries := by
  cases reached <;> assumption

section Keyed

variable (keyed : (entries.map FileEntry.id).Nodup) (rooted : descent.Rooted entries)

include keyed

theorem entry_of_id {first second : FileEntry} (left : first ∈ entries) (right : second ∈ entries)
    (same : first.id = second.id) : first = second :=
  inj_on_of_nodup_map keyed left right same

private theorem children_nodup (row : FolderRow) : ((descent.children entries row).map FolderRow.id).Nodup := by
  have ids : (descent.children entries row).map FolderRow.id =
      (entries.filter (fun entry => descent.enters entry && decide (entry.parentId = some row.id))).map
        FileEntry.id := by
    simp [children,Function.comp_def]
  rw [ids]
  exact keyed.sublist (filter_sublist.map _)

private theorem level_nodup (depth : Nat) : ((descent.level entries depth).map FolderRow.id).Nodup := by
  induction depth with
  | zero =>
    have ids : (descent.level entries 0).map FolderRow.id = (entries.filter descent.starts).map FileEntry.id := by
      simp [level,roots,Function.comp_def]
    rw [ids]
    exact keyed.sublist (filter_sublist.map _)
  | succ depth ih =>
    change (((descent.level entries depth).flatMap (descent.children entries)).map FolderRow.id).Nodup
    rw [map_flatMap]
    refine nodup_flatMap.mpr ⟨fun row _ => children_nodup keyed row,?_⟩
    refine (pairwise_map.mp ih).imp (fun {first second} apart id inFirst inSecond => apart ?_)
    obtain ⟨one,oneMember,rfl⟩ := mem_map.mp inFirst
    obtain ⟨two,twoMember,same⟩ := mem_map.mp inSecond
    obtain ⟨left,leftStored,rfl⟩ := mem_map.mp oneMember
    obtain ⟨right,rightStored,rfl⟩ := mem_map.mp twoMember
    simp only [mem_filter,Bool.and_eq_true,decide_eq_true_eq] at leftStored rightStored
    have equal := entry_of_id keyed rightStored.1 leftStored.1 same
    exact Option.some.inj (leftStored.2.2.symm.trans (equal ▸ rightStored.2.2))

include rooted

theorem Reaches.depth_unique {other : Nat} {entry : FileEntry}
    (reached : descent.Reaches entries entry depth) (again : descent.Reaches entries entry other) :
    depth = other := by
  induction reached generalizing other with
  | @start entry _ starts =>
    cases again with
    | start => rfl
    | @enter parent _ _ above _ _ child => exact absurd child (rooted entry parent _ starts above)
  | @enter parent entry depth above _ _ child ih =>
    cases again with
    | start _ starts => exact absurd child (rooted entry parent _ starts above)
    | @enter upper _ further higher _ _ hangs =>
      have same : parent = upper :=
        entry_of_id keyed above.stored higher.stored (Option.some.inj (child.symm.trans hangs))
      rw [ih (same ▸ higher)]

private theorem level_apart {other : Nat} {first second : FolderRow}
    (left : first ∈ descent.level entries depth) (right : second ∈ descent.level entries other)
    (same : first.id = second.id) : depth = other := by
  obtain ⟨one,reachedOne,idOne,_⟩ := level_sound left
  obtain ⟨two,reachedTwo,idTwo,_⟩ := level_sound right
  have equal := entry_of_id keyed reachedOne.stored reachedTwo.stored (idOne.symm.trans (same.trans idTwo))
  exact reachedOne.depth_unique keyed rooted (equal ▸ reachedTwo)

private theorem walkFrom_nodup (steps depth : Nat) :
    ((descent.walkFrom entries steps (descent.level entries depth)).map FolderRow.id).Nodup := by
  have sorted (further : Nat) : ((byId (descent.level entries further)).map FolderRow.id).Nodup :=
    ((mergeSort_perm _ _).map FolderRow.id).nodup_iff.mpr (level_nodup keyed further)
  induction steps generalizing depth with
  | zero => exact sorted depth
  | succ steps ih =>
    change ((byId (descent.level entries depth) ++
      descent.walkFrom entries steps (descent.level entries (depth + 1))).map FolderRow.id).Nodup
    rw [map_append]
    refine nodup_append'.mpr ⟨sorted depth,ih (depth + 1),fun id here below => ?_⟩
    obtain ⟨first,firstMember,rfl⟩ := mem_map.mp here
    obtain ⟨second,secondMember,same⟩ := mem_map.mp below
    obtain ⟨further,_,member⟩ := mem_walkFrom.mp secondMember
    have equal := level_apart keyed rooted (mem_byId.mp firstMember) member same.symm
    omega

theorem walk_nodup (steps : Nat) : ((descent.walk entries steps).map FolderRow.id).Nodup :=
  walkFrom_nodup keyed rooted steps 0

end Keyed

end Descent

def Under (entries : List FileEntry) (shareId node parent : String) : Prop :=
  ∃ entry ∈ entries, entry.id = node ∧ entry.parentId.getD shareId = parent

theorem under_forest {entries : List FileEntry} {shareId : String} (keyed : (entries.map FileEntry.id).Nodup) :
    Forest (Under entries shareId) := by
  rintro node first second ⟨one,oneStored,rfl,rfl⟩ ⟨two,twoStored,same,rfl⟩
  rw [Descent.entry_of_id keyed oneStored twoStored same.symm]

end Depsis.Files

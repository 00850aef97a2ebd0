import Depsis.Files.ListDirectory
import Depsis.Files.Statements
import Depsis.Foundation.Levels

/-! `IndexerService`: its statements on `file_entries`, and the comparison of the rows
under a folder with what is on disk there.
-/
namespace Depsis.Files.Indexer

open Depsis.Foundation Depsis.Foundation.Levels AList

/-- A row of `file_entries` as the indexer knows it, but for its id; times in milliseconds. -/
structure IndexRow where
  organizationId : String
  shareId : String
  parentId : Option String
  kind : EntryKind
  name : String
  path : String
  sizeBytes : Nat
  updatedAt : Int
  trashedAt : Option Int
  recycled : Bool
  scannedAt : Option Int
deriving DecidableEq

abbrev Index := Table String IndexRow

/-- What the database answers by itself: the order of rows where no query asked for one,
the ids it draws for new rows, and `now()` in the statement that is made for a row.
-/
structure Server where
  arrange : List (String × IndexRow) → List (String × IndexRow)
  arranged : ∀ rows, (arrange rows).Perm rows
  newId : Nat → String
  distinct : Function.Injective newId
  now : String → Int

structure ReconcileResult where
  discovered : Nat
  updated : Nat
  removed : Nat
  truncated : Nat
  scanned : Nat
  binned : Nat
  restored : Nat

structure Folder where
  id : Option String
  components : List String

structure Spot where
  organizationId : String
  shareId : String
  folder : Folder

def kindOf (entry : DirEntryInfo) : EntryKind := if entry.directory then .folder else .file

section Statements

variable (fold : String → String) (server : Server)

def placeOf (row : IndexRow) : Key :=
  match row.parentId with
  | some parentId => .nameInFolder row.organizationId parentId (fold row.name)
  | none => .nameAtShareRoot row.organizationId row.shareId (fold row.name)

def placeTaken (table : Index) (self : String) (row : IndexRow) : Bool :=
  table.any (fun id other => id ≠ self && other.trashedAt.isNone && decide (placeOf fold other = placeOf fold row))

/-- The trigger `file_entries_set_updated_at`, whatever the statement itself had set. -/
def setUpdatedAt (now : Int) (row : IndexRow) : IndexRow := {row with updatedAt := now}

def restored (now : Int) (row : IndexRow) : IndexRow :=
  setUpdatedAt now {row with trashedAt := none, recycled := false}

def binned (now : Int) (row : IndexRow) : IndexRow :=
  setUpdatedAt now {row with trashedAt := some now, recycled := true}

def upToDate (row : IndexRow) (entry : DirEntryInfo) : Bool :=
  row.sizeBytes = entry.size && row.updatedAt / 1000 = entry.modifiedUnix

def refreshed (now : Int) (entry : DirEntryInfo) (row : IndexRow) : IndexRow :=
  setUpdatedAt now {row with sizeBytes := entry.size, updatedAt := entry.modifiedUnix * 1000}

def rowsUnder (table : Index) (spot : Spot) : List (String × IndexRow) :=
  server.arrange (table.rows.filter (fun (_,row) => row.organizationId = spot.organizationId &&
    row.shareId = spot.shareId && row.parentId = spot.folder.id))

def backFromTheBin (table : Index) (organizationId id : String) : Except Fault (Index × Nat) :=
  match (table.lookup id).filter (fun row => row.organizationId = organizationId && row.recycled) with
  | none => .ok (table,0)
  | some row =>
    if placeTaken fold table id (restored (server.now id) row) then .error .uniqueViolation
    else .ok (table.insert id (restored (server.now id) row),1)

def rowOf (spot : Spot) (entry : DirEntryInfo) : IndexRow where
  organizationId := spot.organizationId
  shareId := spot.shareId
  parentId := spot.folder.id
  kind := kindOf entry
  name := entry.name
  path := "/" ++ "/".intercalate (spot.folder.components ++ [entry.name])
  sizeBytes := if entry.directory then 0 else entry.size
  updatedAt := entry.modifiedUnix * 1000
  trashedAt := none
  recycled := false
  scannedAt := none

def remember (table : Index) (spot : Spot) (id : String) (entry : DirEntryInfo) : Index × Option String :=
  let row := rowOf spot entry
  if !nameComponent row.name || row.parentId.any (fun parentId => (table.lookup parentId).isNone) ||
    placeTaken fold table id row then (table,none)
  else (table.insert id row,some id)

def refresh (table : Index) (id : String) (row : IndexRow) (entry : DirEntryInfo) : Index × Bool :=
  if entry.directory || upToDate row entry then (table,false)
  else
    match table.lookup id with
    | none => (table,true)
    | some stored => (table.insert id (refreshed (server.now id) entry stored),true)

def kids (table : Index) (organizationId id : String) : List String :=
  (table.rows.filter (fun (_,row) => row.organizationId = organizationId && row.parentId = some id)).map Prod.fst

def tree (table : Index) (organizationId id : String) : Option (List String) :=
  levels (kids table organizationId) (table.size + 1)
    (if (table.lookup id).any (fun row => row.organizationId = organizationId) then [id] else [])

def sendSubtreeToTheBin (table : Index) (organizationId id : String) : Except Fault (Index × Nat) :=
  match tree table organizationId id with
  | none => .error .statementTimeout
  | some ids =>
    let goes := fun other (row : IndexRow) =>
      row.organizationId = organizationId && ids.contains other && row.trashedAt.isNone
    .ok (table.mapRows (fun other row => if goes other row then binned (server.now id) row else row),
      (table.rows.filter (fun (other,row) => goes other row)).length)

def forget (table : Index) (organizationId id : String) : Except Fault (Index × Nat) :=
  match tree table organizationId id with
  | none => .error .statementTimeout
  | some ids =>
    let goes := fun other (row : IndexRow) => row.organizationId = organizationId && ids.contains other
    .ok (table.retain (fun other row => !goes other row),(table.rows.filter (fun (other,row) => goes other row)).length)

end Statements

/-- What `compare` changes as it goes; a caller that does not descend gives neither
`queue` nor `seen`.
-/
structure Comparison where
  table : Index
  drawn : Nat
  onDisk : List DirEntryInfo
  result : ReconcileResult
  queue : Option (List Folder)
  seen : Option (List String)

structure Sight where
  spot : Spot
  truncated : Bool
  bin : List String

namespace Comparison

def get (state : Comparison) (name : String) : Option DirEntryInfo :=
  state.onDisk.find? (fun entry => entry.name = name)

def delete (state : Comparison) (name : String) : Comparison :=
  {state with onDisk := state.onDisk.filter (fun entry => entry.name ≠ name)}

def descend (state : Comparison) (sight : Sight) (id name : String) : Comparison :=
  if state.seen.any (fun seen => seen.contains id) then state
  else {state with
    seen := state.seen.map (· ++ [id])
    queue := state.queue.map (· ++ [⟨some id,sight.spot.folder.components ++ [name]⟩])}

section

variable (fold : String → String) (server : Server) (sight : Sight)

def restoring (state : Comparison) (id : String) : Comparison × Option Fault :=
  match backFromTheBin fold server state.table sight.spot.organizationId id with
  | .error fault => (state,some fault)
  | .ok (table,count) =>
    ({state with table := table, result := {state.result with restored := state.result.restored + count}},none)

def binning (state : Comparison) (id : String) : Comparison × Option Fault :=
  match sendSubtreeToTheBin server state.table sight.spot.organizationId id with
  | .error fault => (state,some fault)
  | .ok (table,count) =>
    ({state with table := table, result := {state.result with binned := state.result.binned + count}},none)

def forgetting (state : Comparison) (id : String) : Comparison × Option Fault :=
  match forget state.table sight.spot.organizationId id with
  | .error fault => (state,some fault)
  | .ok (table,count) =>
    ({state with table := table, result := {state.result with removed := state.result.removed + count}},none)

def remembering (state : Comparison) (entry : DirEntryInfo) : Comparison :=
  match remember fold state.table sight.spot (server.newId state.drawn) entry with
  | (table,none) => {state with table := table, drawn := state.drawn + 1}
  | (table,some made) =>
    let known := {state with
      table := table
      drawn := state.drawn + 1
      result := {state.result with discovered := state.result.discovered + 1}}
    if entry.directory then known.descend sight made entry.name else known

def refreshing (state : Comparison) (id : String) (row : IndexRow) (entry : DirEntryInfo) : Comparison :=
  let (table,moved) := refresh server state.table id row entry
  let fresh := {state with
    table := table
    result := {state.result with updated := state.result.updated + if moved then 1 else 0}}
  if entry.directory then fresh.descend sight id entry.name else fresh

/-- A trashed row accounts for its name on disk; only one whose bytes had gone to the
bin can come back from there, or be found gone from there too.
-/
def visitTrashed (state : Comparison) (id : String) (row : IndexRow) : Comparison × Option Fault :=
  let found := state.get row.name
  let state := state.delete row.name
  if !row.recycled then (state,none)
  else if found.isSome then state.restoring fold server sight id
  else if sight.truncated then (state,none)
  else if sight.bin.contains row.name then (state,none)
  else state.forgetting sight id

def visitLive (state : Comparison) (id : String) (row : IndexRow) : Comparison × Option Fault :=
  match state.get row.name with
  | none =>
    if sight.truncated then (state,none)
    else if sight.bin.contains row.name then state.binning server sight id
    else state.forgetting sight id
  | some entry =>
    let state := state.delete row.name
    if row.kind ≠ kindOf entry then
      match state.forgetting sight id with
      | (state,some fault) => (state,some fault)
      | (state,none) => (state.remembering fold server sight entry,none)
    else (state.refreshing server sight id row entry,none)

/-- One row of the loop over `known`, as it was when the loop began. -/
def visit (state : Comparison) (known : String × IndexRow) : Comparison × Option Fault :=
  if known.2.trashedAt.isSome then state.visitTrashed fold server sight known.1 known.2
  else state.visitLive fold server sight known.1 known.2

def visitAll : Comparison → List (String × IndexRow) → Comparison × Option Fault
  | state,[] => (state,none)
  | state,known::rest =>
    match state.visit fold server sight known with
    | (state,some fault) => (state,some fault)
    | (state,none) => visitAll state rest

def rememberAll (state : Comparison) : Comparison :=
  state.onDisk.foldl (fun state entry => state.remembering fold server sight entry) state

end

end Comparison

def compare (fold : String → String) (server : Server) (sight : Sight) (listing : List DirEntryInfo)
    (table : Index) (drawn : Nat) (result : ReconcileResult) (queue : Option (List Folder))
    (seen : Option (List String)) : Comparison × Option Fault :=
  match Comparison.visitAll fold server sight ⟨table,drawn,listing,result,queue,seen⟩
    (rowsUnder server table sight.spot) with
  | (state,some fault) => (state,some fault)
  | (state,none) => (state.rememberAll fold server sight,none)

section Trees

open Relation

variable {table : Index} {organizationId id top node : String} {ids : List String} {row : IndexRow}

theorem under_iff : RightBelow (kids table organizationId) top node ↔
    ∃ row, table.lookup node = some row ∧ row.organizationId = organizationId ∧ row.parentId = some top := by
  simp [RightBelow,kids]

theorem mem_tree (ran : tree table organizationId id = some ids) : node ∈ ids ↔
    (∃ row, table.lookup id = some row ∧ row.organizationId = organizationId) ∧
      ReflTransGen (RightBelow (kids table organizationId)) id node := by
  rw [mem_levels ran]
  cases stored : table.lookup id with
  | none => simp
  | some row =>
    by_cases own : row.organizationId = organizationId
    · simp [own]
    · simp [own]

private theorem acyclic_below (stored : table.lookup id = some row)
    (rooted : ∀ parent, row.parentId = some parent → ¬TransGen (RightBelow (kids table organizationId)) parent parent)
    (path : ReflTransGen (RightBelow (kids table organizationId)) id node) :
    ¬TransGen (RightBelow (kids table organizationId)) node node := by
  induction path with
  | refl =>
    intro round
    obtain ⟨parent,back,under⟩ := TransGen.tail'_iff.mp round
    obtain ⟨found,here,-,named⟩ := under_iff.mp under
    cases stored.symm.trans here
    exact rooted parent named (.head' under back)
  | tail path under ih =>
    intro round
    obtain ⟨parent,back,above⟩ := TransGen.tail'_iff.mp round
    obtain ⟨found,here,-,named⟩ := under_iff.mp under
    obtain ⟨again,there,-,named'⟩ := under_iff.mp above
    cases here.symm.trans there
    cases named.symm.trans named'
    exact ih (.head' under back)

theorem tree_ends (stored : table.lookup id = some row)
    (rooted : ∀ parent, row.parentId = some parent → ¬TransGen (RightBelow (kids table organizationId)) parent parent) :
    (tree table organizationId id).isSome := by
  have start (first : String)
      (member : first ∈ if (table.lookup id).any (fun row => row.organizationId = organizationId) then [id] else []) :
      first = id := by
    split at member
    · exact List.mem_singleton.mp member
    · cases member
  refine levels_ends table.keys (fun first member node path => ?_) (fun first member node path => ?_) ?_
  · rw [start first member] at path
    rcases ReflTransGen.cases_tail path with rfl | ⟨parent,-,under⟩
    · exact mem_keys.mp (lookup_isSome.mp (by rw [stored]; rfl))
    · obtain ⟨found,here,-,-⟩ := under_iff.mp under
      exact mem_keys.mp (lookup_isSome.mp (by rw [here]; rfl))
  · rw [start first member] at path
    exact acyclic_below stored rooted path
  · simp [AList.keys,AList.size,List.keys]

theorem siblings_apart (stored : table.lookup id = some row) {other : String} {sibling : IndexRow}
    (present : table.lookup other = some sibling) (same : sibling.parentId = row.parentId)
    (own : row.organizationId = organizationId)
    (rooted : ∀ parent, row.parentId = some parent → ¬TransGen (RightBelow (kids table organizationId)) parent parent)
    (path : ReflTransGen (RightBelow (kids table organizationId)) id other) : other = id := by
  rcases ReflTransGen.cases_tail path with rfl | ⟨parent,back,under⟩
  · rfl
  · obtain ⟨found,here,-,named⟩ := under_iff.mp under
    cases present.symm.trans here
    exact absurd (.head' (under_iff.mpr ⟨row,stored,own,same ▸ named⟩) back) (rooted parent (same ▸ named))

theorem folder_apart (stored : table.lookup id = some row) {folder : String} (under : row.parentId = some folder)
    (own : row.organizationId = organizationId)
    (rooted : ¬TransGen (RightBelow (kids table organizationId)) folder folder) :
    ¬ReflTransGen (RightBelow (kids table organizationId)) id folder :=
  fun back => rooted (.head' (under_iff.mpr ⟨row,stored,own,under⟩) back)

theorem tree_own (ran : tree table organizationId id = some ids) (member : node ∈ ids)
    (stored : table.lookup node = some row) : row.organizationId = organizationId := by
  obtain ⟨⟨first,start,own⟩,path⟩ := (mem_tree ran).mp member
  rcases ReflTransGen.cases_tail path with rfl | ⟨parent,-,under⟩
  · cases stored.symm.trans start
    exact own
  · obtain ⟨found,here,own,-⟩ := under_iff.mp under
    cases stored.symm.trans here
    exact own

end Trees

section Effects

variable {fold : String → String} {server : Server} {table after : Index} {organizationId id : String}
variable {ids : List String} {row : IndexRow} {count : Nat}

theorem placeTaken_iff : placeTaken fold table id row = true ↔ ∃ other sibling, table.lookup other = some sibling ∧
    other ≠ id ∧ sibling.trashedAt = none ∧ placeOf fold sibling = placeOf fold row := by
  simp [placeTaken,any_iff,and_assoc]

theorem forget_ok (ran : forget table organizationId id = .ok (after,count)) :
    ∃ ids, tree table organizationId id = some ids ∧
      ∀ other, after.lookup other = if other ∈ ids then none else table.lookup other := by
  unfold forget at ran
  split at ran <;> cases ran
  next ids found =>
    refine ⟨ids,found,fun other => ?_⟩
    rw [lookup_retain]
    cases stored : table.lookup other with
    | none => simp
    | some row =>
      split_ifs with member
      · simp [tree_own found member stored,member]
      · simp [member]

theorem forget_runs (found : tree table organizationId id = some ids) :
    ∃ after count, forget table organizationId id = .ok (after,count) := by
  unfold forget
  rw [found]
  exact ⟨_,_,rfl⟩

theorem sendSubtreeToTheBin_ok (ran : sendSubtreeToTheBin server table organizationId id = .ok (after,count)) :
    ∃ ids, tree table organizationId id = some ids ∧ ∀ other, after.lookup other = (table.lookup other).map (fun row =>
      if other ∈ ids ∧ row.trashedAt = none then binned (server.now id) row else row) := by
  unfold sendSubtreeToTheBin at ran
  split at ran <;> cases ran
  next ids found =>
    refine ⟨ids,found,fun other => ?_⟩
    rw [lookup_mapRows]
    refine Option.map_congr (fun row stored => ?_)
    by_cases member : other ∈ ids
    · simp [tree_own found member stored,member]
    · simp [member]

theorem sendSubtreeToTheBin_runs (found : tree table organizationId id = some ids) :
    ∃ after count, sendSubtreeToTheBin server table organizationId id = .ok (after,count) := by
  unfold sendSubtreeToTheBin
  rw [found]
  exact ⟨_,_,rfl⟩

theorem backFromTheBin_ok (ran : backFromTheBin fold server table organizationId id = .ok (after,count)) :
    after = table ∨ ∃ row, table.lookup id = some row ∧ row.organizationId = organizationId ∧ row.recycled = true ∧
      placeTaken fold table id (restored (server.now id) row) = false ∧
      after = table.insert id (restored (server.now id) row) := by
  unfold backFromTheBin at ran
  split at ran
  next => cases ran; exact .inl rfl
  next row found =>
    obtain ⟨stored,own⟩ := Option.filter_eq_some_iff.mp found
    split_ifs at ran with taken
    cases ran
    obtain ⟨named,recycled⟩ := Bool.and_eq_true_iff.mp own
    exact .inr ⟨row,stored,of_decide_eq_true named,recycled,Bool.eq_false_iff.mpr taken,rfl⟩

theorem backFromTheBin_runs (fold : String → String) (server : Server) (stored : table.lookup id = some row) (own : row.organizationId = organizationId)
    (recycled : row.recycled = true) (free : placeTaken fold table id (restored (server.now id) row) = false) :
    backFromTheBin fold server table organizationId id = .ok (table.insert id (restored (server.now id) row),1) := by
  have found : (table.lookup id).filter (fun row => row.organizationId = organizationId && row.recycled) = some row := by
    simp [stored,own,recycled]
  rw [backFromTheBin,found]
  simp only [free,Bool.false_eq_true,if_false]

theorem refresh_lookup (server : Server) (entry : DirEntryInfo) (stored : table.lookup id = some row) (other : String) :
    (refresh server table id row entry).1.lookup other = if other = id then
      some (if entry.directory || upToDate row entry then row else refreshed (server.now id) entry row)
    else table.lookup other := by
  by_cases idle : (entry.directory || upToDate row entry) = true
  · simp only [refresh,idle,if_true]
    split
    next same => rw [same,stored]
    next => rfl
  · simp only [refresh,idle,stored]
    exact lookup_insert_eq table id other _

theorem refresh_cases (server : Server) (table : Index) (id : String) (row : IndexRow) (entry : DirEntryInfo) :
    (refresh server table id row entry).1 = table ∨ ∃ stored, table.lookup id = some stored ∧
      (refresh server table id row entry).1 = table.insert id (refreshed (server.now id) entry stored) := by
  unfold refresh
  split
  · exact .inl rfl
  · split
    next => exact .inl rfl
    next stored found => exact .inr ⟨stored,found,rfl⟩

def Refused (fold : String → String) (table : Index) (spot : Spot) (id : String) (entry : DirEntryInfo) : Prop :=
  nameComponent entry.name = false ∨
    (∃ parentId, spot.folder.id = some parentId ∧ table.lookup parentId = none) ∨
    placeTaken fold table id (rowOf spot entry) = true

theorem remember_cases (fold : String → String) (table : Index) (spot : Spot) (id : String) (entry : DirEntryInfo) :
    (Refused fold table spot id entry ∧ remember fold table spot id entry = (table,none)) ∨
      (¬Refused fold table spot id entry ∧
        remember fold table spot id entry = (table.insert id (rowOf spot entry),some id)) := by
  have told : (!nameComponent (rowOf spot entry).name ||
      (rowOf spot entry).parentId.any (fun parentId => (table.lookup parentId).isNone) ||
      placeTaken fold table id (rowOf spot entry)) = true ↔ Refused fold table spot id entry := by
    simp [Refused,rowOf,or_assoc,Option.any_eq_true]
  unfold remember
  by_cases refused : Refused fold table spot id entry
  · exact .inl ⟨refused,if_pos (told.mpr refused)⟩
  · exact .inr ⟨refused,if_neg (told.not.mpr refused)⟩

end Effects

structure Alike (was row : IndexRow) : Prop where
  organizationId : row.organizationId = was.organizationId
  shareId : row.shareId = was.shareId
  parentId : row.parentId = was.parentId
  kind : row.kind = was.kind
  name : row.name = was.name
  path : row.path = was.path

def Derived (before after : Index) : Prop :=
  ∀ id row, after.lookup id = some row → ∃ was, before.lookup id = some was ∧ Alike was row

def Fresh (server : Server) (drawn : Nat) (table : Index) : Prop :=
  ∀ next, drawn ≤ next → table.lookup (server.newId next) = none ∧
    ∀ id row, table.lookup id = some row → row.parentId ≠ some (server.newId next)

def Unique (fold : String → String) (table : Index) : Prop :=
  ∀ id row other sibling, table.lookup id = some row → table.lookup other = some sibling → row.trashedAt = none →
    sibling.trashedAt = none → placeOf fold row = placeOf fold sibling → id = other

def Rooted (spot : Spot) (table : Index) : Prop :=
  ∀ folder, spot.folder.id = some folder →
    ¬Relation.TransGen (RightBelow (kids table spot.organizationId)) folder folder

def Settled (spot : Spot) (table : Index) : Prop :=
  ∀ folder, spot.folder.id = some folder → (table.lookup folder).isSome

section Invariants

open Relation

variable {fold : String → String} {server : Server} {before after table : Index} {spot : Spot} {drawn : Nat}
variable {id : String} {row : IndexRow}

@[refl] theorem Alike.refl (row : IndexRow) : Alike row row := ⟨rfl,rfl,rfl,rfl,rfl,rfl⟩

theorem Alike.trans {first second third : IndexRow} (one : Alike first second) (two : Alike second third) :
    Alike first third :=
  ⟨two.1.trans one.1,two.2.trans one.2,two.3.trans one.3,two.4.trans one.4,two.5.trans one.5,two.6.trans one.6⟩

theorem Alike.place {was : IndexRow} (alike : Alike was row) : placeOf fold row = placeOf fold was := by
  simp only [placeOf,alike.parentId,alike.organizationId,alike.shareId,alike.name]

theorem restored_alike (now : Int) (row : IndexRow) : Alike row (restored now row) := ⟨rfl,rfl,rfl,rfl,rfl,rfl⟩

theorem binned_alike (now : Int) (row : IndexRow) : Alike row (binned now row) := ⟨rfl,rfl,rfl,rfl,rfl,rfl⟩

theorem refreshed_alike (now : Int) (entry : DirEntryInfo) (row : IndexRow) : Alike row (refreshed now entry row) :=
  ⟨rfl,rfl,rfl,rfl,rfl,rfl⟩

theorem Derived.refl (table : Index) : Derived table table := fun _ row stored => ⟨row,stored,.refl row⟩

theorem Derived.insert {was : IndexRow} (stored : table.lookup id = some was) (alike : Alike was row) :
    Derived table (table.insert id row) := by
  intro other found present
  rcases lookup_insert_cases present with ⟨same,rfl⟩ | ⟨-,present⟩
  · exact ⟨was,same ▸ stored,alike⟩
  · exact ⟨found,present,.refl found⟩

theorem Derived.rightBelow (derived : Derived before after) {organizationId top node : String}
    (below : RightBelow (kids after organizationId) top node) : RightBelow (kids before organizationId) top node := by
  obtain ⟨row,stored,own,named⟩ := under_iff.mp below
  obtain ⟨was,present,alike⟩ := derived node row stored
  exact under_iff.mpr ⟨was,present,alike.organizationId ▸ own,alike.parentId ▸ named⟩

theorem Fresh.derived (fresh : Fresh server drawn before) (derived : Derived before after) : Fresh server drawn after := by
  intro next later
  refine ⟨?_,fun id row stored => ?_⟩
  · cases stored : after.lookup (server.newId next) with
    | none => rfl
    | some row =>
      obtain ⟨was,present,-⟩ := derived _ row stored
      rw [(fresh next later).1] at present
      cases present
  · obtain ⟨was,present,alike⟩ := derived id row stored
    rw [alike.parentId]
    exact (fresh next later).2 id was present

theorem Rooted.derived (rooted : Rooted spot before) (derived : Derived before after) : Rooted spot after :=
  fun folder named round => rooted folder named (TransGen.mono (fun _ _ => derived.rightBelow) folder folder round)

theorem Fresh.stored_ne (fresh : Fresh server drawn table) (stored : table.lookup id = some row) {next : Nat}
    (later : drawn ≤ next) : id ≠ server.newId next := by
  rintro rfl
  rw [(fresh next later).1] at stored
  cases stored

theorem Fresh.folder_ne (fresh : Fresh server drawn table) (settled : Settled spot table) {next : Nat}
    (later : drawn ≤ next) : spot.folder.id ≠ some (server.newId next) := by
  intro named
  have present := settled _ named
  rw [(fresh next later).1] at present
  cases present

theorem rightBelow_insert (fresh : Fresh server drawn table) {organizationId top node : String} {entry : DirEntryInfo}
    (apart : spot.folder.id ≠ some (server.newId drawn))
    (below : RightBelow (kids (table.insert (server.newId drawn) (rowOf spot entry)) organizationId) top node) :
    top ≠ server.newId drawn ∧ (node ≠ server.newId drawn → RightBelow (kids table organizationId) top node) := by
  obtain ⟨row,stored,own,named⟩ := under_iff.mp below
  rw [lookup_insert_eq] at stored
  split_ifs at stored with made
  · cases stored
    exact ⟨fun same => apart (named.trans (congrArg some same)),fun other => absurd made other⟩
  · exact ⟨fun same => (fresh drawn le_rfl).2 node row stored (same ▸ named),
      fun _ => under_iff.mpr ⟨row,stored,own,named⟩⟩

theorem Rooted.remember (rooted : Rooted spot table) (fresh : Fresh server drawn table) (settled : Settled spot table)
    {entry : DirEntryInfo} : Rooted spot (table.insert (server.newId drawn) (rowOf spot entry)) := by
  intro folder named round
  have lift {top node : String} (path : TransGen
      (RightBelow (kids (table.insert (server.newId drawn) (rowOf spot entry)) spot.organizationId)) top node)
      (known : node ≠ server.newId drawn) : TransGen (RightBelow (kids table spot.organizationId)) top node := by
    induction path with
    | single below => exact .single ((rightBelow_insert fresh (fresh.folder_ne settled le_rfl) below).2 known)
    | tail path below ih =>
      have step := rightBelow_insert fresh (fresh.folder_ne settled le_rfl) below
      exact .tail (ih step.1) (step.2 known)
  exact rooted folder named (lift round (fun same => fresh.folder_ne settled le_rfl (named.trans (congrArg some same))))

theorem Fresh.remember (fresh : Fresh server drawn table)
    (folder : ∀ next, drawn ≤ next → spot.folder.id ≠ some (server.newId next)) {entry : DirEntryInfo} :
    Fresh server (drawn + 1) (table.insert (server.newId drawn) (rowOf spot entry)) := by
  intro next later
  have apart : server.newId next ≠ server.newId drawn := fun same => by
    have := server.distinct same
    omega
  refine ⟨?_,fun id row stored => ?_⟩
  · rw [lookup_insert_eq,if_neg apart]
    exact (fresh next (by omega)).1
  · rw [lookup_insert_eq] at stored
    split_ifs at stored
    · cases stored
      exact folder next (by omega)
    · exact (fresh next (by omega)).2 id row stored

theorem Unique.derived (unique : Unique fold before) (live : ∀ id row, after.lookup id = some row →
    row.trashedAt = none → ∃ was, before.lookup id = some was ∧ was.trashedAt = none ∧ placeOf fold was = placeOf fold row) :
    Unique fold after := by
  intro id row other sibling stored present out apart same
  obtain ⟨was,first,old,place⟩ := live id row stored out
  obtain ⟨twin,second,aged,spot⟩ := live other sibling present apart
  exact unique id was other twin first second old aged (place.trans (same.trans spot.symm))

theorem Unique.insert (unique : Unique fold table) (free : placeTaken fold table id row = false) :
    Unique fold (table.insert id row) := by
  have alone (other : String) (sibling : IndexRow) (stored : table.lookup other = some sibling) (differs : other ≠ id)
      (out : sibling.trashedAt = none) : placeOf fold sibling ≠ placeOf fold row := by
    intro same
    rw [placeTaken_iff.mpr ⟨other,sibling,stored,differs,out,same⟩] at free
    cases free
  intro one first two second stored present out apart same
  rw [lookup_insert_eq] at stored present
  split_ifs at stored present with here there there
  · exact here.trans there.symm
  · cases stored
    exact absurd same.symm (alone two second present there apart)
  · cases present
    exact absurd same (alone one first stored here out)
  · exact unique one first two second stored present out apart same

end Invariants

end Depsis.Files.Indexer

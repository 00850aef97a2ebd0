import Depsis.Files.FolderTree
import Depsis.Foundation.Calls

/-! The statements of `FilesService` on `file_entries`. -/
namespace Depsis.Files

open Depsis.Foundation Depsis.Foundation.ReadCommitted

structure EntryRow where
  organizationId : String
  shareId : String
  parentId : Option String
  kind : EntryKind
  name : String
  path : String
  trashedAt : Option Nat
  recycled : Bool
deriving DecidableEq

inductive Key where
  | entry (id : String)
  | nameInFolder (organizationId parentId nameFold : String)
  | nameAtShareRoot (organizationId shareId nameFold : String)
deriving DecidableEq

abbrev View := Table Key EntryRow

inductive Fault where
  | uniqueViolation
  | foreignKeyViolation
  | checkViolation
  /-- `statement_timeout`, which is what ends a recursive query that goes round. -/
  | statementTimeout
  | posixUid
  | connectionLost
deriving DecidableEq

structure PurgeNode where
  id : String
  kind : EntryKind
  parts : List String

inductive Statement where
  | find (organizationId id : String)
  | requireNameFree (organizationId shareId : String) (parentId : Option String) (name : String)
      (exceptId : Option String)
  | trashedEntryHolding (organizationId shareId : String) (parentId : Option String) (name : String)
  | isSelfOrDescendant (organizationId candidateId folderId : String)
  | componentsOf (organizationId id : String)
  | posixUidFor (organizationId userId : String)
  | insertEntry (id : String) (row : EntryRow)
  | updatePlace (organizationId id : String) (parentId : Option String) (name path : String)
  /-- The two halves of `rebuildSubtreePaths`: its snapshot of the subtree, and the update
  of the rows, each in the version it has once its lock is granted. -/
  | subtreePaths (organizationId rootId : String)
  | writePaths (organizationId : String) (paths : List (String × String))
  | markTrashed (organizationId id : String) (now : Nat) (recycled : Bool)
  | clearTrashed (organizationId id : String)
  | subtreeNodes (organizationId id : String) (root : List String)
  | deleteRows (organizationId id : String)
  /-- The insertion of an `acl.apply` job, which none of these rows shows. -/
  | enqueueAclApply (organizationId shareId entryId : String)

abbrev Statement.Answer : Statement → Type
  | .find .. => Option EntryRow
  | .requireNameFree .. => Bool
  | .trashedEntryHolding .. => Option String
  | .isSelfOrDescendant .. => Bool
  | .componentsOf .. => List String
  | .posixUidFor .. => Nat
  | .insertEntry .. => Unit
  | .updatePlace .. => Option EntryRow
  | .subtreePaths .. => List (String × String)
  | .writePaths .. => Unit
  | .markTrashed .. => Option EntryRow
  | .clearTrashed .. => Option EntryRow
  | .subtreeNodes .. => List PurgeNode
  | .deleteRows .. => Unit
  | .enqueueAclApply .. => Unit

namespace View

variable (view : View)

def entries : List (String × EntryRow) :=
  view.rows.filterMap (fun (key,row) =>
    match key with
    | .entry id => some (id,row)
    | _ => none)

def entryAt (organizationId id : String) : Option EntryRow :=
  (view.lookup (.entry id)).filter (fun row => row.organizationId = organizationId)

def children (organizationId parentId : String) : List (String × EntryRow) :=
  view.entries.filter (fun (_,row) => row.organizationId = organizationId && row.parentId = some parentId)

/-- The upward recursion from an entry, a row for each step, and whether it came to an end. -/
def climb (organizationId : String) : Nat → String → List (String × EntryRow) × Bool
  | 0,_ => ([],false)
  | steps + 1,id =>
    match view.entryAt organizationId id with
    | none => ([],true)
    | some row =>
      match row.parentId with
      | none => ([(id,row)],true)
      | some parentId =>
        let (above,ended) := climb organizationId steps parentId
        ((id,row)::above,ended)

def chain (organizationId id : String) : List (String × EntryRow) × Bool :=
  view.climb organizationId (view.size + 1) id

def descend {Place : Type} (organizationId : String) (grow : Place → EntryRow → Place) :
    Nat → List (String × EntryRow × Place) → Option (List (List (String × EntryRow × Place)))
  | _,[] => some []
  | 0,_ => none
  | steps + 1,working =>
    (descend organizationId grow steps (working.flatMap (fun (id,_,place) =>
      (view.children organizationId id).map (fun (child,row) => (child,row,grow place row))))).map (working::·)

def subtree {Place : Type} (organizationId rootId : String) (start : EntryRow → Place)
    (grow : Place → EntryRow → Place) : Option (List (List (String × EntryRow × Place))) :=
  view.descend organizationId grow (view.size + 1)
    ((view.entryAt organizationId rootId).toList.map (fun row => (rootId,row,start row)))

end View

section

variable (fold : String → String)

def nameKey (row : EntryRow) : Key :=
  match row.parentId with
  | some parentId => .nameInFolder row.organizationId parentId (fold row.name)
  | none => .nameAtShareRoot row.organizationId row.shareId (fold row.name)

def nameTaken (view : View) (id : String) (row : EntryRow) : Bool :=
  row.trashedAt.isNone && view.entries.any (fun (other,sibling) => other ≠ id &&
    sibling.trashedAt.isNone && nameKey fold sibling = nameKey fold row)

def nameComponent (name : String) : Bool :=
  !name.toList.contains '/' && name ≠ "" && name ≠ "." && name ≠ ".."

def newParent (old : Option EntryRow) (row : EntryRow) : Option String :=
  if old.map EntryRow.parentId = some row.parentId then none else row.parentId

def storeLocks (old : Option EntryRow) (row : EntryRow) : List (Key × Mode) :=
  (newParent old row).toList.map (fun parentId => (.entry parentId,.keyShare)) ++
    if row.trashedAt.isNone then [(nameKey fold row,.forUpdate)] else []

def store {Answer : Type} (view : View) (id : String) (old : Option EntryRow) (row : EntryRow) (answer : Answer) :
    Except Fault (List (Key × Mode) × List (Key × Option EntryRow) × Answer) :=
  if !nameComponent row.name then .error .checkViolation
  else if (newParent old row).any (fun parentId => (view.lookup (.entry parentId)).isNone) then
    .error .foreignKeyViolation
  else if nameTaken fold view id row then .error .uniqueViolation
  else .ok (storeLocks fold old row,[(.entry id,some row)],answer)

def read {Answer : Type} (answer : Answer) :
    Except Fault (List (Key × Mode) × List (Key × Option EntryRow) × Answer) := .ok ([],[],answer)

def stalePaths (rootId : String) (levels : List (List (String × EntryRow × String))) : List (String × String) :=
  levels.flatten.filterMap (fun (id,row,path) =>
    if id ≠ rootId ∧ row.path ≠ path then some (id,path) else none)

def deepestFirst (levels : List (List (String × EntryRow × List String))) : List PurgeNode :=
  (levels.reverse.map (fun level => level.mergeSort (fun first second => decide (first.1 ≤ second.1)))).flatten.map
    (fun (id,row,parts) => ⟨id,row.kind,parts⟩)

/-- What a statement does on the rows it sees; `uids` answers for `PosixIdentityService`. -/
def execute (uids : String → String → Option Nat) (statement : Statement) (view : View) :
    Except Fault (List (Key × Mode) × List (Key × Option EntryRow) × statement.Answer) :=
  match statement with
  | .find organizationId id => read (view.entryAt organizationId id)
  | .requireNameFree organizationId shareId parentId name exceptId =>
    read (!view.entries.any (fun (id,row) => row.organizationId = organizationId && row.shareId = shareId &&
      row.parentId = parentId && fold row.name = fold name && row.trashedAt.isNone && some id ≠ exceptId))
  | .trashedEntryHolding organizationId shareId parentId name =>
    let holding := view.entries.filter (fun (_,row) => row.organizationId = organizationId &&
      row.shareId = shareId && row.parentId = parentId && fold row.name = fold name && row.trashedAt.isSome)
    read ((holding.mergeSort (fun first second =>
      decide (second.2.trashedAt.getD 0 ≤ first.2.trashedAt.getD 0))).head?.map Prod.fst)
  | .isSelfOrDescendant organizationId candidateId folderId =>
    let (above,ended) := view.chain organizationId candidateId
    -- `LIMIT 1` ends the recursion at the first hit.
    if above.any (fun (id,_) => id = folderId) then read true
    else if ended then read false
    else .error .statementTimeout
  | .componentsOf organizationId id =>
    let (above,ended) := view.chain organizationId id
    if ended then read (above.reverse.map (fun (_,row) => row.name)) else .error .statementTimeout
  | .posixUidFor organizationId userId =>
    match uids organizationId userId with
    | some uid => read uid
    | none => .error .posixUid
  | .insertEntry id row =>
    if (view.lookup (.entry id)).isSome then .error .uniqueViolation else store fold view id none row ()
  | .updatePlace organizationId id parentId name path =>
    match view.entryAt organizationId id with
    | none => read none
    | some row =>
      let moved := {row with parentId := parentId, name := name, path := path}
      store fold view id (some row) moved (some moved)
  | .subtreePaths organizationId rootId =>
    match view.subtree organizationId rootId EntryRow.path (fun path child => path ++ "/" ++ child.name) with
    | none => .error .statementTimeout
    | some levels => read (stalePaths rootId levels)
  | .writePaths organizationId paths =>
    .ok ([],paths.filterMap (fun (id,path) => (view.entryAt organizationId id).bind (fun row =>
      if row.path = path then none else some (.entry id,some {row with path := path}))),())
  | .markTrashed organizationId id now recycled =>
    match (view.entryAt organizationId id).filter (fun row => row.trashedAt.isNone) with
    | none => read none
    | some row =>
      let binned := {row with trashedAt := some now, recycled := recycled}
      store fold view id (some row) binned (some binned)
  | .clearTrashed organizationId id =>
    match view.entryAt organizationId id with
    | none => read none
    | some row =>
      let back := {row with trashedAt := none, recycled := false}
      store fold view id (some row) back (some back)
  | .subtreeNodes organizationId id root =>
    match view.subtree organizationId id (fun _ => root) (fun parts child => parts ++ [child.name]) with
    | none => .error .statementTimeout
    | some levels => read (deepestFirst levels)
  | .deleteRows organizationId id =>
    match view.entryAt organizationId id with
    | none => .ok ([],[],())
    | some _ =>
      -- `parent_id` is `ON DELETE RESTRICT`.
      if view.entries.any (fun (_,row) => row.parentId = some id) then .error .foreignKeyViolation
      else .ok ([],[(.entry id,none)],())
  | .enqueueAclApply .. => read ()

end

def reads : Statement → Bool
  | .find .. | .requireNameFree .. | .trashedEntryHolding .. | .isSelfOrDescendant .. | .componentsOf ..
  | .posixUidFor .. | .subtreeNodes .. | .enqueueAclApply .. => true
  | _ => false

section Answers

variable {fold : String → String} {uids : String → String → Option Nat} {view : View}
variable {locks : List (Key × Mode)} {writes : List (Key × Option EntryRow)}

theorem entryAt_some {organizationId id : String} {row : EntryRow} : view.entryAt organizationId id = some row ↔
    view.lookup (.entry id) = some row ∧ row.organizationId = organizationId := by
  simp [View.entryAt,Option.filter_eq_some_iff]

private theorem read_quiet {Answer : Type} {value answer : Answer}
    (ran : read value = .ok (locks,writes,answer)) : writes = [] ∧ answer = value := by
  cases ran
  exact ⟨rfl,rfl⟩

theorem reading_quiet {statement : Statement} {answer : statement.Answer} (reading : reads statement = true)
    (ran : execute fold uids statement view = .ok (locks,writes,answer)) : writes = [] := by
  cases statement with simp only [execute] at ran
  | find | requireNameFree | trashedEntryHolding => exact (read_quiet ran).1
  | isSelfOrDescendant organizationId candidateId folderId =>
    split_ifs at ran
    all_goals exact (read_quiet ran).1
  | componentsOf organizationId id =>
    split_ifs at ran
    exact (read_quiet ran).1
  | posixUidFor organizationId userId =>
    split at ran
    · exact (read_quiet ran).1
    · cases ran
  | subtreeNodes organizationId id root =>
    split at ran
    · cases ran
    · exact (read_quiet ran).1
  | enqueueAclApply => exact (read_quiet ran).1
  | _ => cases reading

theorem find_ok {organizationId id : String} {found : Option EntryRow}
    (ran : execute fold uids (.find organizationId id) view = .ok (locks,writes,found)) :
    found = view.entryAt organizationId id :=
  (read_quiet ran).2

theorem store_ok {Answer : Type} {id : String} {old : Option EntryRow} {row : EntryRow} {value answer : Answer}
    (ran : store fold view id old row value = .ok (locks,writes,answer)) :
    writes = [(.entry id,some row)] ∧ answer = value ∧ ∀ parentId, row.parentId = some parentId →
      (view.lookup (.entry parentId)).isSome ∨ old.map EntryRow.parentId = some row.parentId := by
  simp only [store] at ran
  split_ifs at ran with unnamed dangling taken
  cases ran
  refine ⟨rfl,rfl,fun parentId named => ?_⟩
  by_cases same : old.map EntryRow.parentId = some row.parentId
  · exact .inr same
  · rw [newParent,if_neg same,named] at dangling
    exact .inl (by simpa [Option.isSome_iff_ne_none] using dangling)

theorem place_ok {organizationId id name path : String} {parentId : Option String} {answer : Option EntryRow}
    (ran : execute fold uids (.updatePlace organizationId id parentId name path) view = .ok (locks,writes,answer)) :
    (answer = none ∧ writes = []) ∨ ∃ row, view.entryAt organizationId id = some row ∧
      answer = some {row with parentId := parentId, name := name, path := path} ∧
      writes = [(.entry id,some {row with parentId := parentId, name := name, path := path})] := by
  simp only [execute] at ran
  split at ran
  next => exact .inl ⟨(read_quiet ran).2,(read_quiet ran).1⟩
  next row found =>
    obtain ⟨written,answered,-⟩ := store_ok ran
    exact .inr ⟨row,found,answered,written⟩

theorem survey_ok {organizationId rootId : String} {paths : List (String × String)}
    (ran : execute fold uids (.subtreePaths organizationId rootId) view = .ok (locks,writes,paths)) :
    writes = [] ∧ ∃ levels, view.subtree organizationId rootId EntryRow.path
      (fun path child => path ++ "/" ++ child.name) = some levels ∧ paths = stalePaths rootId levels := by
  simp only [execute] at ran
  split at ran
  next => cases ran
  next levels surveyed => exact ⟨(read_quiet ran).1,levels,surveyed,(read_quiet ran).2⟩

theorem rewrite_ok {organizationId : String} {paths : List (String × String)} {answer : Unit}
    (ran : execute fold uids (.writePaths organizationId paths) view = .ok (locks,writes,answer)) :
    ∀ key value, (key,value) ∈ writes ↔ ∃ id path old, (id,path) ∈ paths ∧
      view.entryAt organizationId id = some old ∧ old.path ≠ path ∧ key = .entry id ∧
      value = some {old with path := path} := by
  cases ran
  intro key value
  simp only [List.mem_filterMap,Option.bind_eq_some_iff,Option.ite_none_left_eq_some,Option.some.injEq,
    Prod.mk.injEq,Prod.exists]
  constructor
  · intro ⟨id,path,listed,old,found,differs,same,written⟩
    exact ⟨id,path,old,listed,found,differs,same.symm,written.symm⟩
  · intro ⟨id,path,old,listed,found,differs,same,written⟩
    exact ⟨id,path,listed,old,found,differs,same.symm,written.symm⟩

end Answers

end Depsis.Files

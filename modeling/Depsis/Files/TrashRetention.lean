import Depsis.Files.FolderTree
import Depsis.Foundation.Levels
import Depsis.Foundation.Machine
import Depsis.Foundation.Table
import Mathlib.Algebra.GroupWithZero.Nat
import Mathlib.Data.List.Perm.Basic

/-! Trash retention: what a policy would take, and the sweep that takes it, a batch of trash roots
at a time. The rows are those of one organization; times are in microseconds.
-/
namespace Depsis.Files.Retention

open Depsis.Foundation

structure Entry where
  shareId : String
  parentId : Option String
  name : String
  kind : EntryKind
  sizeBytes : Nat
  trashedAt : Option Int
deriving DecidableEq

abbrev Entries := Table String Entry

def BATCH : Nat := 100

def DAY : Int := 24 * 3600 * 1000000

def cutoff (days : Nat) (now : Int) : Int := now - days * DAY

def kids (entries : Entries) (id : String) : List String :=
  (entries.rows.filter (fun entry => entry.2.parentId = some id)).map Prod.fst

def tree (entries : Entries) (ids : List String) : Option (List String) :=
  Levels.levels (kids entries) entries.size ids

def expired (entries : Entries) (before : Int) (row : Entry) : Bool :=
  row.trashedAt.any (fun trashedAt => trashedAt < before) &&
    (row.parentId.bind (fun parentId => entries.lookup parentId)).all (fun parent => parent.trashedAt.isNone)

def roots (entries : Entries) (before : Int) : List (String × Entry) :=
  entries.rows.filter (fun entry => expired entries before entry.2)

def isFile (entries : Entries) (id : String) : Bool :=
  (entries.lookup id).any (fun row => row.kind = .file)

def bytesOf (entries : Entries) (id : String) : Nat :=
  match entries.lookup id with
  | none => 0
  | some row => if row.kind = .file then row.sizeBytes else 0

structure Impact where
  entries : Nat
  files : Nat
  bytes : Nat
  oldestTrashedAt : Option Int
deriving DecidableEq

def impact (entries : Entries) (now : Int) : Option Nat → Option Impact
  | none => some ⟨0,0,0,none⟩
  | some days =>
    let found := roots entries (cutoff days now)
    (tree entries (found.map Prod.fst)).map (fun all =>
      ⟨found.length,all.countP (isFile entries),(all.map (bytesOf entries)).sum,
        (found.filterMap (fun root => root.2.trashedAt)).min?⟩)

def Entry.age (row : Entry) : Int := row.trashedAt.getD 0

/-- What `ORDER BY trashed_at LIMIT 100` may answer; equal times come in any order. -/
def Batch (entries : Entries) (before : Int) (batch : List (String × Entry)) : Prop :=
  batch.Nodup ∧ (∀ root ∈ batch, root ∈ roots entries before) ∧ batch.Pairwise (fun first second => first.2.age ≤ second.2.age) ∧
    batch.length ≤ BATCH ∧ ∀ root ∈ roots entries before, root ∈ batch ∨
      (batch.length = BATCH ∧ ∀ other ∈ batch, other.2.age ≤ root.2.age)

instance (entries : Entries) (before : Int) (batch : List (String × Entry)) : Decidable (Batch entries before batch) :=
  inferInstanceAs (Decidable (_ ∧ _))

structure State where
  entries : Entries
  purged : List String
  failed : Nat
  bytes : Nat
  removed : List String

/-- What a purge that fails half-way has removed: rows under the root, each with all that is under it. -/
def Partly (entries : Entries) (root : String) (nodes gone : List String) : Prop :=
  gone.Nodup ∧ root ∉ gone ∧ ∀ id ∈ gone, id ∈ nodes ∧ ∀ child ∈ kids entries id, child ∈ gone

instance (entries : Entries) (root : String) (nodes gone : List String) : Decidable (Partly entries root nodes gone) :=
  inferInstanceAs (Decidable (_ ∧ _))

def remove (state : State) (gone : List String) : State :=
  { state with
    entries := state.entries.retain (fun id _ => !gone.contains id)
    removed := state.removed ++ gone }

def purge (fails : String → Bool) (gone : String → List String) (state : State) (root : String) (bytes : Nat) : Option State :=
  match state.entries.lookup root with
  -- `EntryNotFoundError`
  | none => some { state with failed := state.failed + 1 }
  | some row =>
    -- `NotTrashedError`
    if row.trashedAt.isNone then some { state with failed := state.failed + 1 }
    else
      match tree state.entries [root] with
      | none => none
      | some nodes =>
        if fails root then
          if Partly state.entries root nodes (gone root) then some { remove state (gone root) with failed := state.failed + 1 }
          else none
        else some { remove state nodes with purged := state.purged ++ [root], bytes := state.bytes + bytes }

def purges (fails : String → Bool) (gone : String → List String) (state : State) : List (String × Nat) → Option State
  | [] => some state
  | (root,bytes)::rest => (purge fails gone state root bytes).bind (fun next => purges fails gone next rest)

structure Run where
  now : Int
  batch : List (String × Entry)
  handled : Nat
  gone : String → List String

def rootBytes (entries : Entries) (root : String) : Nat :=
  (((tree entries [root]).getD []).map (bytesOf entries)).sum

def purgeExpired (fails : String → Bool) (days : Nat) (state : State) (run : Run) : Option State :=
  if Batch state.entries (cutoff days run.now) run.batch then
    purges fails run.gone state
      ((run.batch.take run.handled).map (fun root => (root.1,rootBytes state.entries root.1)))
  else none

def State.first (entries : Entries) : State := ⟨entries,[],0,0,[]⟩

def Forest (entries : Entries) : Prop := ∀ id, ¬Relation.TransGen (Levels.RightBelow (kids entries)) id id

def Within (entries : Entries) (root id : String) : Prop := Relation.ReflTransGen (Levels.RightBelow (kids entries)) root id

def Run.whole (run : Run) : Bool := run.batch.length ≤ run.handled

end Depsis.Files.Retention

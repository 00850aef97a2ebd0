import Depsis.Foundation.Table
import Mathlib.Data.List.Infix
import Mathlib.Data.List.Sort

/-! A directory tree by its paths, with the system calls that change one entry
at a time. Each call answers the error number the kernel would.
-/
namespace Depsis.Foundation

open List AList

inductive Node (Bytes : Type) where
  | directory
  | file (bytes : Bytes)

inductive Errno where
  | noEntry | notDirectory | exists | notEmpty | isDirectory | invalid

abbrev FileTree (Bytes : Type) := Table (List String) (Node Bytes)

namespace FileTree

variable {Bytes : Type} (tree : FileTree Bytes)

/-- `openat2` with `O_DIRECTORY`: the first component that is missing or is not a directory. -/
def openDir (path : List String) : Option Errno :=
  path.inits.tail.findSome? (fun reached =>
    match tree.lookup reached with
    | none => some .noEntry
    | some (.file _) => some .notDirectory
    | some .directory => none)

def relocate (source target : List String) : FileTree Bytes :=
  (tree.retain (fun path _ => !source.isPrefixOf path)).fill
    ((tree.rows.filter (fun row => source.isPrefixOf row.1)).map
      (fun row => (target ++ row.1.drop source.length,row.2)))

/-! The calls below are made on directories that have been opened. -/

def rename (source target : List String) : Except Errno (FileTree Bytes) :=
  if (tree.lookup source).isNone then .error .noEntry
  else if (tree.lookup target).isSome then .error .exists
  else if source.isPrefixOf target then .error .invalid
  else .ok (relocate tree source target)

def mkdir (path : List String) : Except Errno (FileTree Bytes) :=
  if (tree.lookup path).isSome then .error .exists else .ok (tree.insert path .directory)

def create (path : List String) (bytes : Bytes) : Except Errno (FileTree Bytes) :=
  if (tree.lookup path).isSome then .error .exists else .ok (tree.insert path (.file bytes))

def unlink (path : List String) : Except Errno (FileTree Bytes) :=
  match tree.lookup path with
  | none => .error .noEntry
  | some .directory => .error .isDirectory
  | some (.file _) => .ok (tree.erase path)

def vacant (path : List String) : Bool :=
  tree.all (fun other _ => !path.isPrefixOf other || other = path)

def rmdir (path : List String) : Except Errno (FileTree Bytes) :=
  match tree.lookup path with
  | none => .error .noEntry
  | some (.file _) => .error .notDirectory
  | some .directory => if vacant tree path then .ok (tree.erase path) else .error .notEmpty

def list (path : List String) : List (String × Node Bytes) :=
  (tree.rows.filterMap (fun row =>
    row.1.getLast?.bind (fun name => if row.1.dropLast = path then some (name,row.2) else none))).mergeSort
    (fun first second => decide (first.1 ≤ second.1))

section Relocation

variable {tree} {source target path : List String}

private theorem relocated_keys (tree : FileTree Bytes) (source target : List String) :
    (((tree.rows.filter (fun row => source.isPrefixOf row.1)).map
      (fun row => (target ++ row.1.drop source.length,row.2))).map Prod.fst).Nodup := by
  have keys := tree.rows_nodup
  rw [map_map]
  refine List.Nodup.map_on (fun first left second right same => ?_) ((List.Nodup.of_map _ keys).filter _)
  obtain ⟨there,below⟩ := mem_filter.mp left
  obtain ⟨here,under⟩ := mem_filter.mp right
  obtain ⟨tail,ends⟩ := isPrefixOf_iff_prefix.mp below
  obtain ⟨other,also⟩ := isPrefixOf_iff_prefix.mp under
  have tails : tail = other := by simpa [← ends,← also] using same
  exact inj_on_of_nodup_map keys there here (by rw [← ends,← also,tails])

theorem lookup_relocate : (relocate tree source target).lookup path =
    match (if target.isPrefixOf path then tree.lookup (source ++ path.drop target.length) else none) with
    | some node => some node
    | none => if source.isPrefixOf path then none else tree.lookup path := by
  have kept : (tree.retain (fun path _ => !source.isPrefixOf path)).lookup path =
      if source.isPrefixOf path then none else tree.lookup path := by
    rw [lookup_retain]
    cases source.isPrefixOf path <;> cases tree.lookup path <;> rfl
  split
  next node found =>
    split at found
    next inside =>
      obtain ⟨tail,rfl⟩ := isPrefixOf_iff_prefix.mp inside
      rw [drop_left] at found
      refine lookup_fill_of_mem (relocated_keys tree source target) (mem_map.mpr ⟨(source ++ tail,node),?_,by simp⟩)
      exact mem_filter.mpr ⟨mem_rows.mpr found,by simp⟩
    next => cases found
  next missing =>
    rw [← kept]
    refine lookup_fill_of_notMem (fun member => ?_)
    obtain ⟨_,moved,rfl⟩ := mem_map.mp member
    obtain ⟨row,present,rfl⟩ := mem_map.mp moved
    obtain ⟨stored,below⟩ := mem_filter.mp present
    obtain ⟨tail,ends⟩ := isPrefixOf_iff_prefix.mp below
    rw [← ends,drop_left,if_pos (by simp),drop_left,ends,mem_rows.mp stored] at missing
    cases missing

theorem lookup_renamed (there : (tree.lookup source).isSome) :
    (relocate tree source target).lookup target = tree.lookup source := by
  obtain ⟨node,found⟩ := Option.isSome_iff_exists.mp there
  have self : target.isPrefixOf target = true := isPrefixOf_iff_prefix.mpr prefix_rfl
  rw [lookup_relocate,if_pos self,drop_length,append_nil,found]

end Relocation

end FileTree

end Depsis.Foundation

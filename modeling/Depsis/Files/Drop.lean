import Mathlib.Data.List.Flatten

/-! What is dropped on the list of files, walked folder by folder. The browser hands over the children of a folder
in batches, and any of its calls may fail.
-/
namespace Depsis.Files.Drop

open List

open scoped List

structure File where
  bytes : List UInt8
  type : String
deriving DecidableEq

/-- An entry of the browser. A call of `readEntries` hands over so many of the children that are left and one more,
or fails (`none`); where the calls listed are over, all that are left. -/
inductive Entry where
  | file (content : Option File)
  | directory (name : String) (children : List Entry) (calls : List (Option Nat))
  | other

inductive DropItem where
  | entry (entry : Entry)
  | file (file : File)

structure Upload where
  file : File
  segments : List String
deriving DecidableEq

def DROP_MAX_DEPTH : Nat := 24

def readAllEntries {Child : Type} : List Child → List (Option Nat) → List Child
  | children,[] => children
  | _,none::_ => []
  | children,some count::calls => children.take (count + 1) ++ readAllEntries (children.drop (count + 1)) calls

mutual

def walkEntry : Entry → List String → List Upload
  | .file (some file),segments => [⟨file,segments⟩]
  | .file none,_ => []
  | .directory name children calls,segments =>
    if DROP_MAX_DEPTH ≤ segments.length then []
    else (readAllEntries (walks children) calls).flatMap (fun walk => walk (segments ++ [name]))
  | .other,_ => []

/-- `walkEntry` of each entry, for a chain to come. -/
def walks : List Entry → List (List String → List Upload)
  | [] => []
  | child::children => walkEntry child::walks children

end

def collectDrop : List DropItem → List Upload × Nat
  | [] => ([],0)
  | .file file::items =>
    let (uploads,blind) := collectDrop items
    if file.bytes = [] ∧ file.type = "" then (uploads,blind + 1) else (⟨file,[]⟩::uploads,blind)
  | .entry entry::items =>
    let (uploads,blind) := collectDrop items
    (walkEntry entry [] ++ uploads,blind)

mutual

/-- The files of an entry that lies below these folders, read or not. -/
def filesOf : Entry → List String → List (Option File × List String)
  | .file content,segments => [(content,segments)]
  | .directory name children _,segments => filesOfAll children (segments ++ [name])
  | .other,_ => []

def filesOfAll : List Entry → List String → List (Option File × List String)
  | [],_ => []
  | child::children,segments => filesOf child segments ++ filesOfAll children segments

end

def asFound (upload : Upload) : Option File × List String := (some upload.file,upload.segments)

def filesOfItem : DropItem → List (Option File × List String)
  | .entry entry => filesOf entry []
  | .file file => [(some file,[])]

mutual

/-- Every file of an entry below these folders can be read and lies below 24 folders at most, and every child that
holds a file is handed over. -/
def Lossless : Entry → List String → Prop
  | .file content,_ => content ≠ none
  | .directory name children calls,segments =>
    filesOfAll children (segments ++ [name]) = [] ∨ segments.length < DROP_MAX_DEPTH ∧
      filesOfAll (children.drop (readAllEntries children calls).length) (segments ++ [name]) = [] ∧
      ∀ lossless ∈ readAllEntries (losslesses children) calls, lossless (segments ++ [name])
  | .other,_ => True

def losslesses : List Entry → List (List String → Prop)
  | [] => []
  | child::children => Lossless child::losslesses children

end

/-- What becomes of a drop: uploads are files of the forest under their own chains and none is there twice, and all
files are uploaded or counted as blind just when none is lost on the way. -/
structure Collected (items : List DropItem) (uploads : List Upload) (blind : Nat) : Prop where
  own : uploads.map asFound <+ items.flatMap filesOfItem
  most : uploads.length + blind ≤ (items.flatMap filesOfItem).length
  all : uploads.length + blind = (items.flatMap filesOfItem).length ↔
    ∀ entry, .entry entry ∈ items → Lossless entry []

variable {Child Other : Type} {children : List Child} {entry : Entry} {segments : List String}

theorem readAllEntries_map (change : Child → Other) (children : List Child) (calls : List (Option Nat)) :
    readAllEntries (children.map change) calls = (readAllEntries children calls).map change := by
  induction calls generalizing children with
  | nil => rfl
  | cons call calls ih =>
    cases call with
    | none => rfl
    | some count => rw [readAllEntries,readAllEntries,← map_take,← map_drop,ih,map_append]

theorem readAllEntries_front (children : List Child) (calls : List (Option Nat)) : readAllEntries children calls <+: children := by
  induction calls generalizing children with
  | nil => exact prefix_rfl
  | cons call calls ih =>
    cases call with
    | none => exact List.nil_prefix
    | some count =>
      have both := (prefix_append_right_inj (children.take (count + 1))).mpr (ih (children.drop (count + 1)))
      rwa [take_append_drop] at both

theorem walks_map (children : List Entry) : walks children = children.map walkEntry := by
  induction children with
  | nil => rfl
  | cons child children ih => rw [walks,ih,map_cons]

theorem losslesses_map (children : List Entry) : losslesses children = children.map Lossless := by
  induction children with
  | nil => rfl
  | cons child children ih => rw [losslesses,ih,map_cons]

theorem filesOfAll_flatMap (children : List Entry) (segments : List String) :
    filesOfAll children segments = children.flatMap (filesOf · segments) := by
  induction children with
  | nil => rfl
  | cons child children ih => rw [filesOfAll,ih,flatMap_cons]

/-- Entries of which each has a property, where a folder has it if its children do. -/
theorem Entry.induct {motive : Entry → Prop} (file : ∀ content, motive (.file content)) (other : motive .other)
    (directory : ∀ name children calls, (∀ child ∈ children, motive child) → motive (.directory name children calls)) :
    ∀ entry, motive entry := by
  intro entry
  exact @Entry.rec motive (fun children => ∀ child ∈ children, motive child) file directory other
    (fun _ => nofun) (fun _ _ first rest => forall_mem_cons.mpr ⟨first,rest⟩) entry

theorem flatMap_full {first second : Child → List Other} (each : ∀ child ∈ children, first child <+ second child) :
    (children.flatMap first).length = (children.flatMap second).length ↔
      ∀ child ∈ children, (first child).length = (second child).length := by
  induction children with
  | nil => simp
  | cons child children ih =>
    obtain ⟨here,rest⟩ := forall_mem_cons.mp each
    have less := here.length_le
    have lessRest := (List.Sublist.flatMap_right children rest).length_le
    rw [forall_mem_cons,← ih rest,flatMap_cons,flatMap_cons,length_append,length_append]
    omega

/-- What is walked is a part of what is there, and all of it just when nothing is lost. -/
theorem walkEntry_found (entry : Entry) : ∀ segments, (walkEntry entry segments).map asFound <+ filesOf entry segments ∧
    ((walkEntry entry segments).length = (filesOf entry segments).length ↔ Lossless entry segments) := by
  induction entry using Entry.induct with
  | file content =>
    intro segments
    cases content with
    | none => exact ⟨nil_sublist _,nofun,fun some => absurd rfl some⟩
    | some file => exact ⟨List.Sublist.refl _,fun _ => nofun,fun _ => rfl⟩
  | other => exact fun _ => ⟨List.Sublist.refl _,fun _ => trivial,fun _ => rfl⟩
  | directory name children calls ih =>
    intro segments
    obtain ⟨rest,both⟩ := readAllEntries_front children calls
    have dropped : children.drop (readAllEntries children calls).length = rest :=
      (congrArg (List.drop _) both.symm).trans drop_left
    have found : (filesOf (.directory name children calls) segments).length =
        ((readAllEntries children calls).flatMap (filesOf · (segments ++ [name]))).length +
          (filesOfAll rest (segments ++ [name])).length := by
      rw [filesOf,filesOfAll_flatMap,filesOfAll_flatMap,← length_append,← flatMap_append,both]
    have all : filesOfAll children (segments ++ [name]) = [] ↔ (filesOf (.directory name children calls) segments).length = 0 := by
      rw [filesOf,length_eq_zero_iff]
    simp only [walkEntry,Lossless,walks_map,losslesses_map,readAllEntries_map,flatMap_map,forall_mem_map,dropped,all]
    split
    next deep =>
      refine ⟨nil_sublist _,fun none => .inl none.symm,fun lossless => ?_⟩
      rcases lossless with none | room
      · exact none.symm
      · exact absurd room.1 (Nat.not_lt.mpr deep)
    next room =>
      have inside : ∀ child ∈ readAllEntries children calls, child ∈ children :=
        fun child member => both ▸ mem_append_left rest member
      have parts : ∀ child ∈ readAllEntries children calls,
          (walkEntry child (segments ++ [name])).map asFound <+ filesOf child (segments ++ [name]) :=
        fun child member => (ih child (inside child member) _).1
      have full := flatMap_full parts
      have part := List.Sublist.flatMap_right _ parts
      rw [← map_flatMap] at part full
      have less := part.length_le
      rw [length_map] at less full
      constructor
      · refine part.trans ?_
        rw [filesOf,filesOfAll_flatMap]
        exact (readAllEntries_front children calls).sublist.flatMap _
      · rw [found]
        have each : (∀ child ∈ readAllEntries children calls,
            ((walkEntry child (segments ++ [name])).map asFound).length = (filesOf child (segments ++ [name])).length) ↔
              ∀ child ∈ readAllEntries children calls, Lossless child (segments ++ [name]) := by
          refine forall₂_congr (fun child member => ?_)
          rw [length_map,(ih child (inside child member) _).2]
        rw [← each,← full,← length_eq_zero_iff]
        omega

/-- A drop loses nothing silently just when no file of it lies too deep, cannot be read or is not handed over. -/
theorem collectDrop_exact (items : List DropItem) : Collected items (collectDrop items).1 (collectDrop items).2 := by
  induction items with
  | nil => exact ⟨List.Sublist.slnil,Nat.zero_le _,fun _ => nofun,fun _ => rfl⟩
  | cons item items ih =>
    obtain ⟨own,most,all⟩ := ih
    cases item with
    | file file =>
      have others : (∀ entry, .entry entry ∈ DropItem.file file::items → Lossless entry []) ↔
          ∀ entry, .entry entry ∈ items → Lossless entry [] := by simp
      have longer : (List.flatMap filesOfItem (DropItem.file file::items)).length = (items.flatMap filesOfItem).length + 1 := rfl
      unfold collectDrop
      dsimp only
      split
      next blind =>
        dsimp only
        refine ⟨own.cons _,?_,?_⟩
        · omega
        · rw [others,← all]
          omega
      next known =>
        refine ⟨own.cons_cons _,?_,?_⟩
        · rw [length_cons]
          omega
        · rw [others,← all,length_cons]
          omega
    | entry entry =>
      obtain ⟨part,whole⟩ := walkEntry_found entry []
      have less := part.length_le
      rw [length_map] at less
      have others : (∀ next, .entry next ∈ DropItem.entry entry::items → Lossless next []) ↔
          Lossless entry [] ∧ ∀ next, .entry next ∈ items → Lossless next [] := by simp
      have longer : (List.flatMap filesOfItem (DropItem.entry entry::items)).length =
          (filesOf entry []).length + (items.flatMap filesOfItem).length := length_append
      unfold collectDrop
      dsimp only
      refine ⟨?_,?_,?_⟩
      · rw [map_append]
        exact part.append own
      · rw [length_append]
        omega
      · have whole : _ ↔ Lossless entry [] := whole
        rw [others,← all,← whole,length_append]
        omega

/-- A folder of two files that are handed over one by one, where the second call fails. -/
def interrupted : List DropItem :=
  [.entry (.directory "belgeler" [.file (some ⟨[1],""⟩),.file (some ⟨[2],""⟩)] [some 0,none])]

theorem collectDrop_loses : ¬((collectDrop interrupted).1.length + (collectDrop interrupted).2 =
    (interrupted.flatMap filesOfItem).length) := by
  decide

end Depsis.Files.Drop

import Depsis.Files.Disk
import Depsis.Foundation.SiftedPages
import Mathlib.Data.List.Lex

/-! The agent's `list_directory`, page by page, and the indexer's loop over the
pages. A directory is what `readdir` gives, in an order that may differ from one
call to the next.
-/
namespace Depsis.Files

open Depsis.Foundation List

inductive FileType where
  | directory | regularFile | other
deriving DecidableEq

structure RawEntry where
  name : ByteArray
  type : FileType
  size : Nat
  modifiedUnix : Int

structure DirEntryInfo where
  name : String
  directory : Bool
  size : Nat
  modifiedUnix : Int
deriving DecidableEq

/-- `entries_of`: regular files and directories whose names are UTF-8. -/
def infoOf (raw : RawEntry) : Option DirEntryInfo :=
  if raw.name.data = ".".toByteArray.data ∨ raw.name.data = "..".toByteArray.data then none
  else if raw.type = .other then none
  else (String.fromUTF8? raw.name).map (fun name =>
    ⟨name,decide (raw.type = .directory),if raw.type = .directory then 0 else raw.size,raw.modifiedUnix⟩)

def entriesOf (found : List RawEntry) : List DirEntryInfo := found.filterMap infoOf

def ENTRY_NAME_MAX : Nat := 255

def entryName (raw : String) : Option String :=
  if raw = "" then none
  else if ENTRY_NAME_MAX < raw.utf8ByteSize then none
  else if raw.toList.contains '\x00' then none
  else if raw.toList.contains '/' || raw.toList.contains '\\' then none
  else if raw = "." || raw = ".." then none
  else some raw

def bytesOf (name : String) : List Nat := name.toByteArray.data.toList.map UInt8.toNat

def listed (path : List String) (entry : DirEntryInfo) : Option DirEntryInfo :=
  if Disk.unlisted path entry.name then none
  else (entryName entry.name).map (fun name => {entry with name := name})

def byName (found : List DirEntryInfo) : List DirEntryInfo :=
  found.mergeSort (fun first second => decide (bytesOf first.name ≤ bytesOf second.name))

/-- `list_directory` on an opened directory: sorted, cut, then filtered. -/
def listDirectory (maxListing : Nat) (path : List String) (after : Option String) (found : List RawEntry) :
    List DirEntryInfo × Bool :=
  let sorted := byName (entriesOf found)
  let rest :=
    match after with
    | none => sorted
    | some cursor => sorted.filter (fun entry => decide (bytesOf cursor < bytesOf entry.name))
  ((rest.take maxListing).filterMap (listed path),decide (maxListing < rest.length))

inductive PageAnswer where
  | listing (entries : List DirEntryInfo) (truncated : Bool)
  | notFound
  | thrown

inductive Listing where
  | gone
  | entries (entries : List DirEntryInfo) (truncated : Bool)
deriving DecidableEq

def MAX_PAGES : Nat := 40

def pagesFrom (ask : Nat → Option String → PageAnswer) (entries : List DirEntryInfo) :
    Nat → Nat → Option String → Option Listing
  | 0,_,_ => some (.entries entries true)
  | left + 1,page,after =>
    match ask page after with
    | .notFound => if page = 0 then some .gone else some (.entries entries true)
    | .thrown => none
    | .listing found truncated =>
      if !truncated then some (.entries (entries ++ found) false)
      else
        match found.getLast? with
        -- Cut off with nothing kept: there is no cursor to go on from.
        | none => some (.entries (entries ++ found) true)
        | some last => pagesFrom ask (entries ++ found) left (page + 1) (some last.name)

def listing (maxPages : Nat) (ask : Nat → Option String → PageAnswer) : Option Listing :=
  pagesFrom ask [] maxPages 0 none

def addressable (path : List String) (directory : List RawEntry) : List DirEntryInfo :=
  (entriesOf directory).filterMap (listed path)

def answers (maxListing : Nat) (path : List String) (reads : Nat → List RawEntry) (page : Nat)
    (after : Option String) : PageAnswer :=
  let (entries,truncated) := listDirectory maxListing path after (reads page)
  .listing entries truncated

theorem bytesOf_injective : Function.Injective bytesOf := by
  intro first second same
  have lists := map_injective_iff.mpr (fun _ _ => UInt8.toNat_inj.mp) same
  exact String.toByteArray_inj.mp (ByteArray.ext (Array.toList_inj.mp lists))

private theorem decoded_name {raw : ByteArray} {name : String} (decoded : String.fromUTF8? raw = some name) :
    name.toByteArray = raw := by
  unfold String.fromUTF8? at decoded
  split at decoded
  · cases decoded
    rfl
  · cases decoded

theorem infoOf_name {raw : RawEntry} {entry : DirEntryInfo} (shown : infoOf raw = some entry) :
    entry.name.toByteArray = raw.name := by
  unfold infoOf at shown
  split at shown
  next => cases shown
  next =>
    split at shown
    next => cases shown
    next =>
      obtain ⟨name,decoded,rfl⟩ := Option.map_eq_some_iff.mp shown
      exact decoded_name decoded

theorem entriesOf_distinct {found : List RawEntry} (distinct : (found.map RawEntry.name).Nodup) :
    ((entriesOf found).map DirEntryInfo.name).Nodup := by
  induction found with
  | nil => exact nodup_nil
  | cons raw rest ih =>
    obtain ⟨fresh,distinct⟩ := nodup_cons.mp distinct
    cases shown : infoOf raw with
    | none =>
      rw [entriesOf,filterMap_cons_none shown]
      exact ih distinct
    | some entry =>
      rw [entriesOf,filterMap_cons_some shown]
      refine nodup_cons.mpr ⟨fun again => fresh ?_,ih distinct⟩
      obtain ⟨other,member,same⟩ := mem_map.mp again
      obtain ⟨source,present,showing⟩ := mem_filterMap.mp member
      refine mem_map.mpr ⟨source,present,?_⟩
      rw [← infoOf_name showing,← infoOf_name shown,same]

theorem listed_name {path : List String} {entry shown : DirEntryInfo} (kept : listed path entry = some shown) :
    shown = entry := by
  unfold listed at kept
  split_ifs at kept
  obtain ⟨name,parsed,rfl⟩ := Option.map_eq_some_iff.mp kept
  unfold entryName at parsed
  split_ifs at parsed
  cases parsed
  rfl

theorem listed_sublist (path : List String) (found : List DirEntryInfo) :
    (found.filterMap (listed path)).Sublist found := by
  induction found with
  | nil => exact List.Sublist.slnil
  | cons entry rest ih =>
    cases kept : listed path entry with
    | none =>
      rw [filterMap_cons_none kept]
      exact ih.cons entry
    | some shown =>
      rw [filterMap_cons_some kept,listed_name kept]
      exact ih.cons_cons entry

theorem byName_perm (found : List DirEntryInfo) : (byName found).Perm found := mergeSort_perm found _

theorem byName_strict {found : List DirEntryInfo} (distinct : (found.map DirEntryInfo.name).Nodup) :
    (byName found).Pairwise (fun first second => bytesOf first.name < bytesOf second.name) := by
  have ordered : (byName found).Pairwise (fun first second => bytesOf first.name ≤ bytesOf second.name) := by
    have sorted := @pairwise_mergeSort _ (fun first second => decide (bytesOf first.name ≤ bytesOf second.name))
      (fun first second third before after => by
        simp only [decide_eq_true_eq] at before after ⊢
        exact before.trans after)
      (fun first second => by simpa using le_total (bytesOf first.name) (bytesOf second.name)) found
    simpa [byName] using sorted
  have apart : (byName found).Pairwise (fun first second => first.name ≠ second.name) :=
    pairwise_map.mp (((byName_perm found).map DirEntryInfo.name).nodup_iff.mpr distinct)
  exact (ordered.and apart).imp (fun both => lt_of_le_of_ne both.1 (fun same => both.2 (bytesOf_injective same)))

theorem byName_congr {first second : List DirEntryInfo} (same : first.Perm second)
    (distinct : (first.map DirEntryInfo.name).Nodup) : byName first = byName second := by
  have perm := (byName_perm first).trans (same.trans (byName_perm second).symm)
  refine perm.eq_of_pairwise (fun a b _ _ before after => absurd before (not_lt_of_gt after)) (byName_strict distinct) ?_
  exact byName_strict ((same.map DirEntryInfo.name).nodup_iff.mp distinct)

theorem listDirectory_page (maxListing : Nat) (path : List String) (after : Option String) (found : List RawEntry) :
    listDirectory maxListing path after found =
      SiftedPages.page (fun entry : DirEntryInfo => bytesOf entry.name) (listed path) maxListing
        (byName (entriesOf found)) (after.map bytesOf) := by
  cases after with
  | none => rfl
  | some cursor =>
    have alike : (byName (entriesOf found)).filter (fun entry => decide (bytesOf cursor < bytesOf entry.name)) =
        SiftedPages.behind (fun entry : DirEntryInfo => bytesOf entry.name) (byName (entriesOf found))
          (some (bytesOf cursor)) := by
      refine filter_congr (fun entry _ => ?_)
      congr!
    rw [listDirectory,SiftedPages.page,Option.map_some,← alike]

/-- The names a page may start behind: none of them kept, and more of the directory after it. -/
def Emptied (maxListing : Nat) (path : List String) (directory : List RawEntry) (after : Option String) : Prop :=
  listDirectory maxListing path after directory = ([],true)

section Static

variable {maxListing : Nat} {path : List String} {directory : List RawEntry} {reads : Nat → List RawEntry}

private theorem reads_alike (distinct : (directory.map RawEntry.name).Nodup)
    (static : ∀ page, (reads page).Perm directory) (page : Nat) (after : Option String) :
    listDirectory maxListing path after (reads page) = listDirectory maxListing path after directory := by
  have same : byName (entriesOf (reads page)) = byName (entriesOf directory) := by
    refine byName_congr ((static page).filterMap _) (entriesOf_distinct ?_)
    exact ((static page).map RawEntry.name).nodup_iff.mpr distinct
  rw [listDirectory_page,listDirectory_page,same]

private def pending (path : List String) (directory : List RawEntry) (after : Option String) : List DirEntryInfo :=
  (SiftedPages.behind (fun entry : DirEntryInfo => bytesOf entry.name) (byName (entriesOf directory))
    (after.map bytesOf)).filterMap (listed path)

private theorem pagesFrom_collects (distinct : (directory.map RawEntry.name).Nodup)
    (static : ∀ page, (reads page).Perm directory) (entries : List DirEntryInfo) (left page : Nat)
    (after : Option String) : ∃ more truncated,
      pagesFrom (answers maxListing path reads) entries left page after = some (.entries (entries ++ more) truncated) ∧
      more <+: pending path directory after ∧ (truncated = false → more = pending path directory after) ∧
      ((∀ cursor, ¬Emptied maxListing path directory cursor) → (pending path directory after).length < left →
        truncated = false) := by
  induction left generalizing entries page after with
  | zero => exact ⟨[],true,by simp [pagesFrom],List.nil_prefix,nofun,fun _ short => absurd short (Nat.not_lt_zero _)⟩
  | succ left ih =>
    have ordered := byName_strict (entriesOf_distinct distinct)
    have read := listDirectory_page maxListing path after directory
    simp only [pagesFrom,answers,reads_alike distinct static]
    obtain ⟨⟨found,cut⟩,answered⟩ : ∃ answer, listDirectory maxListing path after directory = answer := ⟨_,rfl⟩
    rw [answered] at read ⊢
    cases cut with
    | false =>
      have whole : found = pending path directory after :=
        (congrArg Prod.fst read).trans (SiftedPages.page_last (congrArg Prod.snd read).symm)
      exact ⟨found,false,rfl,whole ▸ prefix_rfl,fun _ => whole,fun _ _ => rfl⟩
    | true =>
      cases ends : found.getLast? with
      | none =>
        cases getLast?_eq_none_iff.mp ends
        refine ⟨[],true,by simp,List.nil_prefix,nofun,fun never _ => absurd answered (never after)⟩
      | some last =>
        have split : pending path directory after = found ++ pending path directory (some last.name) := by
          have kept := congrArg (fun answer => answer.1.getLast?) read
          have next := SiftedPages.page_next ordered
            (fun entry shown => congrArg (fun info => bytesOf info.name) (listed_name shown).symm) (kept.symm.trans ends)
          rwa [← read] at next
        obtain ⟨more,truncated,ran,front,complete,capped⟩ := ih (entries ++ found) (page + 1) (some last.name)
        refine ⟨found ++ more,truncated,by simpa [ends] using ran,?_,fun whole => ?_,fun never short => ?_⟩
        · rw [split]
          exact (prefix_append_right_inj found).mpr front
        · rw [split,complete whole]
        · refine capped never ?_
          have grown : 0 < found.length := length_pos_of_mem (mem_of_getLast? ends)
          rw [split,length_append] at short
          omega

/-- Every page that comes back is a page of the directory; other calls may fail as they like. -/
def Honest (maxListing : Nat) (path : List String) (directory : List RawEntry)
    (ask : Nat → Option String → PageAnswer) : Prop :=
  ∀ page after entries truncated, ask page after = .listing entries truncated →
    ∃ found, found.Perm directory ∧ listDirectory maxListing path after found = (entries,truncated)

private theorem pagesFrom_honest {ask : Nat → Option String → PageAnswer}
    (distinct : (directory.map RawEntry.name).Nodup) (honest : Honest maxListing path directory ask)
    (entries : List DirEntryInfo) (left page : Nat) (after : Option String) {found : List DirEntryInfo} {truncated : Bool}
    (ran : pagesFrom ask entries left page after = some (.entries found truncated)) : ∃ more, found = entries ++ more ∧
      more <+: pending path directory after ∧ (truncated = false → more = pending path directory after) := by
  have stopped : ∃ more, entries = entries ++ more ∧ more <+: pending path directory after ∧
      (true = false → more = pending path directory after) :=
    ⟨[],(append_nil entries).symm,List.nil_prefix,nofun⟩
  induction left generalizing entries page after with
  | zero =>
    cases ran
    exact stopped
  | succ left ih =>
    rw [pagesFrom] at ran
    split at ran
    next =>
      split_ifs at ran
      · cases ran
      · cases ran
        exact stopped
    next => cases ran
    next listed cut answered =>
      obtain ⟨reading,perm,answer⟩ := honest page after listed cut answered
      rw [reads_alike distinct (fun _ => perm) 0 after] at answer
      have read := listDirectory_page maxListing path after directory
      rw [answer] at read
      cases cut with
      | false =>
        have whole : listed = pending path directory after :=
          (congrArg Prod.fst read).trans (SiftedPages.page_last (congrArg Prod.snd read).symm)
        cases ran
        exact ⟨listed,rfl,whole ▸ prefix_rfl,fun _ => whole⟩
      | true =>
        simp only [Bool.not_true,Bool.false_eq_true,if_false] at ran
        cases ends : listed.getLast? with
        | none =>
          rw [ends] at ran
          cases ran
          cases getLast?_eq_none_iff.mp ends
          exact ⟨[],rfl,List.nil_prefix,nofun⟩
        | some last =>
          rw [ends] at ran
          have split : pending path directory after = listed ++ pending path directory (some last.name) := by
            have kept := congrArg (fun answer => answer.1.getLast?) read
            have next := SiftedPages.page_next (byName_strict (entriesOf_distinct distinct))
              (fun entry shown => congrArg (fun info => bytesOf info.name) (listed_name shown).symm) (kept.symm.trans ends)
            rwa [← read] at next
          obtain ⟨more,joined,front,complete⟩ := ih (entries ++ listed) (page + 1) (some last.name) ran
            ⟨[],(append_nil _).symm,List.nil_prefix,nofun⟩
          refine ⟨listed ++ more,by rw [joined,append_assoc],?_,fun whole => ?_⟩
          · rw [split]
            exact (prefix_append_right_inj listed).mpr front
          · rw [split,complete whole]

theorem listing_honest {ask : Nat → Option String → PageAnswer} (distinct : (directory.map RawEntry.name).Nodup)
    (honest : Honest maxListing path directory ask) {maxPages : Nat} {found : List DirEntryInfo} {truncated : Bool}
    (ran : listing maxPages ask = some (.entries found truncated)) : (found.map DirEntryInfo.name).Nodup ∧
      (∀ entry ∈ found, entry ∈ addressable path directory) ∧
      (truncated = false → ∀ entry ∈ addressable path directory, entry ∈ found) := by
  obtain ⟨more,rfl,front,complete⟩ := pagesFrom_honest distinct honest [] maxPages 0 none ran
  have sorted : (pending path directory none).Perm (addressable path directory) :=
    (byName_perm (entriesOf directory)).filterMap (listed path)
  have names : ((addressable path directory).map DirEntryInfo.name).Nodup :=
    List.Nodup.sublist (listed_sublist path (entriesOf directory) |>.map _) (entriesOf_distinct distinct)
  refine ⟨?_,fun entry member => sorted.mem_iff.mp (front.subset member),fun whole entry member => ?_⟩
  · exact List.Nodup.sublist (front.sublist.map _) ((sorted.map DirEntryInfo.name).nodup_iff.mpr names)
  · rw [complete whole]
    exact sorted.mem_iff.mpr member

end Static

private def ledger : List RawEntry :=
  [⟨"a".toByteArray,.regularFile,1,0⟩,⟨"-b".toByteArray,.regularFile,2,0⟩]

private def fresh : List RawEntry :=
  [⟨".depsis".toByteArray,.directory,0,0⟩,⟨"a".toByteArray,.regularFile,1,0⟩]

private theorem fresh_emptied : Emptied 1 [] fresh none := by
  have sorted : byName (entriesOf fresh) = entriesOf fresh := mergeSort_of_pairwise (by decide +kernel)
  rw [Emptied,listDirectory,sorted]
  decide +kernel

end Depsis.Files

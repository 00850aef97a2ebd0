import Depsis.Foundation.Components
import Depsis.Worker.SmbAudit

/-! The fields of an audit line, and what the path functions make of joined components.
-/
namespace Depsis.Worker.SmbAudit
open Depsis.Foundation List

theorem marker_once : 's' ∉ MARKER.tail := by
  unfold MARKER
  decide

theorem afterFirst_line {before : List Char} (unmarked : ¬MARKER <:+: before) (rest : List Char) :
    afterFirst MARKER (before ++ (MARKER ++ rest)) = some rest := by
  have marked : Text.stripPrefix MARKER (MARKER ++ rest) = some rest := Text.stripPrefix_some.mpr rfl
  induction before with
  | nil =>
    rw [nil_append]
    cases whole : MARKER ++ rest with
    | nil => cases (append_eq_nil_iff.mp whole).1
    | cons first more =>
      rw [whole] at marked
      rw [afterFirst,marked]
  | cons first before ih =>
    have later := ih (fun inside => unmarked (inside.trans (suffix_cons first before).isInfix))
    have missed : Text.stripPrefix MARKER (first::before ++ (MARKER ++ rest)) = none := by
      cases found : Text.stripPrefix MARKER (first::before ++ (MARKER ++ rest)) with
      | none => rfl
      | some after =>
        have split := Text.stripPrefix_some.mp found
        rcases append_eq_append_iff.mp split with ⟨more,marker,_⟩ | ⟨more,inside,_⟩
        · cases more with
          | nil =>
            rw [append_nil] at marker
            exact absurd (marker ▸ infix_refl _) unmarked
          | cons character more =>
            have head : character = 's' := by
              rename_i back
              rw [cons_append] at back
              exact ((List.cons.inj back).1).symm
            have tail : 's' ∈ MARKER.tail := by
              rw [marker]
              simp [head]
            exact absurd tail marker_once
        · exact absurd ⟨[],more,inside.symm⟩ unmarked
    rw [cons_append] at missed ⊢
    rw [afterFirst,missed]
    exact later

theorem handled_barless : ∀ operation ∈ INTERESTING, '|' ∉ operation := by
  intro operation member
  unfold INTERESTING at member
  revert operation
  decide

theorem plain_characters (share : ShareName) {character : Char} (inside : character ∈ share.text) :
    character ≠ '|' ∧ character ≠ '/' := by
  have plain := all_eq_true.mp share.plain character inside
  constructor
  all_goals
    intro same
    rw [same] at plain
    revert plain
    decide

def directories (share : List Char) (files : List (List Char)) : List (List Char) :=
  (files.filterMap (fun file => parentOf file share)).map mirrored

theorem parseAuditLine_line (header : Header) {files : List (List Char)} (some' : files ≠ [])
    (filled : ∀ file ∈ files, file ≠ []) (barless : ∀ file ∈ files, '|' ∉ file) :
    parseAuditLine (header.line files) = ((directories header.share.text files).foldl (FirstSeen.add id) []).map
      (fun directory => ⟨header.share.text,directory,named header.user,named header.address⟩) := by
  have share : '|' ∉ header.share.text := fun inside => (plain_characters header.share inside).1 rfl
  have fields : (['|'].intercalate ([header.user,header.address,header.share.text,header.operation,"ok".toList] ++ files)).splitOn '|'
      = [header.user,header.address,header.share.text,header.operation,"ok".toList] ++ files := by
    apply splitOn_intercalate
    · intro field member
      rcases mem_append.mp member with front | back
      · simp only [mem_cons,not_mem_nil,or_false] at front
        rcases front with rfl | rfl | rfl | rfl | rfl
        · exact header.plainUser
        · exact header.plainAddress
        · exact share
        · exact handled_barless _ header.handled
        · decide
      · exact barless field back
    · exact cons_ne_nil _ _
  have kept : files.filter (fun name => name ≠ []) = files :=
    filter_eq_self.mpr (fun file member => decide_eq_true (filled file member))
  rw [parseAuditLine,Header.line,afterFirst_line header.unmarked,Option.map_some,fields]
  cases files with
  | nil => exact absurd rfl some'
  | cons first rest =>
    dsimp only [cons_append,nil_append]
    rw [if_neg header.share.filled,if_neg (by simp),if_neg (by simpa using header.handled),kept,if_neg (cons_ne_nil _ _)]
    rfl

theorem mem_parsed (header : Header) {files : List (List Char)} (some' : files ≠ [])
    (filled : ∀ file ∈ files, file ≠ []) (barless : ∀ file ∈ files, '|' ∉ file) (directory : List Char) :
    directory ∈ (parseAuditLine (header.line files)).map AuditEvent.directory ↔ directory ∈ directories header.share.text files := by
  rw [parseAuditLine_line header some' filled barless,map_map]
  have keys : directory ∈ ((directories header.share.text files).foldl (FirstSeen.add id) []).map id ↔
      directory ∈ ([] : List (List Char)).map id ∨ directory ∈ (directories header.share.text files).map id := FirstSeen.keys_group
  rw [map_id,map_id] at keys
  simpa [Function.comp_def] using keys

theorem trimSlashes_word (front : List Char) {word : List Char} (filled : word ≠ []) (slashless : '/' ∉ word) :
    trimSlashes (front ++ word) = front ++ word := by
  have last : (front ++ word).reverse.dropWhile (fun character => decide (character = '/')) = (front ++ word).reverse := by
    rw [reverse_append]
    cases back : word.reverse with
    | nil => exact absurd (reverse_eq_nil_iff.mp back) filled
    | cons character rest =>
      have other : character ≠ '/' := by
        intro same
        apply slashless
        rw [← mem_reverse,back,same]
        exact mem_cons_self
      rw [cons_append,dropWhile_cons_of_neg (by simpa using other)]
  rw [trimSlashes,last,reverse_reverse]

theorem joined_concat (parts : List (List Char)) (last : List Char) :
    joined (parts ++ [last]) = if parts = [] then last else joined parts ++ '/' :: last := by
  split
  · next empty =>
    rw [empty]
    exact intercalate_singleton
  · next some' =>
    rw [joined,Components.intercalate_append '/' some' (cons_ne_nil _ _),intercalate_singleton]
    rfl

variable {parts : List (List Char)}

theorem folderOf_joined (slashless : ∀ part ∈ parts, '/' ∉ part) :
    folderOf (joined parts) = joined parts.dropLast := by
  rcases eq_nil_or_concat parts with rfl | ⟨front,last,rfl⟩
  · rfl
  · have lastless : '/' ∉ last := slashless last (by simp)
    rw [concat_eq_append,dropLast_concat,joined_concat]
    split
    · next empty =>
      rw [empty,folderOf,Text.rsplitOnce,if_neg lastless]
      rfl
    · rw [folderOf,Text.rsplitOnce_append _ lastless]

theorem trimSlashes_joined (front : List Char) (some' : parts ≠ [])
    (filled : ∀ part ∈ parts, part ≠ []) (slashless : ∀ part ∈ parts, '/' ∉ part) :
    trimSlashes (front ++ joined parts) = front ++ joined parts := by
  rcases eq_nil_or_concat parts with rfl | ⟨before,last,rfl⟩
  · exact absurd rfl some'
  · have lastFilled : last ≠ [] := filled last (by simp)
    have lastless : '/' ∉ last := slashless last (by simp)
    rw [concat_eq_append,joined_concat]
    split
    · exact trimSlashes_word front lastFilled lastless
    · have grouped : front ++ (joined before ++ '/' :: last) = (front ++ joined before ++ ['/']) ++ last := by simp
      rw [grouped]
      exact trimSlashes_word _ lastFilled lastless

theorem components_joined (filled : ∀ part ∈ parts, part ≠ [])
    (slashless : ∀ part ∈ parts, '/' ∉ part) : components (joined parts) = parts := by
  by_cases some' : parts = []
  · rw [some']
    rfl
  · rw [components,joined,splitOn_intercalate '/' slashless some']
    exact filter_eq_self.mpr (fun part member => decide_eq_true (filled part member))

theorem components_slash (path : List Char) : components ('/' :: path) = components path := by
  have cut := splitOn_append_cons_self (a := '/') ([] : List Char) path
  rw [nil_append] at cut
  rw [components,components,cut,splitOn_nil]
  rfl

theorem cons_inj_of_slashless {first second front back : List Char} (left : '/' ∉ first) (right : '/' ∉ second)
    (same : first ++ '/' :: front = second ++ '/' :: back) : first = second ∧ front = back := by
  have parts := congrArg (List.splitOn '/') same
  rw [splitOn_append_cons_self_of_not_mem left,splitOn_append_cons_self_of_not_mem right] at parts
  have equal := (List.cons.inj parts).1
  rw [equal] at same
  exact ⟨equal,(List.cons.inj (append_cancel_left same)).2⟩

theorem slash_bin : '/' ∉ BIN := by
  unfold BIN
  decide

theorem mirrored_joined (slashless : ∀ part ∈ parts, '/' ∉ part) :
    mirrored (joined parts) = joined (unbinned parts) := by
  cases parts with
  | nil =>
    change mirrored [] = []
    unfold mirrored BIN
    decide
  | cons first rest =>
    have firstless : '/' ∉ first := slashless first mem_cons_self
    cases rest with
    | nil =>
      rw [joined,intercalate_singleton,mirrored]
      by_cases bin : first = BIN
      · rw [if_pos bin,unbinned,bin,head?_cons,if_pos rfl]
        rfl
      · have kept : Text.stripPrefix (BIN ++ ['/']) first = none := by
          cases found : Text.stripPrefix (BIN ++ ['/']) first with
          | none => rfl
          | some after =>
            have split := Text.stripPrefix_some.mp found
            exact absurd (by rw [split]; simp) firstless
        rw [if_neg bin,kept,unbinned,head?_cons,if_neg (fun same => bin (Option.some.inj same))]
        exact intercalate_singleton.symm
    | cons second rest =>
      have whole : joined (first::second::rest) = first ++ '/' :: joined (second::rest) := by
        rw [joined,intercalate_cons_cons,append_assoc]
        rfl
      have slash : '/' ∈ joined (first::second::rest) := by rw [whole]; simp
      have notBin : joined (first::second::rest) ≠ BIN := fun same => slash_bin (same ▸ slash)
      rw [mirrored,if_neg notBin]
      by_cases bin : first = BIN
      · have stripped : Text.stripPrefix (BIN ++ ['/']) (joined (first::second::rest)) = some (joined (second::rest)) := by
          apply Text.stripPrefix_some.mpr
          rw [whole,bin,append_assoc]
          rfl
        rw [stripped,unbinned,bin,head?_cons,if_pos rfl]
        rfl
      · have kept : Text.stripPrefix (BIN ++ ['/']) (joined (first::second::rest)) = none := by
          cases found : Text.stripPrefix (BIN ++ ['/']) (joined (first::second::rest)) with
          | none => rfl
          | some after =>
            have split := Text.stripPrefix_some.mp found
            rw [whole,append_assoc] at split
            exact absurd (cons_inj_of_slashless firstless slash_bin split).1 bin
        rw [kept,unbinned,head?_cons,if_neg (fun same => bin (Option.some.inj same))]
        rfl

end Depsis.Worker.SmbAudit

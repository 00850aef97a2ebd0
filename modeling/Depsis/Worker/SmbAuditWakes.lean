import Depsis.Worker.SmbAuditPaths

/-! Which directories an audit line wakes: the right ones, except for absolute paths in a share that
is named like a part of the root, and for paths elsewhere that name the share.
-/
namespace Depsis.Worker.SmbAudit
open Depsis.Foundation List

theorem share_slashless (share : ShareName) : '/' ∉ share.text := fun inside => (plain_characters share inside).2 rfl

def Inside.parts (inside : Inside) : List (List Char) := inside.path.map Component.text

theorem parts_some (inside : Inside) : inside.parts ≠ [] := fun none' => inside.filled (map_eq_nil_iff.mp none')

theorem parts_filled (inside : Inside) : ∀ part ∈ inside.parts, part ≠ [] := by
  intro part member
  obtain ⟨component,_,rfl⟩ := mem_map.mp member
  exact component.filled

theorem parts_slashless (inside : Inside) : ∀ part ∈ inside.parts, '/' ∉ part := by
  intro part member
  obtain ⟨component,_,rfl⟩ := mem_map.mp member
  exact component.slashless

def strayRoot (share : List Char) : List (List Char) :=
  if share = "srv".toList then ["depsis".toList,share] else if share = "depsis".toList then [share] else []

def Inside.stray (inside : Inside) (share : ShareName) : List (List Char) :=
  match inside.spelling with
  | .absolute => strayRoot share.text
  | _ => []

theorem root_dropped (share : List Char) (parts : List (List Char)) :
    (ROOT ++ share::parts).dropWhile (fun part => decide (part ≠ share)) = share::(strayRoot share ++ parts) := by
  unfold ROOT strayRoot
  by_cases first : share = "srv".toList
  · rw [if_pos first,first]
    rfl
  · have srv : decide ("srv".toList ≠ share) = true := decide_eq_true (Ne.symm first)
    rw [if_neg first,cons_append,dropWhile_cons_of_pos (p := fun part => decide (part ≠ share)) srv]
    by_cases second : share = "depsis".toList
    · rw [if_pos second,second]
      rfl
    · have depsis : decide ("depsis".toList ≠ share) = true := decide_eq_true (Ne.symm second)
      rw [if_neg second,cons_append,nil_append,
        dropWhile_cons_of_pos (p := fun part => decide (part ≠ share)) depsis,dropWhile_cons_of_neg (by simp),
        nil_append]

theorem relative_plain (inside : Inside) :
    Text.stripPrefix ['.','/'] (joined inside.parts) = none ∧ (joined inside.parts).head? ≠ some '/' := by
  obtain ⟨spelling,path,filled⟩ := inside
  cases path with
  | nil => exact absurd rfl filled
  | cons first rest =>
    obtain ⟨character,more,spelled⟩ := exists_cons_of_ne_nil first.filled
    have other : character ≠ '/' := by
      intro same
      apply first.slashless
      rw [spelled,same]
      exact mem_cons_self
    obtain ⟨tail,whole⟩ : ∃ tail, joined ((first::rest).map Component.text) = first.text ++ tail := by
      rw [map_cons]
      cases rest.map Component.text with
      | nil => exact ⟨[],by rw [joined,intercalate_singleton,append_nil]⟩
      | cons second others => exact ⟨_,by rw [joined,intercalate_cons_cons,append_assoc]⟩
    constructor
    · cases found : Text.stripPrefix ['.','/'] (joined ((first::rest).map Component.text)) with
      | none => exact found
      | some after =>
        have split := Text.stripPrefix_some.mp found
        rw [map_cons] at split
        cases back : rest.map Component.text with
        | nil =>
          rw [back,joined,intercalate_singleton] at split
          exact absurd (by rw [split]; simp) first.slashless
        | cons second others =>
          rw [back,joined,intercalate_cons_cons,append_assoc] at split
          have dot : '/' ∉ ['.'] := by decide
          exact absurd (cons_inj_of_slashless first.slashless dot split).1 first.notDot
    · change (joined ((first::rest).map Component.text)).head? ≠ some '/'
      rw [whole,spelled]
      intro same
      exact other (Option.some.inj same)

theorem parentOf_clean {file clean : List Char} (share : List Char)
    (cleaned : trimSlashes ((Text.stripPrefix ['.','/'] file).getD file) = clean) :
    parentOf file share = (if clean.head? = some '/' then withoutShareRoot clean share else some clean).map folderOf := by
  subst cleaned
  rfl

theorem root_plain : ∀ part ∈ ROOT, part ≠ [] ∧ '/' ∉ part ∧ '|' ∉ part := by
  unfold ROOT
  decide

theorem rooted_filled (inside : Inside) (share : ShareName) : ∀ part ∈ ROOT ++ share.text::inside.parts, part ≠ [] := by
  intro part member
  rcases mem_append.mp member with front | back
  · exact (root_plain part front).1
  · rcases mem_cons.mp back with rfl | back
    · exact share.filled
    · exact parts_filled inside part back

theorem rooted_slashless (inside : Inside) (share : ShareName) : ∀ part ∈ ROOT ++ share.text::inside.parts, '/' ∉ part := by
  intro part member
  rcases mem_append.mp member with front | back
  · exact (root_plain part front).2.1
  · rcases mem_cons.mp back with rfl | back
    · exact share_slashless share
    · exact parts_slashless inside part back

theorem folder_relative (inside : Inside) (share : List Char) (file : List Char)
    (clean : (Text.stripPrefix ['.','/'] file).getD file = joined inside.parts) :
    parentOf file share = some (joined inside.parts.dropLast) := by
  have kept := trimSlashes_joined [] (parts_some inside) (parts_filled inside) (parts_slashless inside)
  rw [nil_append] at kept
  rw [← clean] at kept
  rw [parentOf_clean share (kept.trans clean),if_neg (relative_plain inside).2,Option.map_some,folderOf_joined (parts_slashless inside)]

theorem parentOf_inside (inside : Inside) (share : ShareName) :
    parentOf (inside.file share) share.text = some (joined (inside.stray share ++ inside.parts.dropLast)) := by
  cases spelling : inside.spelling with
  | relative =>
    have file : inside.file share = joined inside.parts := by rw [Inside.file,spelling]; rfl
    have stray : inside.stray share = [] := by rw [Inside.stray,spelling]
    rw [file,stray,nil_append]
    exact folder_relative inside share.text _ (by rw [(relative_plain inside).1]; rfl)
  | dotted =>
    have file : inside.file share = '.' :: '/' :: joined inside.parts := by rw [Inside.file,spelling]; rfl
    have stray : inside.stray share = [] := by rw [Inside.stray,spelling]
    have stripped : Text.stripPrefix ['.','/'] ('.' :: '/' :: joined inside.parts) = some (joined inside.parts) :=
      Text.stripPrefix_some.mpr rfl
    rw [file,stray,nil_append]
    exact folder_relative inside share.text _ (by rw [stripped]; rfl)
  | absolute =>
    have file : inside.file share = '/' :: joined (ROOT ++ share.text::inside.parts) := by rw [Inside.file,spelling]; rfl
    have stray : inside.stray share = strayRoot share.text := by rw [Inside.stray,spelling]
    have kept := trimSlashes_joined ['/'] (by simp) (rooted_filled inside share) (rooted_slashless inside share)
    have unstripped : Text.stripPrefix ['.','/'] ('/' :: joined (ROOT ++ share.text::inside.parts)) = none := rfl
    have left : ∀ part ∈ strayRoot share.text ++ inside.parts, '/' ∉ part := by
      intro part member
      have suffix := root_dropped share.text inside.parts
      apply rooted_slashless inside share part
      apply dropWhile_subset (fun part => decide (part ≠ share.text))
      rw [suffix]
      exact mem_cons_of_mem _ member
    rw [singleton_append] at kept
    have cleaned : trimSlashes ((Text.stripPrefix ['.','/'] (inside.file share)).getD (inside.file share)) =
        '/' :: joined (ROOT ++ share.text::inside.parts) := by
      rw [file,unstripped,Option.getD_none,kept]
    rw [stray,parentOf_clean share.text cleaned,if_pos head?_cons,withoutShareRoot,components_slash,
      components_joined (rooted_filled inside share) (rooted_slashless inside share),root_dropped]
    dsimp only
    rw [Option.map_some,folderOf_joined left,dropLast_append_of_ne_nil (parts_some inside)]

theorem joined_barless {parts : List (List Char)} (barless : ∀ part ∈ parts, '|' ∉ part) : '|' ∉ joined parts := by
  induction parts with
  | nil => exact not_mem_nil
  | cons first rest ih =>
    have tail := ih (fun part member => barless part (mem_cons_of_mem _ member))
    cases rest with
    | nil =>
      rw [joined,intercalate_singleton]
      exact barless first mem_cons_self
    | cons second rest =>
      rw [joined,intercalate_cons_cons]
      intro inside
      rcases mem_append.mp inside with front | back
      · rcases mem_append.mp front with here | slash
        · exact barless first mem_cons_self here
        · cases mem_singleton.mp slash
      · exact tail back

theorem parts_barless (inside : Inside) : ∀ part ∈ inside.parts, '|' ∉ part := by
  intro part member
  obtain ⟨component,_,rfl⟩ := mem_map.mp member
  exact component.barless

theorem file_barless (inside : Inside) (share : ShareName) : '|' ∉ inside.file share := by
  have path := joined_barless (parts_barless inside)
  unfold Inside.file
  split
  · have whole : '|' ∉ joined (ROOT ++ share.text::inside.parts) := by
      apply joined_barless
      intro part member
      rcases mem_append.mp member with front | back
      · exact (root_plain part front).2.2
      · rcases mem_cons.mp back with rfl | back
        · exact fun bar => (plain_characters share bar).1 rfl
        · exact parts_barless inside part back
    intro bar
    rcases mem_cons.mp bar with same | bar
    · cases same
    · exact whole bar
  · exact path
  · intro bar
    rcases mem_cons.mp bar with same | bar
    · cases same
    · rcases mem_cons.mp bar with same | bar
      · cases same
      · exact path bar

theorem joined_filled (inside : Inside) : joined inside.parts ≠ [] := by
  rcases eq_nil_or_concat inside.parts with none' | ⟨front,last,whole⟩
  · exact absurd none' (parts_some inside)
  · have filled : last ≠ [] := parts_filled inside last (by rw [whole]; simp)
    rw [whole,concat_eq_append,joined_concat]
    split
    · exact filled
    · simp

theorem file_filled (inside : Inside) (share : ShareName) : inside.file share ≠ [] := by
  unfold Inside.file
  split
  · exact cons_ne_nil _ _
  · exact joined_filled inside
  · exact cons_ne_nil _ _

def Inside.woken (inside : Inside) (share : ShareName) : List Char :=
  joined (unbinned (inside.stray share ++ inside.parts.dropLast))

theorem stray_slashless (inside : Inside) (share : ShareName) : ∀ part ∈ inside.stray share, '/' ∉ part := by
  intro part member
  unfold Inside.stray strayRoot at member
  have depsis : '/' ∉ "depsis".toList := by decide
  split at member
  · split at member
    · rcases mem_cons.mp member with rfl | member
      · exact depsis
      · rw [mem_singleton.mp member]
        exact share_slashless share
    · split at member
      · rw [mem_singleton.mp member]
        exact share_slashless share
      · cases member
  · cases member

theorem directories_inside (share : ShareName) (paths : List Inside) :
    directories share.text (paths.map (fun path => path.file share)) = paths.map (fun path => path.woken share) := by
  induction paths with
  | nil => rfl
  | cons inside rest ih =>
    have slashless : ∀ part ∈ inside.stray share ++ inside.parts.dropLast, '/' ∉ part := by
      intro part member
      rcases mem_append.mp member with front | back
      · exact stray_slashless inside share part front
      · exact parts_slashless inside part (dropLast_subset _ back)
    rw [directories] at ih ⊢
    rw [map_cons,filterMap_cons_some (f := fun file => parentOf file share.text) (parentOf_inside inside share),map_cons,mirrored_joined slashless,ih]
    rfl

theorem woken_right {inside : Inside} {share : ShareName} (none' : inside.stray share = []) :
    inside.woken share = inside.directory := by
  rw [Inside.woken,none',nil_append]
  rfl

theorem length_unbinned (parts : List (List Char)) : (joined (unbinned parts)).length ≤ (joined parts).length := by
  unfold unbinned
  split
  · cases parts with
    | nil => exact Nat.le_refl _
    | cons first rest =>
      cases rest with
      | nil => exact Nat.zero_le _
      | cons second rest =>
        rw [joined,joined,intercalate_cons_cons,tail_cons,length_append]
        omega
  · exact Nat.le_refl _

theorem woken_longer {inside : Inside} {share : ShareName} (some' : inside.stray share ≠ []) :
    inside.directory.length < (inside.woken share).length := by
  obtain ⟨rest,stray⟩ : ∃ rest, inside.stray share = "depsis".toList::rest := by
    unfold Inside.stray strayRoot at some' ⊢
    split
    · split
      · exact ⟨_,rfl⟩
      · split
        · next same => exact ⟨[],by rw [same]⟩
        · next absolute first second =>
          rw [absolute] at some'
          dsimp only at some'
          rw [if_neg first,if_neg second] at some'
          exact absurd rfl some'
    · next other =>
      split at some'
      · next absolute => exact absurd absolute other
      · exact absurd rfl some'
  have unmirrored : unbinned (inside.stray share ++ inside.parts.dropLast) = inside.stray share ++ inside.parts.dropLast := by
    rw [unbinned,stray,cons_append,head?_cons,if_neg]
    intro same
    have bin := Option.some.inj same
    unfold BIN at bin
    revert bin
    decide
  have positive : 0 < (joined (inside.stray share)).length := by
    rw [stray]
    cases rest with
    | nil =>
      rw [joined,intercalate_singleton]
      decide
    | cons second rest =>
      rw [joined,intercalate_cons_cons,length_append,length_append]
      exact Nat.lt_of_lt_of_le (show 0 < ['/'].length by decide) (by omega)
  have shorter := length_unbinned inside.parts.dropLast
  have wanted : inside.directory = joined (unbinned inside.parts.dropLast) := rfl
  rw [Inside.woken,unmirrored,wanted]
  by_cases top : inside.parts.dropLast = []
  · rw [top,append_nil]
    exact positive
  · have whole : joined (inside.stray share ++ inside.parts.dropLast) =
        joined (inside.stray share) ++ '/' :: joined inside.parts.dropLast := Components.intercalate_append '/' some' top
    rw [whole,length_append,length_cons]
    omega

theorem mem_woken (header : Header) {paths : List Inside} (some' : paths ≠ []) (directory : List Char) :
    directory ∈ (parseAuditLine (header.line (paths.map (fun path => path.file header.share)))).map AuditEvent.directory ↔
      ∃ path ∈ paths, path.woken header.share = directory := by
  rw [mem_parsed header (fun none' => some' (map_eq_nil_iff.mp none')),directories_inside,mem_map]
  · intro file member
    obtain ⟨path,_,rfl⟩ := mem_map.mp member
    exact file_filled path header.share
  · intro file member
    obtain ⟨path,_,rfl⟩ := mem_map.mp member
    exact file_barless path header.share

theorem wakes_of (header : Header) {paths : List Inside} (some' : paths ≠ [])
    (right : ∀ directory, (∃ path ∈ paths, path.woken header.share = directory) ↔ ∃ path ∈ paths, path.directory = directory) :
    Wakes header paths := by
  have written : paths.map (fun path => path.file header.share) ≠ [] := fun none' => some' (map_eq_nil_iff.mp none')
  have parsed := parseAuditLine_line header written
    (fun file member => by
      obtain ⟨path,_,rfl⟩ := mem_map.mp member
      exact file_filled path header.share)
    (fun file member => by
      obtain ⟨path,_,rfl⟩ := mem_map.mp member
      exact file_barless path header.share)
  constructor
  · intro directory
    rw [mem_woken header some']
    exact right directory
  · rw [parsed,map_map]
    have distinct : (((directories header.share.text (paths.map (fun path => path.file header.share))).foldl
        (FirstSeen.add id) []).map id).Nodup := FirstSeen.nodup_group nodup_nil
    rw [map_id] at distinct
    simpa [Function.comp_def] using distinct
  · intro event member
    rw [parsed] at member
    obtain ⟨directory,_,rfl⟩ := mem_map.mp member
    exact ⟨rfl,rfl,rfl⟩

theorem stray_empty (inside : Inside) (share : ShareName) :
    inside.stray share = [] ↔
      (inside.spelling = .absolute → share.text ≠ "srv".toList ∧ share.text ≠ "depsis".toList) := by
  unfold Inside.stray strayRoot
  constructor
  · intro none' absolute
    rw [absolute] at none'
    dsimp only at none'
    constructor
    · intro same
      rw [if_pos same] at none'
      cases none'
    · intro same
      rw [if_neg (by rw [same]; decide),if_pos same] at none'
      cases none'
  · intro named
    split
    · next absolute =>
      rw [if_neg (named absolute).1,if_neg (named absolute).2]
    · rfl

theorem wakes_iff_unmistaken (header : Header) (first : Inside) (second : Option Inside) :
    Wakes header (first::second.toList) ↔ ∀ path ∈ first::second.toList, path.stray header.share = [] := by
  constructor
  · intro wakes
    have right : ∀ directory, (∃ path ∈ first::second.toList, path.woken header.share = directory) ↔
        ∃ path ∈ first::second.toList, path.directory = directory := by
      intro directory
      rw [← mem_woken header (cons_ne_nil _ _)]
      exact wakes.directories directory
    have longer : ∀ path : Inside, path.directory.length ≤ (path.woken header.share).length ∧
        (path.stray header.share ≠ [] → path.directory.length < (path.woken header.share).length) := by
      intro path
      by_cases none' : path.stray header.share = []
      · exact ⟨Nat.le_of_eq (by rw [woken_right none']),fun some' => absurd none' some'⟩
      · exact ⟨Nat.le_of_lt (woken_longer none'),woken_longer⟩
    cases second with
    | none =>
      intro path member
      rw [Option.toList_none,mem_singleton] at member
      subst member
      by_contra some'
      obtain ⟨other,member,same⟩ := (right path.directory).mpr ⟨path,mem_cons_self,rfl⟩
      rw [Option.toList_none,mem_singleton] at member
      have strictly := (longer path).2 some'
      rw [member] at same
      rw [same] at strictly
      exact Nat.lt_irrefl _ strictly
    | some second =>
      -- Whichever end is mistaken, the other would have to stand for both.
      have mistaken : ∀ path other : Inside, (∀ each, each ∈ first::(some second).toList ↔ each = path ∨ each = other) →
          path.stray header.share = [] := by
        intro path other ends
        by_contra some'
        have strictly := (longer path).2 some'
        have atMost := (longer other).1
        obtain ⟨one,oneMember,oneSame⟩ := (right path.directory).mpr ⟨path,(ends path).mpr (.inl rfl),rfl⟩
        obtain ⟨two,twoMember,twoSame⟩ := (right (path.woken header.share)).mp ⟨path,(ends path).mpr (.inl rfl),rfl⟩
        rcases (ends one).mp oneMember with rfl | rfl
        · rw [oneSame] at strictly
          exact Nat.lt_irrefl _ strictly
        · rcases (ends two).mp twoMember with rfl | rfl
          · rw [← twoSame] at strictly
            exact Nat.lt_irrefl _ strictly
          · rw [← twoSame] at strictly
            rw [oneSame] at atMost
            omega
      intro path member
      have ends : path = first ∨ path = second := by simpa using member
      rcases ends with rfl | rfl
      · exact mistaken path second (fun each => by simp)
      · exact mistaken path first (fun each => by simp [or_comm])
  · intro none'
    apply wakes_of header (cons_ne_nil _ _)
    intro directory
    constructor
    · intro found
      obtain ⟨path,member,same⟩ := found
      exact ⟨path,member,(woken_right (none' path member)).symm.trans same⟩
    · intro found
      obtain ⟨path,member,same⟩ := found
      exact ⟨path,member,(woken_right (none' path member)).trans same⟩

theorem components_trailing (path : List Char) (slashes : List Char) (all : ∀ character ∈ slashes, character = '/') :
    components (path ++ slashes) = components path := by
  induction slashes generalizing path with
  | nil => rw [append_nil]
  | cons slash rest ih =>
    have same := all slash mem_cons_self
    have cut := splitOn_append_cons_self (a := '/') path ([] : List Char)
    have one : components (path ++ ['/']) = components path := by
      rw [components,cut,filter_append,splitOn_nil]
      exact append_nil _
    rw [same,show path ++ '/' :: rest = (path ++ ['/']) ++ rest by simp,
      ih (path ++ ['/']) (fun character member => all character (mem_cons_of_mem _ member)),one]

theorem trimSlashes_split (path : List Char) :
    ∃ slashes, path = trimSlashes path ++ slashes ∧ ∀ character ∈ slashes, character = '/' := by
  refine ⟨(path.reverse.takeWhile (fun character => decide (character = '/'))).reverse,?_,?_⟩
  · rw [trimSlashes,← reverse_append,takeWhile_append_dropWhile,reverse_reverse]
  · intro character member
    have holds := mem_takeWhile_imp (mem_reverse.mp member)
    exact of_decide_eq_true holds

theorem trimSlashes_nil (path : List Char) : trimSlashes path = [] ↔ ∀ character ∈ path, character = '/' := by
  rw [trimSlashes,reverse_eq_nil_iff,dropWhile_eq_nil_iff]
  simp

theorem parentOf_foreign {share : ShareName} (foreign : Foreign share) :
    parentOf foreign.file share.text = none ↔
      (∃ character ∈ foreign.file, character ≠ '/') ∧ share.text ∉ components foreign.file := by
  obtain ⟨rest,spelled⟩ : ∃ rest, foreign.file = '/' :: rest := by
    have absolute := foreign.absolute
    cases file : foreign.file with
    | nil =>
      rw [file] at absolute
      cases absolute
    | cons first rest =>
      rw [file,head?_cons] at absolute
      exact ⟨rest,by rw [Option.some.inj absolute]⟩
  have cleaned : trimSlashes ((Text.stripPrefix ['.','/'] foreign.file).getD foreign.file) = trimSlashes foreign.file := by
    rw [spelled]
    rfl
  obtain ⟨slashes,split,all⟩ := trimSlashes_split foreign.file
  have kept : components (trimSlashes foreign.file) = components foreign.file := by
    rw [← components_trailing (trimSlashes foreign.file) slashes all,← split]
  rw [parentOf_clean share.text cleaned]
  by_cases bare : trimSlashes foreign.file = []
  · rw [bare,head?_nil,if_neg (by simp)]
    constructor
    · intro none'
      cases none'
    · intro holds
      obtain ⟨⟨character,member,other⟩,_⟩ := holds
      exact absurd ((trimSlashes_nil _).mp bare character member) other
  · have head : (trimSlashes foreign.file).head? = some '/' := by
      rw [spelled] at split bare ⊢
      cases front : trimSlashes ('/' :: rest) with
      | nil => exact absurd front bare
      | cons first more =>
        rw [front,cons_append] at split
        rw [head?_cons,(List.cons.inj split).1]
    have written : ∃ character ∈ foreign.file, character ≠ '/' := by
      by_contra none'
      apply bare
      rw [trimSlashes_nil]
      intro character member
      by_contra other
      exact none' ⟨character,member,other⟩
    rw [if_pos head,Option.map_eq_none_iff,withoutShareRoot,kept]
    constructor
    · intro none'
      refine ⟨written,?_⟩
      intro member
      split at none'
      · next empty =>
        have all := dropWhile_eq_nil_iff.mp empty share.text member
        simp at all
      · cases none'
    · intro holds
      have empty : (components foreign.file).dropWhile (fun part => decide (part ≠ share.text)) = [] := by
        rw [dropWhile_eq_nil_iff]
        intro part member
        exact decide_eq_true (fun same => holds.2 (same ▸ member))
      rw [empty]

theorem silent_iff (header : Header) {paths : List (Foreign header.share)} (some' : paths ≠ []) :
    parseAuditLine (header.line (paths.map Foreign.file)) = [] ↔
      ∀ path ∈ paths, (∃ character ∈ path.file, character ≠ '/') ∧ header.share.text ∉ components path.file := by
  have filled : ∀ file ∈ paths.map Foreign.file, file ≠ [] := by
    intro file member
    obtain ⟨path,_,rfl⟩ := mem_map.mp member
    intro empty
    have absolute := path.absolute
    rw [empty] at absolute
    cases absolute
  have barless : ∀ file ∈ paths.map Foreign.file, '|' ∉ file := by
    intro file member
    obtain ⟨path,_,rfl⟩ := mem_map.mp member
    exact path.barless
  have members := mem_parsed header (fun none' => some' (map_eq_nil_iff.mp none')) filled barless
  constructor
  · intro silent path member
    rw [← parentOf_foreign path]
    cases found : parentOf path.file header.share.text with
    | none => rfl
    | some folder =>
      have inside : mirrored folder ∈ directories header.share.text (paths.map Foreign.file) :=
        mem_map_of_mem (mem_filterMap.mpr ⟨path.file,mem_map_of_mem member,found⟩)
      have woken := (members (mirrored folder)).mpr inside
      rw [silent] at woken
      cases woken
  · intro none'
    have empty : directories header.share.text (paths.map Foreign.file) = [] := by
      rw [directories,map_eq_nil_iff,filterMap_eq_nil_iff]
      intro file member
      obtain ⟨path,inside,rfl⟩ := mem_map.mp member
      exact (parentOf_foreign path).mpr (none' path inside)
    rw [parseAuditLine_line header (fun none' => some' (map_eq_nil_iff.mp none')) filled barless,empty]
    rfl

/-- A line wakes the right directories unless an absolute path lies in a share that is named like a part of the
root; a line with paths elsewhere wakes nothing unless one of them is the root or names the share.
-/
theorem audit_line_directories (header : Header) :
    (∀ (first : Inside) (second : Option Inside), Wakes header (first::second.toList) ↔
      ∀ path ∈ first::second.toList, path.spelling = .absolute →
        header.share.text ≠ "srv".toList ∧ header.share.text ≠ "depsis".toList) ∧
    ∀ (first : Foreign header.share) (second : Option (Foreign header.share)),
      parseAuditLine (header.line ((first::second.toList).map Foreign.file)) = [] ↔
        ∀ path ∈ first::second.toList, (∃ character ∈ path.file, character ≠ '/') ∧ header.share.text ∉ components path.file := by
  constructor
  · intro first second
    rw [wakes_iff_unmistaken]
    constructor
    · intro none' path member
      exact (stray_empty path header.share).mp (none' path member)
    · intro named path member
      exact (stray_empty path header.share).mpr (named path member)
  · intro first second
    exact silent_iff header (cons_ne_nil _ _)

def srvHeader : Header where
  before := []
  user := ['a']
  address := ['b']
  share := ⟨['s','r','v'],by decide,by decide,by decide,by decide⟩
  operation := ['c','l','o','s','e']
  unmarked := by
    unfold MARKER
    decide
  plainUser := by decide
  plainAddress := by decide
  handled := by
    unfold INTERESTING
    decide

def srvFile : Inside := ⟨.absolute,[⟨['x'],by decide,by decide,by decide,by decide,by decide⟩],cons_ne_nil _ _⟩

def elsewhere : Foreign srvHeader.share where
  file := ['/','x','/','s','r','v','/','y']
  absolute := rfl
  barless := by decide
  outside := by
    unfold ROOT
    decide

/-- The file wakes a directory that does not exist, and so does the file of another tree. -/
theorem srv_mistaken : ¬Wakes srvHeader [srvFile] ∧ parseAuditLine (srvHeader.line [elsewhere.file]) ≠ [] := by
  constructor
  · intro wakes
    have none' := (stray_empty srvFile srvHeader.share).mp
      ((wakes_iff_unmistaken srvHeader srvFile none).mp wakes srvFile mem_cons_self)
    exact absurd rfl (none' rfl).1
  · intro silent
    have paths : [elsewhere] ≠ [] := cons_ne_nil _ _
    have named := (silent_iff srvHeader paths).mp silent elsewhere mem_cons_self
    exact absurd (show srvHeader.share.text ∈ components elsewhere.file by decide +kernel) named.2

end Depsis.Worker.SmbAudit

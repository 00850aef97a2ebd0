import Depsis.Foundation.SmbConf
import Depsis.Shares.Samba

/-! The generated file read back under the grammar of `smb.conf`: when every share is
one section that says what was asked for it.
-/
namespace Depsis.Shares

open Depsis.Agent Depsis.Foundation Depsis.Foundation.SmbConf List

def setting (key value : String) : Setting := ⟨key.toList,value.toList⟩

def accessSettings : List Setting :=
  [setting "guest ok" "no",setting "create mask" "0770",setting "directory mask" "0770",setting "inherit acls" "yes"]

def auditSettings : List Setting :=
  [setting "vfs objects" "recycle full_audit",
    setting "recycle:repository" "!DEPSIS Çöp Kutusu",
    setting "recycle:keeptree" "yes",
    setting "recycle:versions" "no",
    setting "recycle:touch" "no",
    setting "recycle:touch_mtime" "no",
    setting "recycle:directory_mode" "0770",
    setting "recycle:subdir_mode" "0770",
    setting "recycle:exclude_dir" ".depsis/!DEPSIS Çöp Kutusu",
    setting "full_audit:prefix" "%u|%I|%S",
    setting "full_audit:success" "create_file renameat unlinkat mkdirat close ftruncate linkat symlinkat",
    setting "full_audit:failure" "none",
    setting "full_audit:facility" "local5",
    setting "full_audit:priority" "notice",
    setting "veto files" "/.depsis/.depsis-keep/",
    setting "delete veto files" "no"]

def Section.userSettings (share : Section) : List Setting :=
  if share.validUsers = [] then [] else [setting "valid users" (" ".intercalate share.validUsers)]

def Section.around (share : Section) (placed : List Setting) : SmbConf.Section :=
  ⟨share.name.toList,setting "comment" "DEPSIS share"::(placed ++
    (setting "read only" (if share.readOnly then "yes" else "no")::
      (accessSettings ++ (share.userSettings ++ auditSettings))))⟩

def Section.asked (share : Section) : SmbConf.Section :=
  share.around [setting "path" share.path,setting "browseable" "yes"]

def Asks (host : SambaHost) (spec : ShareSpec) (share : Section) : Prop :=
  host.mountpoint spec.dataset = .ok share.path ∧
    share = ⟨spec.name.text,share.path,spec.readOnly,spec.validUsers.map SmbPrincipal.render⟩

/-- Read back, the text holds the asked section of every share and nothing else; no path is
changed by an expansion and the users are those of the share. -/
structure Faithful (host : SambaHost) (shares : List ShareSpec) (text : String) : Prop where
  sections : ∃ sections, List.Forall₂ (Asks host) shares sections ∧
    read text.toList = outside::sections.map Section.asked
  literal : ∀ spec ∈ shares, ∀ path, host.mountpoint spec.dataset = .ok path →
    ∀ table, expand table path.toList = path.toList
  principals : ∀ spec ∈ shares, words (" ".intercalate (spec.validUsers.map SmbPrincipal.render)).toList =
    spec.validUsers.map (fun principal => principal.render.toList)

/-- What a share's lines say once read: a path that ends in a backslash takes in the line below. -/
def Section.asRead (share : Section) : SmbConf.Section :=
  if continues share.path.toList then
    share.around [⟨"path".toList,share.path.toList.dropLast++"\tbrowseable = yes".toList⟩]
  else share.asked

/-- What `plan` has checked of a section, and what its types promise. -/
structure Representable (share : Section) : Prop where
  named : nameRefusal share.name = none
  placed : mountpointRefusal share.path = none
  trimmed : ∀ character, share.path.toList.getLast? = some character → blank character = false
  users : ∀ user ∈ share.validUsers, user.toList ≠ [] ∧
    ∀ character ∈ user.toList, loginCharacter character = true ∨ character = '@'

theorem token_code {character : Char} (legal : loginCharacter character = true ∨ character = '@') :
    character.toNat ≠ 10 ∧ character.toNat ≠ 92 ∧ separates character = false := by
  have code : (48 ≤ character.toNat ∧ character.toNat ≤ 57) ∨ (64 ≤ character.toNat ∧ character.toNat ≤ 90) ∨
      (97 ≤ character.toNat ∧ character.toNat ≤ 122) ∨ character.toNat = 46 ∨ character.toNat = 95 ∨
        character.toNat = 45 := by
    simp only [loginCharacter,Bool.or_eq_true,decide_eq_true_eq] at legal
    rcases legal with (((plain | rfl) | rfl) | rfl) | rfl
    · have := alphanum_code plain
      omega
    all_goals decide
  have comma : character ≠ ',' := by
    rintro rfl
    revert code
    decide
  refine ⟨by omega,by omega,?_⟩
  simp only [separates,blank,Bool.or_eq_false_iff,Bool.and_eq_false_iff,decide_eq_false_iff_not]
  exact ⟨⟨by omega,by omega⟩,comma⟩

theorem name_code {character : Char} (legal : nameCharacter character = true) :
    character.toNat ≠ 10 ∧ character ≠ ']' ∧ (blank character = true → character = ' ') := by
  have code : (48 ≤ character.toNat ∧ character.toNat ≤ 57) ∨ (65 ≤ character.toNat ∧ character.toNat ≤ 90) ∨
      (97 ≤ character.toNat ∧ character.toNat ≤ 122) ∨ character.toNat = 46 ∨ character.toNat = 95 ∨
        character.toNat = 45 ∨ character.toNat = 32 := by
    simp only [nameCharacter,Bool.or_eq_true,decide_eq_true_eq] at legal
    rcases legal with (((plain | rfl) | rfl) | rfl) | rfl
    · have := alphanum_code plain
      omega
    all_goals decide
  have bracket : character ≠ ']' := by
    rintro rfl
    revert code
    decide
  refine ⟨by omega,bracket,fun space => ?_⟩
  simp only [blank,Bool.or_eq_true,Bool.and_eq_true,decide_eq_true_eq] at space
  have same : character.toNat = ' '.toNat := by
    change character.toNat = 32
    omega
  exact Char.toNat_inj.mp same

def tame (line : List Char) : Bool := !line.contains '\n' && !continues line

theorem tame_iff {line : List Char} : tame line = true ↔ '\n' ∉ line ∧ continues line = false := by
  rw [tame,Bool.and_eq_true,Bool.not_eq_true',Bool.not_eq_true',← Bool.not_eq_true,contains_iff_mem]

private theorem fixed_lines :
    (accessLines ++ auditLines).map (fun line => (parseLine line.toList,tame line.toList)) =
      (accessSettings ++ auditSettings).map (fun known => (.setting known,true)) := by
  -- A literal's characters are put in its place first: the kernel is slow to decode them.
  simp only [accessLines,auditLines,accessSettings,auditSettings,setting,cons_append,nil_append,
    map_cons,map_nil]
  repeat rw [String.toList_ofList]
  decide +kernel

private theorem header_lines : header.map (fun line => (parseLine line.toList,tame line.toList)) =
    header.map (fun _ => (.nothing,true)) := by
  simp only [header,map_cons,map_nil]
  repeat rw [String.toList_ofList]
  decide +kernel

private theorem flag_line : ∀ flag : Bool,
    parseLine ("\tread only = " ++ (if flag then "yes" else "no")).toList =
        .setting (setting "read only" (if flag then "yes" else "no")) ∧
      tame ("\tread only = " ++ (if flag then "yes" else "no")).toList = true := by
  decide +kernel

private theorem parse_fixed : accessLines.map (fun line => parseLine line.toList) = accessSettings.map .setting ∧
    auditLines.map (fun line => parseLine line.toList) = auditSettings.map .setting := by
  have parsed := congrArg (List.map Prod.fst) fixed_lines
  rw [map_append,map_append,map_append,map_append,map_map,map_map,map_map,
    map_map] at parsed
  refine append_inj parsed ?_
  rw [length_map,length_map]
  rfl

private theorem tame_of_lines {lines : List String} {α : Type} {known : List α} {form : α → Line}
    (read : lines.map (fun line => (parseLine line.toList,tame line.toList)) = known.map (fun k => (form k,true))) :
    ∀ line ∈ lines, tame line.toList = true := by
  intro line member
  have inside : (parseLine line.toList,tame line.toList) ∈ known.map (fun k => (form k,true)) :=
    read ▸ mem_map_of_mem member
  obtain ⟨_,_,same⟩ := mem_map.mp inside
  exact (congrArg Prod.snd same).symm

private theorem parse_header : header.map (fun line => parseLine line.toList) = header.map (fun _ => .nothing) := by
  have parsed := congrArg (List.map Prod.fst) header_lines
  rwa [map_map,map_map] at parsed

private def tailLines (share : Section) : List String :=
  ("\tread only = " ++ (if share.readOnly then "yes" else "no"))::(accessLines ++ (share.userLines ++ auditLines))

private def tailSettings (share : Section) : List Setting :=
  setting "read only" (if share.readOnly then "yes" else "no")::
    (accessSettings ++ (share.userSettings ++ auditSettings))

namespace Representable

variable {share : Section} (fits : Representable share)
include fits

theorem name_ends : (∀ character, share.name.toList.head? = some character → blank character = false) ∧
    ∀ character, share.name.toList.getLast? = some character → blank character = false := by
  obtain ⟨_,_,opens,closes,legal⟩ := nameRefusal_none fits.named
  refine ⟨fun character found => ?_,fun character found => ?_⟩
  · refine Bool.eq_false_iff.mpr (fun space => opens ?_)
    rw [found,(name_code (legal character (mem_of_mem_head? found))).2.2 space]
  · refine Bool.eq_false_iff.mpr (fun space => closes ?_)
    rw [found,(name_code (legal character (mem_of_mem_getLast? found))).2.2 space]

theorem path_opens : ∃ rest, share.path.toList = '/'::rest := by
  obtain ⟨opens,_,_⟩ := mountpointRefusal_none fits.placed
  exact head?_eq_some_iff.mp opens

theorem users_words : words (" ".intercalate share.validUsers).toList = share.validUsers.map String.toList := by
  rw [String.toList_intercalate]
  refine words_intercalate (fun name member => ?_) (fun name member character inside => ?_)
  · obtain ⟨user,listed,rfl⟩ := mem_map.mp member
    exact (fits.users user listed).1
  · obtain ⟨user,listed,rfl⟩ := mem_map.mp member
    exact (token_code ((fits.users user listed).2 character inside)).2.2

theorem users_ends : (∀ character, (" ".intercalate share.validUsers).toList.head? = some character →
      blank character = false) ∧
    ∀ character, (" ".intercalate share.validUsers).toList.getLast? = some character →
      character.toNat ≠ 92 ∧ blank character = false := by
  obtain ⟨first,last⟩ := @intercalate_ends (share.validUsers.map String.toList) (fun name member => by
      obtain ⟨user,listed,rfl⟩ := mem_map.mp member
      exact (fits.users user listed).1) (fun name member character inside => by
      obtain ⟨user,listed,rfl⟩ := mem_map.mp member
      exact (token_code ((fits.users user listed).2 character inside)).2.2)
  rw [String.toList_intercalate]
  refine ⟨first,fun character found => ?_⟩
  obtain ⟨name,member,inside⟩ := last character found
  obtain ⟨user,listed,rfl⟩ := mem_map.mp member
  obtain ⟨_,slash,apart⟩ := token_code ((fits.users user listed).2 character inside)
  exact ⟨slash,blank_separates apart⟩

theorem parse_users : share.userLines.map (fun line => parseLine line.toList) = share.userSettings.map .setting := by
  by_cases none : share.validUsers = []
  · rw [Section.userLines,Section.userSettings,if_pos none,if_pos none]
    rfl
  · obtain ⟨first,last⟩ := fits.users_ends
    have filled : (" ".intercalate share.validUsers).toList ≠ [] := by
      intro empty
      have split := fits.users_words
      rw [empty] at split
      exact none (map_eq_nil_iff.mp split.symm)
    rw [Section.userLines,Section.userSettings,if_neg none,if_neg none,map_singleton,String.toList_append]
    exact congrArg (fun line => [line]) (parseLine_setting "valid users".toList (by decide) filled first
      (fun character found => (last character found).2))

theorem parse_tail : (tailLines share).map (fun line => parseLine line.toList) = (tailSettings share).map .setting := by
  rw [tailLines,tailSettings,map_cons,map_cons,map_append,map_append,map_append,
    map_append,parse_fixed.1,fits.parse_users,parse_fixed.2,(flag_line share.readOnly).1]

theorem parse_name : parseLine ("[" ++ share.name ++ "]").toList = .header share.name.toList := by
  obtain ⟨_,_,_,_,legal⟩ := nameRefusal_none fits.named
  rw [String.toList_append,String.toList_append]
  exact parseLine_header (fun member => (name_code (legal _ member)).2.1 rfl)
    (strip_ends fits.name_ends.1 fits.name_ends.2)

omit fits in
theorem parse_path {value : List Char} (opens : value.head? = some '/')
    (ends : ∀ character, value.getLast? = some character → blank character = false) :
    parseLine ("\tpath = ".toList++value) = .setting ⟨"path".toList,value⟩ := by
  refine parseLine_setting "path".toList (by decide) (fun empty => ?_) (fun character found => ?_) ends
  · rw [empty] at opens
    cases opens
  · rw [opens] at found
    cases found
    rfl

end Representable

private theorem newline_code {text : List Char} (apart : ∀ character ∈ text, character.toNat ≠ 10) : '\n' ∉ text :=
  fun member => apart '\n' member rfl

private theorem continues_code {text : List Char} (apart : ∀ character, text.getLast? = some character → character.toNat ≠ 92) :
    continues text = false := by
  refine decide_eq_false (fun last => ?_)
  exact apart '\\' last rfl

namespace Representable

variable {share : Section} (fits : Representable share)
include fits

theorem users_tame : ∀ line ∈ share.userLines, tame line.toList = true := by
  intro line member
  by_cases none : share.validUsers = []
  · rw [Section.userLines,if_pos none] at member
    cases member
  · rw [Section.userLines,if_neg none,mem_singleton] at member
    subst line
    have filled : (" ".intercalate share.validUsers).toList ≠ [] := by
      intro empty
      have split := fits.users_words
      rw [empty] at split
      exact none (map_eq_nil_iff.mp split.symm)
    rw [tame_iff,String.toList_append]
    refine ⟨fun inside => ?_,continues_code (fun character found => ?_)⟩
    · rcases mem_append.mp inside with front | later
      · revert front
        decide
      · rw [String.toList_intercalate] at later
        rcases mem_intercalate later with space | ⟨name,listed,holds⟩
        · cases space
        · obtain ⟨user,named,rfl⟩ := mem_map.mp listed
          exact (token_code ((fits.users user named).2 _ holds)).1 rfl
    · rw [getLast?_append_of_ne_nil _ filled] at found
      exact (fits.users_ends.2 character found).1

theorem tail_tame : ∀ line ∈ tailLines share, tame line.toList = true := by
  intro line member
  rw [tailLines,mem_cons,mem_append,mem_append] at member
  rcases member with rfl | access | users | audit
  · exact (flag_line share.readOnly).2
  · exact tame_of_lines fixed_lines line (mem_append_left _ access)
  · exact fits.users_tame line users
  · exact tame_of_lines fixed_lines line (mem_append_right _ audit)

theorem name_tame : tame ("[" ++ share.name ++ "]").toList = true := by
  obtain ⟨_,_,_,_,legal⟩ := nameRefusal_none fits.named
  rw [tame_iff,String.toList_append,String.toList_append]
  refine ⟨newline_code (fun character inside => ?_),continues_code (fun character found => ?_)⟩
  · rcases mem_append.mp inside with front | closing
    · rcases mem_append.mp front with opening | named
      · rw [mem_singleton.mp opening]
        decide
      · exact (name_code (legal character named)).1
    · rw [mem_singleton.mp closing]
      decide
  · rw [getLast?_append_of_ne_nil _ (by decide)] at found
    cases found
    decide

theorem path_single : '\n' ∉ ("\tpath = " ++ share.path).toList := by
  obtain ⟨_,control,_⟩ := mountpointRefusal_none fits.placed
  rw [String.toList_append]
  intro inside
  rcases mem_append.mp inside with front | later
  · revert front
    decide
  · have visible := control _ later
    revert visible
    decide

theorem path_continues : continues ("\tpath = " ++ share.path).toList = continues share.path.toList := by
  obtain ⟨rest,shown⟩ := fits.path_opens
  rw [String.toList_append,continues,continues,getLast?_append_of_ne_nil _ (by rw [shown]; exact cons_ne_nil _ _)]

theorem read_lines (rest : List (List Char)) :
    (joinLines [] (share.lines.map String.toList++rest)).map parseLine =
      .nothing::.header share.name.toList::(share.asRead.settings.map .setting++(joinLines [] rest).map parseLine) := by
  have tail : ∀ line ∈ (tailLines share).map String.toList, continues line = false := fun line member => by
    obtain ⟨source,listed,rfl⟩ := mem_map.mp member
    exact (tame_iff.mp (fits.tail_tame source listed)).2
  have front : ∀ line ∈ ["","[" ++ share.name ++ "]","\tcomment = DEPSIS share"].map String.toList,
      continues line = false := by
    intro line member
    simp only [map_cons,map_nil,mem_cons,not_mem_nil,or_false] at member
    rcases member with rfl | rfl | rfl
    · rfl
    · exact (tame_iff.mp fits.name_tame).2
    · decide
  have shape : share.lines.map String.toList++rest =
      ["","[" ++ share.name ++ "]","\tcomment = DEPSIS share"].map String.toList++
        (("\tpath = " ++ share.path).toList::"\tbrowseable = yes".toList::((tailLines share).map String.toList++rest)) := by
    simp [Section.lines,tailLines]
  have browse : continues "\tbrowseable = yes".toList = false := by decide
  have parsedFront : (["","[" ++ share.name ++ "]","\tcomment = DEPSIS share"].map String.toList).map parseLine =
      [.nothing,.header share.name.toList,.setting (setting "comment" "DEPSIS share")] := by
    have comment : parseLine "\tcomment = DEPSIS share".toList = .setting (setting "comment" "DEPSIS share") := by
      decide +kernel
    simp only [map_cons,map_nil,fits.parse_name,comment]
    rfl
  have parsedTail : ((tailLines share).map String.toList).map parseLine = (tailSettings share).map .setting := by
    rw [map_map]
    exact fits.parse_tail
  obtain ⟨under,shown⟩ := fits.path_opens
  rw [shape,joinLines_plain _ front]
  by_cases backslash : continues share.path.toList = true
  · have filled : share.path.toList ≠ [] := by
      rw [shown]
      exact cons_ne_nil _ _
    have joined : ("\tpath = " ++ share.path).toList.dropLast++"\tbrowseable = yes".toList =
        "\tpath = ".toList++(share.path.toList.dropLast++"\tbrowseable = yes".toList) := by
      rw [String.toList_append,dropLast_append_of_ne_nil filled,append_assoc]
    have stops : continues (("\tpath = " ++ share.path).toList.dropLast++"\tbrowseable = yes".toList) = false := by
      rw [continues,getLast?_append_of_ne_nil _ (by decide)]
      exact browse
    have opens : (share.path.toList.dropLast++"\tbrowseable = yes".toList).head? = some '/' := by
      cases under with
      | nil =>
        rw [shown] at backslash
        exact absurd backslash (by decide)
      | cons next under =>
        rw [shown]
        rfl
    have last : "\tbrowseable = yes".toList.getLast? = some 's' := by decide
    have placed := parse_path opens (fun character found => by
      rw [getLast?_append_of_ne_nil _ (by decide),last] at found
      cases found
      rfl)
    rw [joinLines_continued _ (fits.path_continues.trans backslash) stops,joined,joinLines_plain _ tail,
      Section.asRead,if_pos backslash]
    rw [map_append,parsedFront,map_cons,placed,map_append,parsedTail]
    rfl
  · have plain : ∀ line ∈ ("\tpath = " ++ share.path).toList::"\tbrowseable = yes".toList::(tailLines share).map String.toList,
        continues line = false := by
      intro line member
      rcases mem_cons.mp member with rfl | member
      · exact fits.path_continues.trans (Bool.eq_false_iff.mpr backslash)
      rcases mem_cons.mp member with rfl | member
      · exact browse
      · exact tail line member
    have parsed : parseLine "\tbrowseable = yes".toList = .setting (setting "browseable" "yes") := by decide +kernel
    have placed := @parse_path share.path.toList (by rw [shown]; rfl) fits.trimmed
    rw [← String.toList_append] at placed
    rw [← cons_append,← cons_append,joinLines_plain _ plain,Section.asRead,if_neg backslash]
    rw [map_append,parsedFront,map_append,map_cons,map_cons,placed,parsed,parsedTail]
    rfl

theorem lines_single : ∀ line ∈ share.lines.map String.toList, '\n' ∉ line := by
  intro text member
  obtain ⟨line,listed,rfl⟩ := mem_map.mp member
  have shape : share.lines = ["","[" ++ share.name ++ "]","\tcomment = DEPSIS share","\tpath = " ++ share.path,
      "\tbrowseable = yes"]++tailLines share := rfl
  rw [shape,mem_append] at listed
  rcases listed with front | tail
  · simp only [mem_cons,not_mem_nil,or_false] at front
    rcases front with rfl | rfl | rfl | rfl | rfl
    · decide
    · exact (tame_iff.mp fits.name_tame).1
    · decide
    · exact fits.path_single
    · decide
  · exact (tame_iff.mp (fits.tail_tame line tail)).1

end Representable

variable {sections : List Section}

theorem gather_sections (fits : ∀ share ∈ sections, Representable share)
    (current : SmbConf.Section) :
    gather current ((joinLines [] (sections.flatMap (fun share => share.lines.map String.toList)++[[]])).map parseLine) =
      current::sections.map Section.asRead := by
  induction sections generalizing current with
  | nil => rfl
  | cons share rest ih =>
    rw [flatMap_cons,append_assoc,(fits share mem_cons_self).read_lines,gather,gather,gather_settings,
      ih (fun other member => fits other (mem_cons_of_mem _ member)),map_cons,nil_append]
    have named : share.asRead.name = share.name.toList := by
      rw [Section.asRead]
      split <;> rfl
    rw [← named]

theorem read_render (fits : ∀ share ∈ sections, Representable share) :
    read (render sections).toList = merge (outside::sections.map Section.asRead) := by
  have text : (render sections).toList = (header.map String.toList++sections.flatMap (fun share =>
      share.lines.map String.toList)).flatMap (fun line => line++['\n']) := by
    rw [render,String.toList_join]
    simp only [flatMap_map,flatMap_append,flatMap_assoc,String.toList_append]
    rfl
  have single : ∀ line ∈ header.map String.toList++sections.flatMap (fun share => share.lines.map String.toList),
      '\n' ∉ line := by
    intro line member
    rcases mem_append.mp member with opening | later
    · obtain ⟨source,listed,rfl⟩ := mem_map.mp opening
      exact (tame_iff.mp (tame_of_lines header_lines source listed)).1
    · obtain ⟨share,listed,inside⟩ := mem_flatMap.mp later
      exact (fits share listed).lines_single line inside
  have plain : ∀ line ∈ header.map String.toList, continues line = false := by
    intro line member
    obtain ⟨source,listed,rfl⟩ := mem_map.mp member
    exact (tame_iff.mp (tame_of_lines header_lines source listed)).2
  have comments : ∀ (lines : List String) (rest : List Line),
      gather outside (lines.map (fun _ => Line.nothing)++rest) = gather outside rest := by
    intro lines rest
    induction lines with
    | nil => rfl
    | cons line lines ih => exact ih
  rw [SmbConf.read,text,Text.splitOn_unlines single,append_assoc,joinLines_plain _ plain,map_append,map_map]
  change merge (gather outside (header.map (fun line => parseLine line.toList)++_)) = _
  rw [parse_header,comments,gather_sections fits]

private theorem blank_whitespace {character : Char} (space : blank character = true) :
    Text.whitespace character = true := by
  simp only [blank,Bool.or_eq_true,Bool.and_eq_true,decide_eq_true_eq] at space
  simp only [Text.whitespace,Bool.or_eq_true,Bool.and_eq_true,decide_eq_true_eq]
  omega

theorem host_trimmed {machine : Machine} {dataset path : String} (found : machine.host.mountpoint dataset = .ok path)
    (character : Char) (last : path.toList.getLast? = some character) : blank character = false := by
  simp only [Machine.host] at found
  split at found
  next => cases found
  next out _ =>
    injection found with shown
    rw [← shown,String.toList_ofList] at last
    refine Bool.eq_false_iff.mpr (fun space => ?_)
    have solid := Text.trim_last last
    rw [blank_whitespace space] at solid
    cases solid

theorem principal_token (principal : SmbPrincipal) : principal.render.toList ≠ [] ∧
    ∀ character ∈ principal.render.toList, loginCharacter character = true ∨ character = '@' := by
  cases principal with
  | user name => exact ⟨name.legal.1,fun character inside => .inl (name.legal.2 character inside)⟩
  | group name =>
    rw [SmbPrincipal.render,String.toList_append]
    refine ⟨cons_ne_nil _ _,fun character inside => ?_⟩
    rcases mem_append.mp inside with sigil | named
    · exact .inr (mem_singleton.mp sigil)
    · exact .inl (name.legal.2 character named)

theorem planned_fits {machine : Machine} {spec : ShareSpec} {share : Section}
    (planned : planOne machine.host spec = .ok share) : Representable share ∧ Asks machine.host spec share := by
  obtain ⟨named,mounted,placed,shape⟩ := planOne_ok planned
  refine ⟨⟨?_,placed,host_trimmed mounted,fun user listed => ?_⟩,mounted,shape⟩
  · rw [shape]
    exact named
  · rw [shape] at listed
    obtain ⟨principal,_,rfl⟩ := mem_map.mp listed
    exact principal_token principal

theorem asks_unique {host : SambaHost} {shares : List ShareSpec} {first second : List Section}
    (one : List.Forall₂ (Asks host) shares first) (other : List.Forall₂ (Asks host) shares second) : first = second := by
  induction one generalizing second with
  | nil =>
    cases other
    rfl
  | cons asks _ ih =>
    cases other with
    | cons again rest =>
      have path := asks.1.symm.trans again.1
      injection path with path
      rw [asks.2,again.2,path,ih rest]

theorem asked_around (share : Section) : share.asRead.name = share.name.toList ∧ share.asked.name = share.name.toList := by
  refine ⟨?_,rfl⟩
  rw [Section.asRead]
  split <;> rfl

theorem asRead_asked {share : Section} : share.asRead = share.asked ↔ continues share.path.toList = false := by
  rw [Section.asRead]
  split
  next backslash =>
    refine ⟨fun same => ?_,fun plain => ?_⟩
    · have longer := congrArg (fun read => read.settings.length) same
      simp [Section.around,Section.asked] at longer
    · rw [backslash] at plain
      cases plain
  next plain => exact ⟨fun _ => Bool.eq_false_iff.mpr plain,fun _ => rfl⟩

theorem outside_apart {share : Section} (fits : Representable share) : lower outside.name ≠ lower share.name.toList := by
  obtain ⟨_,reserved,_⟩ := nameRefusal_none fits.named
  exact fun same => (Bool.eq_false_iff.mp reserved) (decide_eq_true same)

theorem apart_outside (fits : ∀ share ∈ sections, Representable share)
    {form : Section → SmbConf.Section} (named : ∀ share, (form share).name = share.name.toList) :
    ((outside::sections.map form).map (fun found => lower found.name)).Nodup ↔
      (sections.map (fun share => lower share.name.toList)).Nodup := by
  have names : (sections.map form).map (fun found => lower found.name) =
      sections.map (fun share => lower share.name.toList) := by
    rw [map_map]
    exact map_congr_left (fun share _ => congrArg lower (named share))
  rw [map_cons,nodup_cons,names]
  refine ⟨fun apart => apart.2,fun apart => ⟨fun member => ?_,apart⟩⟩
  obtain ⟨share,listed,same⟩ := mem_map.mp member
  exact outside_apart (fits share listed) same.symm

theorem paired {shares : List ShareSpec} {holds : ShareSpec → Section → Prop}
    (pairs : List.Forall₂ holds shares sections) :
    (∀ spec ∈ shares, ∃ share ∈ sections, holds spec share) ∧ ∀ share ∈ sections, ∃ spec ∈ shares, holds spec share := by
  induction pairs with
  | nil => exact ⟨by simp,by simp⟩
  | @cons spec share _ _ one _ ih =>
    refine ⟨fun other member => ?_,fun other member => ?_⟩
    · rcases mem_cons.mp member with rfl | later
      · exact ⟨share,mem_cons_self,one⟩
      · obtain ⟨found,listed,related⟩ := ih.1 other later
        exact ⟨found,mem_cons_of_mem _ listed,related⟩
    · rcases mem_cons.mp member with rfl | later
      · exact ⟨spec,mem_cons_self,one⟩
      · obtain ⟨found,listed,related⟩ := ih.2 other later
        exact ⟨found,mem_cons_of_mem _ listed,related⟩

section Planned

variable {machine : Machine} {shares : List ShareSpec} {sections : List Section}
  (planned : plan machine.host shares = .ok sections)
include planned

theorem planned_asks : List.Forall₂ (Asks machine.host) shares sections :=
  (plan_ok planned).imp (fun _ _ one => (planned_fits one).2)

theorem planned_representable : ∀ share ∈ sections, Representable share := fun share member =>
  ((paired (plan_ok planned)).2 share member).elim (fun _ one => (planned_fits one.2).1)

theorem planned_names :
    sections.map (fun share => lower share.name.toList) = shares.map (fun spec => lower spec.name.text.toList) := by
  have asks := planned_asks planned
  clear planned
  induction asks with
  | nil => rfl
  | cons one _ ih => rw [map_cons,map_cons,ih,one.2]

theorem planned_share {spec : ShareSpec} (member : spec ∈ shares) {path : String}
    (mounted : machine.host.mountpoint spec.dataset = .ok path) :
    ∃ share ∈ sections, share.path = path ∧ share.validUsers = spec.validUsers.map SmbPrincipal.render := by
  obtain ⟨share,listed,found,shape⟩ := (paired (planned_asks planned)).1 spec member
  rw [found] at mounted
  injection mounted with same
  exact ⟨share,listed,same,by rw [shape]⟩

theorem faithful_apart (faithful : Faithful machine.host shares (render sections)) :
    (∀ spec ∈ shares, ∀ path, machine.host.mountpoint spec.dataset = .ok path → path.toList.getLast? ≠ some '\\') ∧
      (shares.map (fun spec => lower spec.name.text.toList)).Nodup := by
  obtain ⟨⟨found,again,back⟩,_,_⟩ := faithful
  have fits := planned_representable planned
  rw [← asks_unique (planned_asks planned) again,read_render fits] at back
  have apart := merge_nodup (outside::sections.map Section.asRead)
  rw [back,apart_outside fits (fun share => (asked_around share).2)] at apart
  rw [merge_distinct ((apart_outside fits (fun share => (asked_around share).1)).mpr apart)] at back
  refine ⟨fun spec member path mounted => ?_,planned_names planned ▸ apart⟩
  obtain ⟨share,listed,rfl,_⟩ := planned_share planned member mounted
  exact of_decide_eq_false (asRead_asked.mp (map_inj_left.mp (List.cons.inj back).2 share listed))

theorem faithful_of_apart
    (plain : ∀ spec ∈ shares, ∀ path, machine.host.mountpoint spec.dataset = .ok path → path.toList.getLast? ≠ some '\\')
    (apart : (shares.map (fun spec => lower spec.name.text.toList)).Nodup) :
    Faithful machine.host shares (render sections) := by
  have fits := planned_representable planned
  have asks := planned_asks planned
  rw [← planned_names planned] at apart
  have kept : sections.map Section.asRead = sections.map Section.asked := by
    refine map_congr_left (fun share listed => asRead_asked.mpr (decide_eq_false ?_))
    obtain ⟨spec,member,mounted,_⟩ := (paired asks).2 share listed
    exact plain spec member share.path mounted
  refine ⟨⟨sections,asks,?_⟩,fun spec member path mounted table => ?_,fun spec member => ?_⟩
  · rw [read_render fits,merge_distinct ((apart_outside fits (fun share => (asked_around share).1)).mpr apart),kept]
  · obtain ⟨share,listed,rfl,_⟩ := planned_share planned member mounted
    exact expand_plain table (mountpointRefusal_none (fits share listed).placed).2.2
  · obtain ⟨share,_,mounted,_⟩ := (paired asks).1 spec member
    obtain ⟨owner,owned,_,users⟩ := planned_share planned member mounted
    rw [← users,(fits owner owned).users_words,users,map_map]
    rfl

end Planned

/-- The text of every plan the agent accepts is read back as what was asked, as long as no
mountpoint ends in a backslash and no two names differ in case only.
-/
theorem rendering_faithful_iff {machine : Machine} {shares : List ShareSpec} {sections : List Section}
    (planned : plan machine.host shares = .ok sections) :
    Faithful machine.host shares (render sections) ↔
      (∀ spec ∈ shares, ∀ path, machine.host.mountpoint spec.dataset = .ok path → path.toList.getLast? ≠ some '\\') ∧
        (shares.map (fun spec => lower spec.name.text.toList)).Nodup :=
  ⟨faithful_apart planned,fun ⟨plain,apart⟩ => faithful_of_apart planned plain apart⟩

private def mountedAt (path : String) : Machine := ⟨fun _ => true,fun _ => .ok (path ++ "\n"),fun _ _ _ => .ok ""⟩

private def aynur : PosixName := ⟨"aynur",by decide⟩

private def docsShare : ShareSpec := ⟨⟨"docs",by decide⟩,"tank/docs",false,[.user aynur]⟩

private def loudShare : ShareSpec := ⟨⟨"DOCS",by decide⟩,"tank/loud",true,[]⟩

theorem rendering_faithful_docs : Faithful (mountedAt "/tank/docs").host [docsShare]
      (render [⟨"docs","/tank/docs",false,["aynur"]⟩]) ↔
    (∀ spec ∈ [docsShare], ∀ path, (mountedAt "/tank/docs").host.mountpoint spec.dataset = .ok path →
        path.toList.getLast? ≠ some '\\') ∧
      ([docsShare].map (fun spec => lower spec.name.text.toList)).Nodup :=
  rendering_faithful_iff rfl

/-- A mountpoint that ends in a backslash takes in the line below it, and two names that differ
in case become one section.
-/
theorem rendering_swallows : (∃ sections, plan (mountedAt "/tank/docs\\").host [docsShare] = .ok sections ∧
      ¬Faithful (mountedAt "/tank/docs\\").host [docsShare] (render sections)) ∧
    ∃ sections, plan (mountedAt "/tank/docs").host [docsShare,loudShare] = .ok sections ∧
      ¬Faithful (mountedAt "/tank/docs").host [docsShare,loudShare] (render sections) := by
  refine ⟨⟨_,rfl,fun faithful => ?_⟩,⟨_,rfl,fun faithful => ?_⟩⟩
  · exact (faithful_apart rfl faithful).1 docsShare mem_cons_self "/tank/docs\\" rfl rfl
  · exact absurd (faithful_apart rfl faithful).2 (by decide)

end Depsis.Shares

import Mathlib.Data.List.Dedup
import Depsis.Agent.IdentitySync
import Depsis.Shares.Rendering

/-! Who the published configuration lets into a share: the list the API computes from its
grants, and what the server makes of the section that list is written to.
-/
namespace Depsis.Shares
open Depsis.Agent Depsis.Foundation Depsis.Foundation.SmbConf List Bool

structure UserRow where
  id : String
  username : PosixName
  posixUid : Option PosixId
  disabled : Bool

structure TeamRow where
  id : String
  posixGid : Option PosixId

inductive Holder where
  | user (id : String)
  | team (id : String)

structure GrantRow where
  shareId : String
  holder : Holder

structure ShareRow where
  id : String
  name : SafeComponent
  dataset : String
  readOnly : Bool

/-- The tables, with the unique keys the schema gives them, and the accounts Samba has a
password for. -/
structure State where
  users : List UserRow
  teams : List TeamRow
  members : List (String × String)
  grants : List GrantRow
  shares : List ShareRow
  logins : List String
  userIds : (users.map UserRow.id).Nodup
  teamIds : (teams.map TeamRow.id).Nodup
  gids : (teams.filterMap TeamRow.posixGid).Nodup
  names : (shares.map (fun share => lower share.name.text.toList)).Nodup

structure PrincipalRow where
  shareId : String
  username : Option PosixName
  posixGid : Option PosixId
  deriving DecidableEq

variable (collate : String → String → Bool)

/-- The two left joins: a disabled user and a team without a number leave nothing in the row. -/
def State.joined (state : State) (grant : GrantRow) : PrincipalRow :=
  match grant.holder with
  | .user id => ⟨grant.shareId,(state.users.find? (fun user => user.id = id && !user.disabled)).map UserRow.username,none⟩
  | .team id => ⟨grant.shareId,none,(state.teams.find? (fun team => team.id = id && team.posixGid.isSome)).bind TeamRow.posixGid⟩

def PrincipalRow.le (first second : PrincipalRow) : Bool :=
  if first.shareId ≠ second.shareId then collate first.shareId second.shareId
  else match first.username,second.username with
  | some one,some other =>
    if one ≠ other then collate one.text other.text else gidLe first.posixGid second.posixGid
  | some _,none => true
  | none,some _ => false
  | none,none => gidLe first.posixGid second.posixGid
where
  gidLe : Option PosixId → Option PosixId → Bool
    | some one,some other => one.value ≤ other.value
    | none,some _ => false
    | _,none => true

def State.principalRows (state : State) : List PrincipalRow :=
  ((state.grants.map state.joined).dedup).mergeSort (PrincipalRow.le collate)

theorem teamGroupName_legal (gid : PosixId) : loginRefusal (teamGroupName gid) = none := by
  have digits : (toString gid.value).toList = Nat.toDigits 10 gid.value := by
    change (Nat.repr gid.value).toList = _
    simp
  have spelled : (teamGroupName gid).toList = "depsis-t-".toList ++ Nat.toDigits 10 gid.value := by
    rw [teamGroupName,String.toList_append,digits]
  have short : (Nat.toDigits 10 gid.value).length ≤ 6 := by
    apply (Nat.length_toDigits_le_iff (by decide) (by decide)).mpr
    have := gid.bounded
    omega
  have size : (teamGroupName gid).length ≤ 64 := by
    rw [← String.length_toList,spelled,length_append]
    have : "depsis-t-".toList.length = 9 := rfl
    omega
  unfold loginRefusal
  rw [spelled]
  change (if 64 < (teamGroupName gid).length then _ else _) = _
  rw [if_neg (not_lt.mpr size),if_neg (by decide),Option.map_eq_none_iff,find?_eq_none]
  intro character member
  have legal : "depsis-t-".toList.all loginCharacter = true := rfl
  have fine : loginCharacter character = true := by
    rcases mem_append.mp (show character ∈ "depsis-t-".toList ++ Nat.toDigits 10 gid.value from member) with front | digit
    · exact all_eq_true.mp legal character front
    · have number := Nat.isDigit_of_mem_toDigits (by decide) (by decide) digit
      simp [loginCharacter,Char.isAlphanum,number]
  simp [fine]

def teamGroup (gid : PosixId) : PosixName := ⟨teamGroupName gid,teamGroupName_legal gid⟩

def PrincipalRow.principal (row : PrincipalRow) : Option SmbPrincipal :=
  match row.username,row.posixGid with
  | some name,_ => some (.user name)
  | none,some gid => some (.group (teamGroup gid))
  | none,none => none

def State.validUsers (state : State) (shareId : String) : List SmbPrincipal :=
  ((state.principalRows collate).filter (fun row => row.shareId = shareId)).filterMap PrincipalRow.principal

def State.request (state : State) : List ShareSpec :=
  state.shares.map (fun share => ⟨share.name,share.dataset,share.readOnly,state.validUsers collate share.id⟩)

def State.groupMembers (state : State) (group : String) : List String :=
  (state.teams.filter (fun team => team.posixGid.map teamGroupName = some group)).flatMap (fun team =>
    (state.users.filter (fun user => !user.disabled && user.posixUid.isSome && state.members.contains (team.id,user.id))).map
      (fun user => user.username.text))

def isUsers (setting : Setting) : Bool := setting.key = "valid users".toList

/-- `valid users` as a section has it; a later line replaces an earlier one. -/
def listed (share : SmbConf.Section) : Option (List Char) := ((share.settings.filter isUsers).getLast?).map Setting.value

def denotes (state : State) (account : String) : List Char → Prop
  | '@'::group => account ∈ state.groupMembers (String.ofList group)
  | name => account.toList = name

def admits (state : State) (share : SmbConf.Section) (account : String) : Prop :=
  match listed share with
  | some value => ∃ word ∈ words value, denotes state account word
  | none => account ∈ state.logins

def Admitted (state : State) (text : String) (share : ShareRow) (account : String) : Prop :=
  ∃ found ∈ read text.toList, lower found.name = lower share.name.text.toList ∧ admits state found account

def State.Reachable (state : State) (shareId account : String) : Prop :=
  ∃ user ∈ state.users, user.disabled = false ∧ user.username.text = account ∧ ∃ grant ∈ state.grants, grant.shareId = shareId ∧
    (grant.holder = .user user.id ∨ ∃ team, grant.holder = .team team ∧ (team,user.id) ∈ state.members)

def State.Restricted (state : State) (shareId : String) : Prop :=
  ∃ grant ∈ state.grants, grant.shareId = shareId ∧
    ((∃ user ∈ state.users, user.disabled = false ∧ grant.holder = .user user.id) ∨
      ∃ team ∈ state.teams, team.posixGid ≠ none ∧ grant.holder = .team team.id)

def State.Reached (state : State) (shareId account : String) : Prop :=
  ∃ user ∈ state.users, user.disabled = false ∧ user.username.text = account ∧ ∃ grant ∈ state.grants, grant.shareId = shareId ∧
    (grant.holder = .user user.id ∨ user.posixUid ≠ none ∧ ∃ team ∈ state.teams, team.posixGid ≠ none ∧
      grant.holder = .team team.id ∧ (team.id,user.id) ∈ state.members)

/-- Grants and members are taken away, users disabled, numbers dropped; nobody gains a login. -/
structure Narrowed (before after : State) : Prop where
  shares : after.shares = before.shares
  users : List.Forall₂ (fun old new => new.id = old.id ∧ new.username = old.username ∧ new.posixUid = old.posixUid ∧
    (old.disabled = true → new.disabled = true)) before.users after.users
  teams : List.Forall₂ (fun old new => new.id = old.id ∧ (new.posixGid = old.posixGid ∨ new.posixGid = none))
    before.teams after.teams
  members : ∀ member ∈ after.members, member ∈ before.members
  grants : ∀ grant ∈ after.grants, grant ∈ before.grants
  logins : ∀ account ∈ after.logins, account ∈ before.logins

private theorem found_by {α : Type} {key : α → String} {rows : List α} (apart : (rows.map key).Nodup) {row : α} (member : row ∈ rows)
    {holds : α → Bool} (here : holds row = true) :
    rows.find? (fun other => key other = key row && holds other) = some row := by
  induction rows with
  | nil => cases member
  | cons first rest ih =>
    obtain ⟨absent,later⟩ := nodup_cons.mp apart
    rcases mem_cons.mp member with rfl | inside
    · exact find?_cons_of_pos (by simp [here])
    · have differs : key first ≠ key row := fun same => absent (same ▸ mem_map_of_mem inside)
      rw [find?_cons_of_neg (by simp [differs]),ih later inside]

theorem State.principal_joined (state : State) (grant : GrantRow) (principal : SmbPrincipal) :
    (state.joined grant).principal = some principal ↔
      (∃ user ∈ state.users, user.disabled = false ∧ grant.holder = .user user.id ∧ principal = .user user.username) ∨
        ∃ team ∈ state.teams, ∃ gid, team.posixGid = some gid ∧ grant.holder = .team team.id ∧
          principal = .group (teamGroup gid) := by
  obtain ⟨shareId,holder⟩ := grant
  cases holder with
  | user id =>
    constructor
    · intro made
      cases found : state.users.find? (fun user => user.id = id && !user.disabled) with
      | none => simp [State.joined,found,PrincipalRow.principal] at made
      | some user =>
        have fits := find?_some found
        simp only [and_eq_true,decide_eq_true_eq,not_eq_true'] at fits
        simp only [State.joined,found,PrincipalRow.principal,Option.map_some,Option.some.injEq] at made
        exact .inl ⟨user,mem_of_find?_eq_some found,fits.2,by rw [fits.1],made.symm⟩
    · rintro (⟨user,member,enabled,same,rfl⟩ | ⟨team,-,gid,-,same,-⟩)
      · cases same
        have found := @found_by _ _ _ state.userIds user member (fun user => !user.disabled) (by rw [enabled]; rfl)
        simp only [State.joined,PrincipalRow.principal]
        rw [found]
        rfl
      · cases same
  | team id =>
    constructor
    · intro made
      cases found : state.teams.find? (fun team => team.id = id && team.posixGid.isSome) with
      | none => simp [State.joined,found,PrincipalRow.principal] at made
      | some team =>
        have fits := find?_some found
        simp only [and_eq_true,decide_eq_true_eq] at fits
        obtain ⟨gid,numbered⟩ := Option.isSome_iff_exists.mp fits.2
        simp only [State.joined,found,PrincipalRow.principal,Option.bind_some,numbered,Option.some.injEq] at made
        exact .inr ⟨team,mem_of_find?_eq_some found,gid,numbered,by rw [fits.1],made.symm⟩
    · rintro (⟨user,-,-,same,-⟩ | ⟨team,member,gid,numbered,same,rfl⟩)
      · cases same
      · cases same
        have found := @found_by _ _ _ state.teamIds team member (fun team => team.posixGid.isSome) (by rw [numbered]; rfl)
        simp only [State.joined,PrincipalRow.principal]
        rw [found,Option.bind_some,numbered]

theorem State.mem_validUsers (state : State) (shareId : String) (principal : SmbPrincipal) :
    principal ∈ state.validUsers collate shareId ↔
      ∃ grant ∈ state.grants, grant.shareId = shareId ∧ (state.joined grant).principal = some principal := by
  have owner (grant : GrantRow) : (state.joined grant).shareId = grant.shareId := by
    unfold State.joined
    split <;> rfl
  simp only [State.validUsers,State.principalRows,mem_filterMap,mem_filter,mem_mergeSort,mem_dedup,
    mem_map,decide_eq_true_eq]
  constructor
  · rintro ⟨row,⟨⟨grant,member,rfl⟩,same⟩,made⟩
    exact ⟨grant,member,(owner grant).symm.trans same,made⟩
  · rintro ⟨grant,member,same,made⟩
    exact ⟨_,⟨⟨grant,member,rfl⟩,(owner grant).trans same⟩,made⟩

theorem State.validUsers_nil (state : State) (shareId : String) :
    state.validUsers collate shareId = [] ↔ ¬state.Restricted shareId := by
  constructor
  · rintro empty ⟨grant,member,same,⟨user,present,enabled,held⟩ | ⟨team,present,numbered,held⟩⟩
    · have listed := (state.mem_validUsers collate shareId (.user user.username)).mpr
        ⟨grant,member,same,(state.principal_joined grant _).mpr (.inl ⟨user,present,enabled,held,rfl⟩)⟩
      rw [empty] at listed
      cases listed
    · obtain ⟨gid,known⟩ := Option.ne_none_iff_exists'.mp numbered
      have listed := (state.mem_validUsers collate shareId (.group (teamGroup gid))).mpr
        ⟨grant,member,same,(state.principal_joined grant _).mpr (.inr ⟨team,present,gid,known,held,rfl⟩)⟩
      rw [empty] at listed
      cases listed
  · intro free
    apply eq_nil_iff_forall_not_mem.mpr
    intro principal listed
    obtain ⟨grant,member,same,made⟩ := (state.mem_validUsers collate shareId principal).mp listed
    rcases (state.principal_joined grant principal).mp made with ⟨user,present,enabled,held,-⟩ | ⟨team,present,gid,known,held,-⟩
    · exact free ⟨grant,member,same,.inl ⟨user,present,enabled,held⟩⟩
    · exact free ⟨grant,member,same,.inr ⟨team,present,by rw [known]; exact Option.some_ne_none gid,held⟩⟩

theorem State.mem_groupMembers (state : State) (gid : PosixId) (account : String) :
    account ∈ state.groupMembers (teamGroupName gid) ↔ ∃ team ∈ state.teams, team.posixGid = some gid ∧
      ∃ user ∈ state.users, user.disabled = false ∧ user.posixUid ≠ none ∧ (team.id,user.id) ∈ state.members ∧
        user.username.text = account := by
  have number (team : TeamRow) : team.posixGid.map teamGroupName = some (teamGroupName gid) ↔ team.posixGid = some gid := by
    constructor
    · intro same
      obtain ⟨other,known,names⟩ := Option.map_eq_some_iff.mp same
      obtain ⟨value,bounded⟩ := other
      obtain ⟨number,range⟩ := gid
      have equal := teamGroupName_injective names
      dsimp only at equal
      subst equal
      exact known
    · intro known
      rw [known]
      rfl
  simp only [State.groupMembers,mem_flatMap,mem_filter,decide_eq_true_eq,number,mem_map,and_eq_true,
    not_eq_true',contains_iff_mem,Option.isSome_iff_ne_none]
  constructor
  · rintro ⟨team,⟨present,known⟩,user,⟨member,⟨enabled,uid⟩,joined⟩,rfl⟩
    exact ⟨team,present,known,user,member,enabled,uid,joined,rfl⟩
  · rintro ⟨team,present,known,user,member,enabled,uid,joined,rfl⟩
    exact ⟨team,⟨present,known⟩,user,⟨member,⟨enabled,uid⟩,joined⟩,rfl⟩

private theorem fixed_unlisted : (accessSettings.filter isUsers = []) ∧
    auditSettings.filter isUsers = [] := by
  decide +kernel

private theorem users_listed (share : Section) :
    share.userSettings.filter isUsers = share.userSettings := by
  unfold Section.userSettings
  split_ifs
  · rfl
  · exact filter_cons_of_pos (decide_eq_true rfl)

theorem listed_asRead (share : Section) : listed share.asRead = (share.userSettings.getLast?).map Setting.value := by
  have unlisted (key : String) (value : List Char) (apart : key.toList ≠ "valid users".toList) (rest : List Setting) :
      (⟨key.toList,value⟩::rest).filter isUsers = rest.filter isUsers := by
    have other : isUsers ⟨key.toList,value⟩ = false := decide_eq_false apart
    exact filter_cons_of_neg (by rw [other]; exact false_ne_true)
  have tail : (setting "read only" (if share.readOnly then "yes" else "no")::(accessSettings ++ (share.userSettings ++
      auditSettings))).filter isUsers = share.userSettings := by
    rw [setting,unlisted "read only" _ (by decide),filter_append,filter_append,fixed_unlisted.1,fixed_unlisted.2,
      users_listed,nil_append,append_nil]
  have whole : share.asRead.settings.filter isUsers = share.userSettings := by
    unfold Section.asRead
    split
    · change (setting "comment" "DEPSIS share"::⟨"path".toList,_⟩::_).filter _ = _
      rw [setting,unlisted "comment" _ (by decide),unlisted "path" _ (by decide)]
      exact tail
    · change (setting "comment" "DEPSIS share"::setting "path" share.path::setting "browseable" "yes"::_).filter _ = _
      rw [setting,setting,setting,unlisted "comment" _ (by decide),unlisted "path" _ (by decide),
        unlisted "browseable" _ (by decide)]
      exact tail
  rw [listed,whole]

theorem admits_asRead {share : Section} (fits : Representable share) {principals : List SmbPrincipal}
    (users : share.validUsers = principals.map SmbPrincipal.render) (state : State) (account : String) :
    admits state share.asRead account ↔
      (principals = [] ∧ account ∈ state.logins) ∨ ∃ principal ∈ principals, denotes state account principal.render.toList := by
  have other := listed_asRead share
  by_cases none : principals = []
  · have free : share.userSettings = [] := by rw [Section.userSettings,if_pos (by rw [users,none]; rfl)]
    rw [admits,other,free]
    simp [none]
  · have filled : share.validUsers ≠ [] := by rw [users]; exact fun empty => none (map_eq_nil_iff.mp empty)
    have one : listed share.asRead = some (" ".intercalate share.validUsers).toList := by
      rw [other,Section.userSettings,if_neg filled]
      rfl
    rw [admits,one]
    dsimp only
    rw [fits.users_words,users]
    simp [none]

theorem denotes_render (state : State) (account : String) (principal : SmbPrincipal) :
    denotes state account principal.render.toList ↔ match principal with
      | .user name => account = name.text
      | .group name => account ∈ state.groupMembers name.text := by
  cases principal with
  | user name =>
    obtain ⟨filled,legal⟩ := name.legal
    change denotes state account name.text.toList ↔ account = name.text
    unfold denotes
    split
    next group same =>
      have sigil := legal '@' (by rw [same]; exact mem_cons_self)
      exact absurd sigil (by decide)
    next => exact String.toList_inj
  | group name =>
    have shape : (SmbPrincipal.group name).render.toList = '@'::name.text.toList := by
      rw [SmbPrincipal.render,String.toList_append]
      rfl
    rw [shape]
    change account ∈ state.groupMembers (String.ofList name.text.toList) ↔ _
    rw [String.ofList_toList]

private theorem numbered_once {teams : List TeamRow} (apart : (teams.filterMap TeamRow.posixGid).Nodup) {gid : PosixId}
    {one other : TeamRow} (first : one ∈ teams) (second : other ∈ teams) (known : one.posixGid = some gid)
    (same : other.posixGid = some gid) : one = other := by
  induction teams with
  | nil => cases first
  | cons team rest ih =>
    have later (row : TeamRow) (inside : row ∈ rest) (numbered : row.posixGid = some gid) : gid ∈ rest.filterMap TeamRow.posixGid :=
      mem_filterMap.mpr ⟨row,inside,numbered⟩
    cases number : team.posixGid with
    | none =>
      rw [filterMap_cons_none number] at apart
      have elsewhere (row : TeamRow) (member : row ∈ team::rest) (numbered : row.posixGid = some gid) : row ∈ rest := by
        rcases mem_cons.mp member with rfl | inside
        · rw [number] at numbered
          cases numbered
        · exact inside
      exact ih apart (elsewhere one first known) (elsewhere other second same)
    | some here =>
      rw [filterMap_cons_some number,nodup_cons] at apart
      rcases mem_cons.mp first with rfl | inside <;> rcases mem_cons.mp second with rfl | within
      · rfl
      · rw [number] at known
        cases known
        exact absurd (later other within same) apart.1
      · rw [number] at same
        cases same
        exact absurd (later one inside known) apart.1
      · exact ih apart.2 inside within

theorem State.denoted_iff (state : State) (shareId account : String) :
    (∃ principal ∈ state.validUsers collate shareId, denotes state account principal.render.toList) ↔
      state.Reached shareId account := by
  constructor
  · rintro ⟨principal,listed,named⟩
    obtain ⟨grant,member,same,made⟩ := (state.mem_validUsers collate shareId principal).mp listed
    rcases (state.principal_joined grant principal).mp made with ⟨user,present,enabled,held,rfl⟩ | ⟨team,present,gid,known,held,rfl⟩
    · exact ⟨user,present,enabled,((denotes_render state account _).mp named).symm,grant,member,same,.inl held⟩
    · obtain ⟨other,there,numbered,user,within,enabled,uid,joined,name⟩ :=
        (state.mem_groupMembers gid account).mp ((denotes_render state account _).mp named)
      have one := numbered_once state.gids there present numbered known
      subst one
      exact ⟨user,within,enabled,name,grant,member,same,
        .inr ⟨uid,other,present,by rw [known]; exact Option.some_ne_none gid,held,joined⟩⟩
  · rintro ⟨user,present,enabled,rfl,grant,member,same,held | ⟨uid,team,there,numbered,held,joined⟩⟩
    · have made := (state.principal_joined grant (.user user.username)).mpr (.inl ⟨user,present,enabled,held,rfl⟩)
      exact ⟨_,(state.mem_validUsers collate shareId _).mpr ⟨grant,member,same,made⟩,(denotes_render state _ _).mpr rfl⟩
    · obtain ⟨gid,known⟩ := Option.ne_none_iff_exists'.mp numbered
      have made := (state.principal_joined grant (.group (teamGroup gid))).mpr (.inr ⟨team,there,gid,known,held,rfl⟩)
      exact ⟨_,(state.mem_validUsers collate shareId _).mpr ⟨grant,member,same,made⟩,(denotes_render state _ _).mpr
        ((state.mem_groupMembers gid _).mpr ⟨team,there,known,user,present,enabled,uid,joined,rfl⟩)⟩

theorem admitted_iff {machine : Machine} {state : State} {sections : List Section}
    (planned : plan machine.host (state.request collate) = .ok sections) {share : ShareRow} (member : share ∈ state.shares)
    (account : String) : Admitted state (render sections) share account ↔
      (¬state.Restricted share.id ∧ account ∈ state.logins) ∨ state.Reached share.id account := by
  have fits := planned_representable planned
  have pairs := paired (planned_asks planned)
  have requested : (state.request collate).map (fun spec => lower spec.name.text.toList) =
      state.shares.map (fun share => lower share.name.text.toList) := by
    rw [State.request,map_map]
    rfl
  have apart : (sections.map (fun share => lower share.name.toList)).Nodup := by
    rw [planned_names planned,requested]
    exact state.names
  have text : read (render sections).toList = outside::sections.map Section.asRead := by
    rw [read_render fits,merge_distinct ((apart_outside fits (fun share => (asked_around share).1)).mpr apart)]
  have whole (found : Section) (listed : found ∈ sections) (spec : ShareSpec) (asks : Asks machine.host spec found)
      (users : spec.validUsers = state.validUsers collate share.id) :
      admits state found.asRead account ↔ (¬state.Restricted share.id ∧ account ∈ state.logins) ∨
        state.Reached share.id account := by
    have written : found.validUsers = (state.validUsers collate share.id).map SmbPrincipal.render := by rw [asks.2,← users]
    rw [admits_asRead (fits found listed) written,state.validUsers_nil,state.denoted_iff]
  rw [Admitted,text]
  constructor
  · rintro ⟨found,listed,same,admitted⟩
    rcases mem_cons.mp listed with rfl | inside
    · obtain ⟨owner,within,asks⟩ := pairs.1 ⟨share.name,share.dataset,share.readOnly,state.validUsers collate share.id⟩
        (mem_map.mpr ⟨share,member,rfl⟩)
      have named : owner.name = share.name.text := by rw [asks.2]
      rw [← named] at same
      exact absurd same (outside_apart (fits owner within))
    · obtain ⟨owner,within,rfl⟩ := mem_map.mp inside
      obtain ⟨spec,asked,asks⟩ := pairs.2 owner within
      obtain ⟨other,there,rfl⟩ := mem_map.mp asked
      have named : owner.name = other.name.text := by rw [asks.2]
      rw [(asked_around owner).1,named] at same
      have one := inj_on_of_nodup_map state.names there member same
      subst one
      exact (whole owner within _ asks rfl).mp admitted
  · intro admitted
    obtain ⟨owner,within,asks⟩ := pairs.1 ⟨share.name,share.dataset,share.readOnly,state.validUsers collate share.id⟩
      (mem_map.mpr ⟨share,member,rfl⟩)
    have named : owner.name = share.name.text := by rw [asks.2]
    exact ⟨owner.asRead,mem_cons_of_mem _ (mem_map_of_mem within),by rw [(asked_around owner).1,named],
      (whole owner within _ asks rfl).mpr admitted⟩

theorem State.Reached.reachable {state : State} {shareId account : String} (reached : state.Reached shareId account) :
    state.Reachable shareId account := by
  obtain ⟨user,present,enabled,name,grant,member,same,held⟩ := reached
  refine ⟨user,present,enabled,name,grant,member,same,held.imp_right ?_⟩
  rintro ⟨-,team,-,-,held,joined⟩
  exact ⟨team.id,held,joined⟩

private theorem matched {α : Type} {relation : α → α → Prop} {old new : List α} (pairs : List.Forall₂ relation old new) {row : α}
    (member : row ∈ new) : ∃ other ∈ old, relation other row := by
  induction pairs with
  | nil => cases member
  | cons one _ ih =>
    rcases mem_cons.mp member with rfl | inside
    · exact ⟨_,mem_cons_self,one⟩
    · obtain ⟨other,there,related⟩ := ih inside
      exact ⟨other,mem_cons_of_mem _ there,related⟩

theorem Narrowed.reached {before after : State} (less : Narrowed before after) {shareId account : String}
    (reached : after.Reached shareId account) : before.Reached shareId account := by
  obtain ⟨user,present,enabled,rfl,grant,member,same,held⟩ := reached
  obtain ⟨old,there,id,name,uid,disabled⟩ := matched less.users present
  have active : old.disabled = false := by
    cases was : old.disabled with
    | false => rfl
    | true =>
      rw [disabled was] at enabled
      cases enabled
  refine ⟨old,there,active,by rw [name],grant,less.grants grant member,same,?_⟩
  rcases held with own | ⟨numbered,team,within,gid,held,joined⟩
  · exact .inl (by rw [own,id])
  · obtain ⟨former,stood,sameId,number⟩ := matched less.teams within
    have numberedBefore : former.posixGid ≠ none := by
      rcases number with kept | dropped
      · rw [← kept]
        exact gid
      · exact absurd dropped gid
    exact .inr ⟨by rw [← uid]; exact numbered,former,stood,numberedBefore,by rw [held,sameId],
      by rw [← sameId,← id]; exact less.members _ joined⟩

/-- A published section admits nobody but enabled users its grants reach, and a withdrawal admits
nobody new, just as long as the filters leave a name to write or nobody else can log in. -/
theorem access_narrows :
    (∀ (machine : Machine) (state : State) (sections : List Section),
      plan machine.host (state.request collate) = .ok sections → ∀ share ∈ state.shares,
      ((∀ account, Admitted state (render sections) share account → state.Reachable share.id account) ↔
        state.Restricted share.id ∨ ∀ account ∈ state.logins, state.Reachable share.id account)) ∧
    ∀ (first second : Machine) (before after : State) (sections later : List Section),
      plan first.host (before.request collate) = .ok sections → plan second.host (after.request collate) = .ok later →
      Narrowed before after → ∀ share ∈ before.shares,
      ((∀ account, Admitted after (render later) share account → Admitted before (render sections) share account) ↔
        after.Restricted share.id ∨ ¬before.Restricted share.id ∨ ∀ account ∈ after.logins, before.Reached share.id account) := by
  constructor
  · intro machine state sections planned share member
    constructor
    · intro inside
      by_cases restricted : state.Restricted share.id
      · exact .inl restricted
      · exact .inr (fun account login =>
          inside account ((admitted_iff collate planned member account).mpr (.inl ⟨restricted,login⟩)))
    · rintro closed account admitted
      rcases (admitted_iff collate planned member account).mp admitted with ⟨free,login⟩ | reached
      · exact closed.elim (fun restricted => absurd restricted free) (fun all => all account login)
      · exact reached.reachable
  · intro first second before after sections later planned replanned less share member
    have still : share ∈ after.shares := by
      rw [less.shares]
      exact member
    constructor
    · intro narrows
      by_cases restricted : after.Restricted share.id
      · exact .inl restricted
      · by_cases listed : before.Restricted share.id
        · refine .inr (.inr (fun account login => ?_))
          have now := narrows account ((admitted_iff collate replanned still account).mpr (.inl ⟨restricted,login⟩))
          exact ((admitted_iff collate planned member account).mp now).elim (fun free => absurd listed free.1) id
        · exact .inr (.inl listed)
    · intro closed account admitted
      apply (admitted_iff collate planned member account).mpr
      rcases (admitted_iff collate replanned still account).mp admitted with ⟨free,login⟩ | reached
      · rcases closed with restricted | unlisted | all
        · exact absurd restricted free
        · exact .inl ⟨unlisted,less.logins account login⟩
        · exact .inr (all account login)
      · exact .inr (less.reached reached)

private def storage : Machine := ⟨fun _ => true,fun _ => .ok "/tank/docs\n",fun _ _ _ => .ok ""⟩

private theorem docs_legal : refusal "docs" = none := by decide

private theorem aynur_legal : loginRefusal "aynur" = none := by decide

private theorem burak_legal : loginRefusal "burak" = none := by decide

private def docs : ShareRow := ⟨"s1",⟨"docs",docs_legal⟩,"tank/docs",false⟩

private theorem family_ids : ["u1","u2"].Nodup := by decide

private theorem nobody_twice {α : Type} : ([] : List α).Nodup := nodup_nil

private theorem docs_alone : (List.map (fun share : ShareRow => lower share.name.text.toList) [docs]).Nodup := nodup_singleton _

private def family (disabled : Bool) : State where
  users := [⟨"u1",⟨"aynur",aynur_legal⟩,none,disabled⟩,⟨"u2",⟨"burak",burak_legal⟩,none,false⟩]
  teams := []
  members := []
  grants := [⟨"s1",.user "u1"⟩]
  shares := [docs]
  logins := ["burak"]
  userIds := family_ids
  teamIds := nobody_twice
  gids := nobody_twice
  names := docs_alone

private def alphabetical (one other : String) : Bool := decide (one ≤ other)

private theorem family_planned (disabled : Bool) : plan storage.host ((family disabled).request alphabetical) =
    .ok [⟨"docs","/tank/docs",false,((family disabled).validUsers alphabetical "s1").map SmbPrincipal.render⟩] := by
  have mounted : storage.host.mountpoint "tank/docs" = .ok "/tank/docs" := by decide +kernel
  have named : checkShareName "docs" = .ok () := by decide +kernel
  have placed : checkMountpoint "tank/docs" "/tank/docs" = .ok () := by decide +kernel
  change plan storage.host [⟨docs.name,"tank/docs",false,(family disabled).validUsers alphabetical "s1"⟩] = _
  rw [plan,planOne]
  simp only [docs,named,mounted,placed,bind,Except.bind,pure,Except.pure,plan]

private theorem family_narrowed : Narrowed (family false) (family true) where
  shares := rfl
  users := .cons ⟨rfl,rfl,rfl,fun _ => rfl⟩ (.cons ⟨rfl,rfl,rfl,id⟩ .nil)
  teams := .nil
  members := fun _ member => member
  grants := fun _ member => member
  logins := fun _ member => member

private theorem family_restricted : (family false).Restricted "s1" :=
  ⟨⟨"s1",.user "u1"⟩,mem_cons_self,rfl,.inl ⟨_,mem_cons_self,rfl,rfl⟩⟩

private theorem burak_unreachable (disabled : Bool) : ¬(family disabled).Reachable "s1" "burak" := by
  rintro ⟨user,present,-,name,grant,member,-,held⟩
  cases mem_singleton.mp member
  rcases held with own | ⟨team,held,-⟩
  · rcases mem_pair.mp present with rfl | rfl
    · exact absurd (show "aynur" = "burak" from name) (by decide)
    · exact absurd (Holder.user.inj own) (by decide)
  · cases held

theorem access_narrows_family :
    ((∀ account, Admitted (family false) (render [⟨"docs","/tank/docs",false,((family false).validUsers alphabetical "s1").map
        SmbPrincipal.render⟩]) docs account → (family false).Reachable "s1" account) ↔
      (family false).Restricted "s1" ∨ ∀ account ∈ (family false).logins, (family false).Reachable "s1" account) ∧
    ((∀ account, Admitted (family true) (render [⟨"docs","/tank/docs",false,((family true).validUsers alphabetical "s1").map
        SmbPrincipal.render⟩]) docs account → Admitted (family false) (render [⟨"docs","/tank/docs",false,
          ((family false).validUsers alphabetical "s1").map SmbPrincipal.render⟩]) docs account) ↔
      (family true).Restricted "s1" ∨ ¬(family false).Restricted "s1" ∨
        ∀ account ∈ (family true).logins, (family false).Reached "s1" account) :=
  ⟨(access_narrows alphabetical).1 storage (family false) _ (family_planned false) docs mem_cons_self,
    (access_narrows alphabetical).2 storage storage (family false) (family true) _ _ (family_planned false) (family_planned true)
      family_narrowed docs mem_cons_self⟩

/-- Disabling the one user of a share lets in everyone who can log in. -/
theorem disabling_opens :
    Narrowed (family false) (family true) ∧ ¬(family true).Reachable "s1" "burak" ∧
    plan storage.host ((family true).request alphabetical) = .ok [⟨"docs","/tank/docs",false,[]⟩] ∧
    Admitted (family true) (render [⟨"docs","/tank/docs",false,[]⟩]) docs "burak" ∧
    ∃ sections, plan storage.host ((family false).request alphabetical) = .ok sections ∧
      ¬Admitted (family false) (render sections) docs "burak" := by
  have free : ¬(family true).Restricted "s1" := by
    rintro ⟨grant,member,-,⟨user,present,enabled,held⟩ | ⟨team,present,-⟩⟩
    · cases mem_singleton.mp member
      rcases mem_pair.mp present with rfl | rfl
      · cases enabled
      · exact absurd (Holder.user.inj held) (by decide)
    · cases present
  have planned := family_planned true
  rw [((family true).validUsers_nil alphabetical "s1").mpr free] at planned
  refine ⟨family_narrowed,burak_unreachable true,planned,?_,_,family_planned false,fun admitted => ?_⟩
  · exact (admitted_iff alphabetical planned mem_cons_self "burak").mpr (.inl ⟨free,mem_cons_self⟩)
  · rcases (admitted_iff alphabetical (family_planned false) mem_cons_self "burak").mp admitted with ⟨unlisted,-⟩ | reached
    · exact unlisted family_restricted
    · exact burak_unreachable false reached.reachable

end Depsis.Shares

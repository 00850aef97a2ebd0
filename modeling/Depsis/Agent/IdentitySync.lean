import Depsis.Agent.Identity
import Depsis.Foundation.Resume

/-! A sync as a list of stages, each of which does nothing on a machine it has already
been through.
-/
namespace Depsis.Agent

open Depsis.Foundation Depsis.Foundation.Faults Depsis.Foundation.Resume List

inductive Work where
  | group (gid : PosixId) (name : String)
  | user (uid : PosixId) (login : PosixName) (primary : String)
  | members (name : String) (logins : List String)
  | samba
  | imported

namespace Work

def stage : Work → Stage Box
  | .group gid name => fun box =>
    if (box.group (toString gid.value)).isSome then some box else (groupadd gid.value name box).toOption
  | .user uid login primary => fun box =>
    if (box.passwd (toString uid.value)).isSome then some box else (useradd uid.value primary login box).toOption
  | .members name logins => fun box => (gpasswd logins name box).toOption
  | .samba => fun box => if box.samba then some box else none
  | .imported => some

def done (box : Box) : Work → Prop
  | .group gid _ => (box.group (toString gid.value)).isSome
  | .user uid _ _ => (box.passwd (toString uid.value)).isSome
  | .members name logins => (∃ held ∈ box.groups, held.name = name) ∧
      (∀ held ∈ box.groups, held.name = name → held.members = logins) ∧
        ∀ login ∈ logins, ∃ account ∈ box.accounts, account.login = login
  | .samba => box.samba = true
  | .imported => True

end Work

def userWork (users : List UserSpec) : List Work :=
  users.flatMap (fun user => [.group user.uid (privateGroupName user.uid),
    .user user.uid user.login (privateGroupName user.uid)])

def groupWork (users : List UserSpec) (groups : List GroupSpec) : List Work :=
  groups.flatMap (fun group => [.group group.gid (teamGroupName group.gid),
    .members (teamGroupName group.gid) (memberLogins users group.members)])

def passwordWork (users : List UserSpec) : List Work :=
  if (users.filter (fun user => user.ntHash.isSome)).isEmpty then [] else [.samba,.imported,.imported]

def allWork (users : List UserSpec) (groups : List GroupSpec) : List Work :=
  userWork users ++ (groupWork users groups ++ passwordWork users)

theorem keyNumber_id (id : PosixId) : keyNumber (toString id.value) = some id.value := by
  have digits : (toString id.value).toList = Nat.toDigits 10 id.value := by
    change (Nat.repr id.value).toList = _
    simp
  have filled : Nat.toDigits 10 id.value ≠ [] := by simp
  have numeric : (Nat.toDigits 10 id.value).all Char.isDigit = true :=
    all_eq_true.mpr (fun character member => Nat.isDigit_of_mem_toDigits (by omega) (by omega) member)
  rw [keyNumber,digits,if_pos ⟨filled,numeric⟩,Nat.ofDigitChars_toDigits (by omega) (by omega)]
  have := id.bounded
  congr 1
  omega

theorem passwd_id (box : Box) (uid : PosixId) : box.passwd (toString uid.value) = box.byUid uid.value := by
  rw [Box.passwd,keyNumber_id]

theorem group_id (box : Box) (gid : PosixId) :
    box.group (toString gid.value) = box.groups.find? (fun group => group.gid = gid.value) := by
  rw [Box.group,keyNumber_id]

variable {box later : Box}

theorem groupadd_ok {gid : Nat} {name : String} (added : (groupadd gid name box).toOption = some later) :
    (∀ group ∈ box.groups, group.name ≠ name) ∧ later = {box with groups := box.groups ++ [⟨name,gid,[]⟩]} := by
  unfold groupadd at added
  split at added
  next => cases added
  next named =>
    split at added <;> cases added
    exact ⟨fun group member same => named (any_eq_true.mpr ⟨group,member,decide_eq_true same⟩),rfl⟩

theorem useradd_ok {uid : Nat} {group : String} {login : PosixName}
    (added : (useradd uid group login box).toOption = some later) :
    ∃ account : Account, account.login = login.text ∧ account.uid = uid ∧
      (∀ known ∈ box.accounts, known.login ≠ login.text) ∧ later.accounts = box.accounts ++ [account] ∧
        later.groups = box.groups ∧ later.samba = box.samba := by
  unfold useradd at added
  split at added
  next => cases added
  next fresh =>
    split at added
    next => cases added
    next =>
      split at added <;> cases added
      next primary _ =>
        exact ⟨⟨login.text,uid,primary.gid,NOLOGIN,login.plain⟩,rfl,rfl,fun known member same =>
          fresh (any_eq_true.mpr ⟨known,member,decide_eq_true same⟩),rfl,rfl,rfl⟩

theorem gpasswd_ok {logins : List String} {name : String}
    (set : (gpasswd logins name box).toOption = some later) :
    (∃ group ∈ box.groups, group.name = name) ∧ (∀ login ∈ logins, ∃ account ∈ box.accounts, account.login = login) ∧
      later = {box with groups := box.groups.map (fun group => if group.name = name then {group with members := logins} else group)} := by
  unfold gpasswd at set
  split at set
  next => cases set
  next named =>
    split at set <;> cases set
    next known =>
      refine ⟨?_,fun login member => ?_,rfl⟩
      · rw [all_eq_true] at named
        push Not at named
        obtain ⟨group,member,same⟩ := named
        exact ⟨group,member,by simpa using same⟩
      · have there := find?_eq_none.mp known login member
        rw [all_eq_true] at there
        push Not at there
        obtain ⟨account,listed,same⟩ := there
        exact ⟨account,listed,by simpa using same⟩

theorem gpasswd_known {logins : List String} {name : String} {box : Box} (there : ∃ group ∈ box.groups, group.name = name)
    (known : ∀ login ∈ logins, ∃ account ∈ box.accounts, account.login = login) :
    ∃ later, gpasswd logins name box = .ok later ∧ later.accounts = box.accounts ∧
      later = {box with groups := box.groups.map (fun group => if group.name = name then {group with members := logins} else group)} := by
  have named : ¬(box.groups.all (fun group => group.name ≠ name)) = true := by
    obtain ⟨group,member,same⟩ := there
    rw [all_eq_true]
    exact fun apart => of_decide_eq_true (apart group member) same
  have everyone : logins.find? (fun login => box.accounts.all (fun account => account.login ≠ login)) = none := by
    refine find?_eq_none.mpr (fun login listed => ?_)
    obtain ⟨account,held,same⟩ := known login listed
    rw [all_eq_true]
    exact fun apart => of_decide_eq_true (apart account held) same
  rw [gpasswd,if_neg named,everyone]
  exact ⟨_,rfl,rfl,rfl⟩

variable {item : Work}

theorem stage_cases (through : item.stage box = some later) :
    later = box ∨
      (∃ gid name, item = .group gid name ∧ (∀ group ∈ box.groups, group.name ≠ name) ∧
        later = {box with groups := box.groups ++ [⟨name,gid.value,[]⟩]}) ∨
      (∃ uid login primary account, item = .user uid login primary ∧ account.login = login.text ∧
        account.uid = uid.value ∧ (∀ known ∈ box.accounts, known.login ≠ login.text) ∧
          later.accounts = box.accounts ++ [account] ∧ later.groups = box.groups ∧ later.samba = box.samba) ∨
      ∃ name logins, item = .members name logins ∧ (∃ group ∈ box.groups, group.name = name) ∧
        (∀ login ∈ logins, ∃ account ∈ box.accounts, account.login = login) ∧
          later = {box with groups := box.groups.map (fun group => if group.name = name then {group with members := logins} else group)} := by
  cases item with
  | group gid name =>
    change (if _ then _ else _) = _ at through
    split at through
    next =>
      cases through
      exact .inl rfl
    next => exact .inr (.inl ⟨gid,name,rfl,groupadd_ok through⟩)
  | user uid login primary =>
    change (if _ then _ else _) = _ at through
    split at through
    next =>
      cases through
      exact .inl rfl
    next =>
      obtain ⟨account,named,numbered,fresh,joined,groups,samba⟩ := useradd_ok through
      exact .inr (.inr (.inl ⟨uid,login,primary,account,rfl,named,numbered,fresh,joined,groups,samba⟩))
  | members name logins =>
    obtain ⟨there,known,shape⟩ := gpasswd_ok through
    exact .inr (.inr (.inr ⟨name,logins,rfl,there,known,shape⟩))
  | samba =>
    change (if _ then _ else _) = _ at through
    split at through <;> cases through
    exact .inl rfl
  | imported =>
    cases through
    exact .inl rfl

theorem stage_reaches (through : item.stage box = some later) : item.done later := by
  cases item with
  | group gid name =>
    change (if _ then _ else _) = _ at through
    split at through
    next known =>
      cases through
      exact known
    next =>
      obtain ⟨_,rfl⟩ := groupadd_ok through
      change (Option.isSome _) = true
      rw [group_id,find?_isSome]
      exact ⟨⟨name,gid.value,[]⟩,mem_append_right _ mem_cons_self,decide_eq_true rfl⟩
  | user uid login primary =>
    change (if _ then _ else _) = _ at through
    split at through
    next known =>
      cases through
      exact known
    next =>
      obtain ⟨account,_,numbered,_,joined,_⟩ := useradd_ok through
      change (Option.isSome _) = true
      rw [passwd_id,Box.byUid,find?_isSome,joined]
      exact ⟨account,mem_append_right _ mem_cons_self,decide_eq_true numbered⟩
  | members name logins =>
    obtain ⟨⟨group,member,named⟩,known,rfl⟩ := gpasswd_ok through
    refine ⟨⟨_,mem_map_of_mem member,?_⟩,fun changed listed same => ?_,known⟩
    · rw [if_pos named]
      exact named
    · obtain ⟨old,_,rfl⟩ := mem_map.mp listed
      by_cases renamed : old.name = name
      · rw [if_pos renamed]
      · rw [if_neg renamed] at same
        exact absurd same renamed
  | samba =>
    change (if _ then _ else _) = _ at through
    split at through <;> cases through
    next installed => exact installed
  | imported => trivial

theorem stage_idle {box : Box} (finished : item.done box) : item.stage box = some box := by
  cases item with
  | group gid name => exact if_pos finished
  | user uid login primary => exact if_pos finished
  | members name logins =>
    obtain ⟨there,set,known⟩ := finished
    obtain ⟨later,ran,_,shape⟩ := gpasswd_known there known
    have same : box.groups.map (fun group => if group.name = name then {group with members := logins} else group) = box.groups := by
      refine (map_congr_left (fun old listed => ?_)).trans (map_id _)
      split
      next same =>
        rw [← set old listed same]
        rfl
      next => rfl
    change (gpasswd logins name box).toOption = _
    rw [ran,shape,same]
    rfl
  | samba => exact if_pos finished
  | imported => rfl

theorem stage_kept {item other : Work}
    (apart : ∀ name logins others, item = .members name logins → other = .members name others → others = logins)
    (finished : item.done box) (through : other.stage box = some later) : item.done later := by
  rcases stage_cases through with rfl | ⟨gid,name,rfl,fresh,rfl⟩ | ⟨uid,login,primary,account,rfl,_,_,_,joined,groups,samba⟩ |
    ⟨name,logins,rfl,_,_,rfl⟩
  · exact finished
  · cases item with
    | group one _ =>
      change (Option.isSome _) = true at finished ⊢
      rw [group_id,find?_isSome] at finished ⊢
      obtain ⟨group,member,same⟩ := finished
      exact ⟨group,mem_append_left _ member,same⟩
    | user => exact finished
    | members set logins =>
      obtain ⟨⟨group,member,named⟩,settled,known⟩ := finished
      refine ⟨⟨group,mem_append_left _ member,named⟩,fun held listed same => ?_,known⟩
      rcases mem_append.mp listed with old | new
      · exact settled held old same
      · cases mem_singleton.mp new
        exact absurd (named.trans same.symm) (fresh group member)
    | samba => exact finished
    | imported => trivial
  · cases item with
    | group one _ =>
      change (Option.isSome _) = true at finished ⊢
      rw [group_id] at finished ⊢
      rwa [groups]
    | user one _ _ =>
      change (Option.isSome _) = true at finished ⊢
      rw [passwd_id,Box.byUid,find?_isSome] at finished ⊢
      obtain ⟨known,member,same⟩ := finished
      rw [joined]
      exact ⟨known,mem_append_left _ member,same⟩
    | members set logins =>
      change _ ∧ _ at finished ⊢
      rw [groups,joined]
      obtain ⟨there,settled,known⟩ := finished
      refine ⟨there,settled,fun login listed => ?_⟩
      obtain ⟨old,member,same⟩ := known login listed
      exact ⟨old,mem_append_left _ member,same⟩
    | samba =>
      change later.samba = true
      rw [samba]
      exact finished
    | imported => trivial
  · cases item with
    | group one _ =>
      change (Option.isSome _) = true at finished ⊢
      rw [group_id,find?_isSome] at finished ⊢
      obtain ⟨group,member,same⟩ := finished
      refine ⟨_,mem_map_of_mem member,?_⟩
      split <;> exact same
    | user => exact finished
    | members set settledLogins =>
      obtain ⟨⟨group,member,named⟩,settled,known⟩ := finished
      refine ⟨⟨_,mem_map_of_mem member,?_⟩,fun held listed same => ?_,known⟩
      · split <;> exact named
      · obtain ⟨old,before,rfl⟩ := mem_map.mp listed
        by_cases renamed : old.name = name
        · rw [if_pos renamed] at same ⊢
          have one : set = name := same.symm.trans renamed
          subst one
          exact apart set settledLogins logins rfl rfl
        · rw [if_neg renamed] at same ⊢
          exact settled old before same
    | samba => exact finished
    | imported => trivial

theorem command_performs (work : Box → Except SeamError Box) :
    Performs (command work) [fun box => (work box).toOption] := by
  refine Performs.operation (fun box => ?_) (fun mishap box => ?_)
  · cases work box <;> rfl
  · change (if mishap.took then _ else _ : Box) = box ∨ _
    split
    next =>
      cases found : work box with
      | error e => exact .inl rfl
      | ok later => exact .inr rfl
    next => exact .inl rfl

theorem ensureGroup_performs (gid : PosixId) (name : String) :
    Performs (ensureGroup gid.value name) [Work.stage (.group gid name)] :=
  Performs.choose (Performs.idle false) ((command_performs _).named.bind (fun _ => Performs.pure true))

theorem ensureUser_performs (uid : PosixId) (login : PosixName) (primary : String) :
    Performs (ensureUser uid.value login primary) [Work.stage (.user uid login primary)] :=
  Performs.choose (Performs.idle false) ((command_performs _).named.bind (fun _ => Performs.pure true))

theorem makeUsers_performs (users : List UserSpec) : Performs (makeUsers users) ((userWork users).map Work.stage) := by
  induction users with
  | nil => exact Performs.pure _
  | cons user rest ih =>
    exact (ensureGroup_performs _ _).bind (fun groupMade => (ensureUser_performs _ _ _).bind (fun userMade =>
      ih.answers (fun others => (counted userMade + others.1,counted groupMade + others.2))))

theorem makeGroups_performs (users : List UserSpec) (groups : List GroupSpec) :
    Performs (makeGroups users groups) ((groupWork users groups).map Work.stage) := by
  induction groups with
  | nil => exact Performs.pure _
  | cons group rest ih =>
    exact (ensureGroup_performs _ _).bind (fun made => (command_performs _).named.bind (fun _ =>
      ih.answers (fun others => counted made + others)))

theorem importPasswords_performs : Performs importPasswords ([.imported,.imported].map Work.stage) :=
  (command_performs _).named.bind (fun _ => (command_performs _).named)

theorem setPasswords_performs (users : List UserSpec) :
    Performs (setPasswords users) ((passwordWork users).map Work.stage) := by
  unfold setPasswords passwordWork
  by_cases none : (users.filter (fun user => user.ntHash.isSome)).isEmpty = true
  · rw [if_pos none]
    simp only [none,if_true]
    exact Performs.pure _
  · rw [if_neg none]
    simp only [none]
    refine Performs.bind (Performs.observe (fun box => ?_)) (fun _ => importPasswords_performs.answers _)
    cases installed : box.samba <;> simp [Work.stage,installed,Except.toOption]

theorem makeAll_performs (users : List UserSpec) (groups : List GroupSpec) :
    Performs (makeAll users groups) ((allWork users groups).map Work.stage) := by
  rw [allWork,map_append,map_append]
  exact (makeUsers_performs users).bind (fun made => (makeGroups_performs users groups).bind (fun teams =>
    (setPasswords_performs users).answers (fun passwords =>
      (⟨made.1,made.2 + teams,passwords⟩ : SyncOutcome))))

theorem settled_run {ε α : Type} {step : BoxStep ε α} {items : List Work} (performs : Performs step (items.map Work.stage))
    {world after : World Mishap Box} {answer : Except ε α} (settled : ∀ item ∈ items, item.done world.store)
    (run : step world = (answer,after)) : after.store = world.store := by
  refine @Reached.invariant _ _ _ _ (fun box => box = world.store) (performs.reached world answer after run)
    (fun stage member before later same through => ?_) rfl
  obtain ⟨item,listed,rfl⟩ := mem_map.mp member
  subst before
  rw [stage_idle (settled item listed)] at through
  exact (Option.some.inj through).symm

theorem ensureGroup_known {gid : Nat} {name : String} {world : World Mishap Box}
    (known : (world.store.group (toString gid)).isSome) : ensureGroup gid name world = (.ok false,world) := by
  rw [ensureGroup,bind_run]
  change (if (world.store.group (toString gid)).isSome = true then _ else _ : BoxStep IdentityError Bool) world = _
  rw [if_pos known]
  rfl

theorem ensureUser_known {uid : Nat} {login : PosixName} {primary : String} {world : World Mishap Box}
    (known : (world.store.passwd (toString uid)).isSome) : ensureUser uid login primary world = (.ok false,world) := by
  rw [ensureUser,bind_run]
  change (if (world.store.passwd (toString uid)).isSome = true then _ else _ : BoxStep IdentityError Bool) world = _
  rw [if_pos known]
  rfl

theorem makeUsers_known {users : List UserSpec} {world : World Mishap Box}
    (settled : ∀ item ∈ userWork users, item.done world.store) : makeUsers users world = (.ok (0,0),world) := by
  induction users with
  | nil => rfl
  | cons user rest ih =>
    have grouped := settled _ mem_cons_self
    have named := settled _ (mem_cons_of_mem _ mem_cons_self)
    rw [makeUsers,bind_run,ensureGroup_known grouped]
    change ((_ : BoxStep IdentityError Bool) >>= _ : BoxStep IdentityError (Nat × Nat)) world = _
    rw [bind_run,ensureUser_known named]
    change ((_ : BoxStep IdentityError (Nat × Nat)) >>= _ : BoxStep IdentityError (Nat × Nat)) world = _
    rw [bind_run,ih (fun item member => settled item (mem_cons_of_mem _ (mem_cons_of_mem _ member)))]
    rfl

theorem makeGroups_known {users : List UserSpec} {groups : List GroupSpec} {world after : World Mishap Box} {made : Nat}
    (settled : ∀ item ∈ groupWork users groups, item.done world.store)
    (run : makeGroups users groups world = (.ok made,after)) : made = 0 := by
  induction groups generalizing world made after with
  | nil =>
    exact Except.ok.inj (pure_run run).1
  | cons group rest ih =>
    have grouped := settled _ mem_cons_self
    have member := settled _ (mem_cons_of_mem _ mem_cons_self)
    rw [makeGroups,bind_run,ensureGroup_known grouped] at run
    obtain ⟨_,set,setting,run⟩ := bind_ok run
    obtain ⟨others,last,making,run⟩ := bind_ok run
    have unchanged : set.store = world.store := @settled_run _ _ _ [.members _ _] (command_performs _).named _ _ _
      (fun item listed => by
        cases mem_singleton.mp listed
        exact member) setting
    have none := ih (fun item listed => by
      rw [unchanged]
      exact settled item (mem_cons_of_mem _ (mem_cons_of_mem _ listed))) making
    injection (pure_run run).1 with same
    rw [same,none]
    rfl

theorem teamGroupName_injective {one other : PosixId} (same : teamGroupName one = teamGroupName other) :
    one.value = other.value := by
  have texts := congrArg String.toList same
  rw [teamGroupName,teamGroupName,String.toList_append,String.toList_append] at texts
  have numbers := String.toList_inj.mp (append_cancel_left texts)
  have read := keyNumber_id one
  rw [numbers,keyNumber_id other] at read
  exact (Option.some.inj read).symm

structure Distinct (users : List UserSpec) (groups : List GroupSpec) : Prop where
  uids : (users.map (fun user => user.uid.value)).Nodup
  logins : (users.map (fun user => user.login.text)).Nodup
  gids : (groups.map (fun group => group.gid.value)).Nodup

/-- No login is a numeral that `getent` reads as another requested uid. -/
def Unmistaken (users : List UserSpec) : Prop :=
  ∀ user ∈ users, ∀ other ∈ users, keyNumber user.login.text = some other.uid.value → user.uid.value = other.uid.value

section Request

variable {users : List UserSpec} {groups : List GroupSpec} (distinct : Distinct users groups)

theorem mem_userWork (member : item ∈ userWork users) : ∃ user ∈ users,
    item = .group user.uid (privateGroupName user.uid) ∨ item = .user user.uid user.login (privateGroupName user.uid) := by
  obtain ⟨user,listed,inside⟩ := mem_flatMap.mp member
  rcases mem_cons.mp inside with first | second
  · exact ⟨user,listed,.inl first⟩
  · exact ⟨user,listed,.inr (mem_singleton.mp second)⟩

theorem mem_groupWork (member : item ∈ groupWork users groups) : ∃ group ∈ groups,
    item = .group group.gid (teamGroupName group.gid) ∨
      item = .members (teamGroupName group.gid) (memberLogins users group.members) := by
  obtain ⟨group,listed,inside⟩ := mem_flatMap.mp member
  rcases mem_cons.mp inside with first | second
  · exact ⟨group,listed,.inl first⟩
  · exact ⟨group,listed,.inr (mem_singleton.mp second)⟩

theorem mem_passwordWork (member : item ∈ passwordWork users) : item = .samba ∨ item = .imported := by
  unfold passwordWork at member
  split at member
  next => cases member
  next =>
    simp only [mem_cons,not_mem_nil,or_false] at member
    rcases member with rfl | rfl | rfl <;> simp

theorem mem_allWork (member : item ∈ allWork users groups) :
    (∃ user ∈ users, item = .group user.uid (privateGroupName user.uid) ∨
        item = .user user.uid user.login (privateGroupName user.uid)) ∨
      (∃ group ∈ groups, item = .group group.gid (teamGroupName group.gid) ∨
        item = .members (teamGroupName group.gid) (memberLogins users group.members)) ∨ item = .samba ∨ item = .imported := by
  rcases mem_append.mp member with inside | inside
  · exact .inl (mem_userWork inside)
  rcases mem_append.mp inside with inside | inside
  · exact .inr (.inl (mem_groupWork inside))
  · exact .inr (.inr (mem_passwordWork inside))

include distinct

theorem members_unique {name : String} {logins others : List String} (one : Work.members name logins ∈ allWork users groups)
    (other : Work.members name others ∈ allWork users groups) : others = logins := by
  rcases mem_allWork one with ⟨_,_,wrong | wrong⟩ | ⟨first,listed,wrong | same⟩ | wrong | wrong <;> try cases wrong
  rcases mem_allWork other with ⟨_,_,wrong | wrong⟩ | ⟨second,known,wrong | again⟩ | wrong | wrong <;> try cases wrong
  injection same with names logins
  injection again with names' others
  have value := teamGroupName_injective (names.symm.trans names')
  have one := inj_on_of_nodup_map distinct.gids listed known value
  rw [logins,others,one]

theorem work_lasting : Lasting ((allWork users groups).map Work.stage) :=
  Lasting.of_effects (fun _ _ _ _ through => stage_reaches through) (fun _ _ _ finished => stage_idle finished)
    (fun item member other among _ _ finished through => stage_kept (fun name logins others one two => by
      subst one
      subst two
      exact members_unique distinct member among) finished through)

end Request

end Depsis.Agent

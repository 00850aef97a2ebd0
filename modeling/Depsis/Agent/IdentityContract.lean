import Depsis.Agent.IdentitySync

/-! What a sync and a removal promise of the machine, and the requests for which they
keep it: no login may be a numeral that `getent` takes for another requested uid.
-/
namespace Depsis.Agent

open Depsis.Foundation Depsis.Foundation.Faults Depsis.Foundation.Resume List Bool

def otherAccount (users : List UserSpec) (account : Account) : Bool :=
  users.all (fun user => user.login.text ≠ account.login)

def otherGroup (users : List UserSpec) (groups : List GroupSpec) (held : Group) : Bool :=
  users.all (fun user => privateGroupName user.uid ≠ held.name) && groups.all (fun group => teamGroupName group.gid ≠ held.name)

/-- Every requested account and membership is in place, and nothing not named has changed. -/
structure Established (users : List UserSpec) (groups : List GroupSpec) (before after : Box) : Prop where
  accounts : ∀ user ∈ users, ∃ account, after.byLogin user.login.text = some account ∧
    account.uid = user.uid.value ∧ after.byUid user.uid.value = some account
  members : ∀ group ∈ groups, (∃ held ∈ after.groups, held.name = teamGroupName group.gid) ∧
    ∀ held ∈ after.groups, held.name = teamGroupName group.gid →
      ∀ login, login ∈ held.members ↔ ∃ user ∈ users, user.uid ∈ group.members ∧ user.login.text = login
  otherAccounts : after.accounts.filter (otherAccount users) = before.accounts.filter (otherAccount users)
  otherGroups : after.groups.filter (otherGroup users groups) = before.groups.filter (otherGroup users groups)

def IdentityError.isRefusal : IdentityError → Bool
  | .notOurs _ _ => true
  | .uidTaken _ _ _ => true
  | _ => false

def RemovesOnly (uid : PosixId) (login : PosixName) (before after : Box) : Prop :=
  after.accounts = before.accounts ∨
    ∃ front account rest, before.accounts = front ++ account::rest ∧ after.accounts = front ++ rest ∧
      account.login = login.text ∧ account.uid = uid.value

/-- The contract of `sync` for one request on one machine, whichever commands fail. -/
structure Contract (users : List UserSpec) (groups : List GroupSpec) (box : Box) : Prop where
  refused : ∀ fates e after, sync users groups ⟨box,fates⟩ = (.error e,after) → e.isRefusal = true → after.store = box
  established : ∀ fates outcome after, sync users groups ⟨box,fates⟩ = (.ok outcome,after) →
    Established users groups box after.store
  again : ∀ fates answer after, sync users groups ⟨box,fates⟩ = (answer,after) →
    (sync users groups ⟨after.store,[]⟩).2.store = (sync users groups ⟨box,[]⟩).2.store ∧
      (sync users groups ⟨after.store,[]⟩).1.isOk = (sync users groups ⟨box,[]⟩).1.isOk
  nothingCreated : ∀ fates outcome after, sync users groups ⟨box,fates⟩ = (.ok outcome,after) →
    ∀ later answer final, sync users groups ⟨after.store,later⟩ = (answer,final) → final.store = after.store ∧
      ∀ repeated, answer = .ok repeated → repeated.usersCreated = 0 ∧ repeated.groupsCreated = 0
  removal : ∀ uid login fates answer after, remove uid login ⟨box,fates⟩ = (answer,after) →
    RemovesOnly uid login box after.store

theorem checkNumber_ok {box : Box} {uid : PosixId} {login : PosixName} : checkNumber box uid login = .ok () ↔
    ∀ account, box.byUid uid.value = some account → account.login = login.text := by
  rw [checkNumber,loginOf,passwd_id]
  cases box.byUid uid.value with
  | none => simp
  | some account =>
    by_cases same : account.login = login.text <;> simp [same]

theorem checkUser_ok {box : Box} {user : UserSpec} : checkUser box user = .ok () ↔
    (∀ account, box.passwd user.login.text = some account → account.uid = user.uid.value) ∧
      ∀ account, box.byUid user.uid.value = some account → account.login = user.login.text := by
  rw [checkUser,uidOf,← checkNumber_ok]
  cases box.passwd user.login.text with
  | none => simp
  | some account =>
    by_cases same : account.uid = user.uid.value
    · simp [same]
    · by_cases reserved : isReserved account.uid = true <;> simp [same,reserved]

theorem checkUsers_ok {box : Box} {users : List UserSpec} :
    checkUsers box users = .ok () ↔ ∀ user ∈ users, checkUser box user = .ok () := by
  induction users with
  | nil => simp [checkUsers]
  | cons user rest ih =>
    rw [checkUsers,forall_mem_cons]
    cases checkUser box user with
    | error e => simp
    | ok => simpa using ih

theorem sync_run {users : List UserSpec} {groups : List GroupSpec} {world : World Mishap Box}
    (passed : checkUsers world.store users = .ok ()) : sync users groups world = makeAll users groups world := by
  have answered : (observe (fun box => checkUsers box users) : BoxStep IdentityError Unit) world = (.ok (),world) :=
    congrArg (·,world) passed
  rw [sync,bind_run,answered]

theorem sync_refused {users : List UserSpec} {groups : List GroupSpec} {world : World Mishap Box} {e : IdentityError}
    (failed : checkUsers world.store users = .error e) : sync users groups world = (.error e,world) := by
  have answered : (observe (fun box => checkUsers box users) : BoxStep IdentityError Unit) world = (.error e,world) :=
    congrArg (·,world) failed
  rw [sync,bind_run,answered]

def Plain (e : IdentityError) : Prop := e.isRefusal = false

theorem named_plain {words : SeamError → String} {step : BoxStep SeamError Unit} :
    Raises Plain (named (fun e => .io (words e)) step) := Raises.named (fun _ => rfl)

theorem ensureGroup_raises (gid : Nat) (name : String) : Raises Plain (ensureGroup gid name) := by
  refine (Raises.observe (fun _ _ wrong => by cases wrong)).bind (fun known => ?_)
  split
  next => exact Raises.pure _
  next => exact named_plain.bind (fun _ => Raises.pure _)

theorem ensureUser_raises (uid : Nat) (login : PosixName) (primary : String) :
    Raises Plain (ensureUser uid login primary) := by
  refine (Raises.observe (fun _ _ wrong => by cases wrong)).bind (fun known => ?_)
  split
  next => exact Raises.pure _
  next => exact named_plain.bind (fun _ => Raises.pure _)

theorem makeUsers_raises (users : List UserSpec) : Raises Plain (makeUsers users) := by
  induction users with
  | nil => exact Raises.pure _
  | cons user rest ih =>
    exact (ensureGroup_raises _ _).bind (fun _ => (ensureUser_raises _ _ _).bind (fun _ => ih.bind (fun _ => Raises.pure _)))

theorem makeGroups_raises (users : List UserSpec) (groups : List GroupSpec) :
    Raises Plain (makeGroups users groups) := by
  induction groups with
  | nil => exact Raises.pure _
  | cons group rest ih =>
    exact (ensureGroup_raises _ _).bind (fun _ => named_plain.bind (fun _ => ih.bind (fun _ => Raises.pure _)))

theorem setPasswords_raises (users : List UserSpec) : Raises Plain (setPasswords users) := by
  unfold setPasswords
  by_cases none : (users.filter (fun user => user.ntHash.isSome)).isEmpty = true
  · simp only [none,if_true]
    exact Raises.pure _
  · simp only [none]
    refine (Raises.observe (fun box e failed => ?_)).bind (fun _ => Raises.bind ?_ (fun _ => Raises.pure _))
    · split at failed
      next => cases failed
      next =>
        cases failed
        rfl
    · exact named_plain.bind (fun _ => named_plain)

theorem makeAll_raises (users : List UserSpec) (groups : List GroupSpec) :
    Raises Plain (makeAll users groups) :=
  (makeUsers_raises users).bind (fun _ => (makeGroups_raises users groups).bind (fun _ =>
    (setPasswords_raises users).bind (fun _ => Raises.pure _)))

theorem found_spec {α : Type} {holds : α → Prop} [DecidablePred holds] {items : List α} {found : α}
    (first : items.find? (fun item => holds item) = some found) : holds found ∧ found ∈ items :=
  ⟨of_decide_eq_true (@find?_some _ (fun item => decide (holds item)) _ _ first),mem_of_find?_eq_some first⟩

theorem byLogin_of_mem {box : Box} {account : Account} (member : account ∈ box.accounts) :
    box.byLogin account.login = some account := by
  rcases found : box.byLogin account.login with _ | other
  · exact absurd (decide_eq_true rfl) (find?_eq_none.mp found account member)
  · rw [Box.byLogin] at found
    obtain ⟨same,listed⟩ := found_spec found
    rw [inj_on_of_nodup_map box.distinct listed member same]

theorem mem_memberLogins {users : List UserSpec} (uids : (users.map (fun user => user.uid.value)).Nodup)
    {members : List PosixId} {login : String} :
    login ∈ memberLogins users members ↔ ∃ user ∈ users, user.uid ∈ members ∧ user.login.text = login := by
  refine ⟨fun inside => ?_,fun ⟨user,listed,among,same⟩ => ?_⟩
  · obtain ⟨uid,among,found⟩ := mem_filterMap.mp inside
    obtain ⟨user,first,same⟩ := Option.map_eq_some_iff.mp found
    have value := (found_spec first).1
    have id : user.uid = uid := by
      cases hu : user.uid
      cases uid
      rw [hu] at value
      cases value
      rfl
    exact ⟨user,mem_of_find?_eq_some first,id ▸ among,same⟩
  · refine mem_filterMap.mpr ⟨user.uid,among,?_⟩
    rcases found : users.find? (fun other => other.uid.value = user.uid.value) with _ | other
    · exact absurd (decide_eq_true rfl) (find?_eq_none.mp found user listed)
    · obtain ⟨value,inside⟩ := found_spec found
      rw [found,Option.map_some,inj_on_of_nodup_map uids inside listed value,same]

theorem userdel_ok {login : String} {box later : Box} (removed : userdel login box = .ok later) :
    ∃ front account rest, box.accounts = front ++ account::rest ∧ later.accounts = front ++ rest ∧ account.login = login := by
  unfold userdel at removed
  split at removed <;> cases removed
  next there =>
    rw [all_eq_true] at there
    push Not at there
    obtain ⟨account,member,named⟩ := there
    obtain ⟨gone,front,rest,_,same,split,left⟩ := exists_of_eraseP member
      (p := fun account => account.login = login) (by simpa using named)
    exact ⟨front,gone,rest,split,left,of_decide_eq_true same⟩

theorem checkRemoval_ok {box : Box} {uid : PosixId} {login : PosixName} (passed : checkRemoval box uid login = .ok ())
    {found : Nat} (present : uidOf box login.text = some found) {account : Account} (member : account ∈ box.accounts)
    (named : account.login = login.text) : account.uid = uid.value := by
  rw [checkRemoval,present] at passed
  have number : found = uid.value := by
    by_contra different
    simp only [ne_eq,different,not_false_eq_true,if_true] at passed
    cases passed
  simp only [number,ne_eq,not_true_eq_false,if_false] at passed
  obtain ⟨known,at_,value⟩ := Option.map_eq_some_iff.mp present
  rw [Box.passwd] at at_
  have same : known = account := by
    split at at_
    next n _ =>
      obtain ⟨numbered,listed⟩ := found_spec at_
      have login := checkNumber_ok.mp passed known (by rw [← number,← value,numbered]; exact at_)
      exact inj_on_of_nodup_map box.distinct listed member (login.trans named.symm)
    next =>
      obtain ⟨login,listed⟩ := found_spec at_
      exact inj_on_of_nodup_map box.distinct listed member (login.trans named.symm)
  rw [← same,value,number]

theorem command_store {work : Box → Except SeamError Box} {world after : World Mishap Box} {answer : Except SeamError Unit}
    (run : command work world = (answer,after)) : after.store = world.store ∨ work world.store = .ok after.store := by
  rcases operation_cases run with ⟨_,_,worked⟩ | ⟨_,_,_,same⟩ | ⟨mishap,_,left⟩
  · cases found : work world.store with
    | error e =>
      rw [found] at worked
      cases worked
    | ok later =>
      rw [found] at worked
      exact .inr (congrArg Except.ok (Prod.mk.inj (Except.ok.inj worked)).2)
  · exact .inl same
  · cases found : work world.store with
    | error e =>
      rw [found] at left
      exact .inl (left.trans (ite_self _))
    | ok later =>
      rw [found] at left
      rcases eq_false_or_eq_true mishap.took with took | spared
      · exact .inr (congrArg Except.ok (by rw [left,if_pos took]; rfl))
      · exact .inl (by rw [left,spared]; rfl)

theorem named_store {ζ : Type} {words : SeamError → ζ} {work : Box → Except SeamError Box} {world after : World Mishap Box}
    {answer : Except ζ Unit} (run : named words (command work) world = (answer,after)) :
    after.store = world.store ∨ work world.store = .ok after.store := by
  rcases named_cases run with ⟨_,_,ran⟩ | ⟨_,_,ran⟩ <;> exact command_store ran

theorem deleteAccount_store {uid : PosixId} {login : PosixName} {world after : World Mishap Box}
    {answer : Except IdentityError Unit} (run : deleteAccount uid login world = (answer,after)) :
    after.store = world.store ∨
      (uidOf world.store login.text).isSome ∧ userdel login.text world.store = .ok after.store := by
  rcases bind_cases run with ⟨_,_,ran⟩ | ⟨present,middle,ran,rest⟩
  · rw [(observe_run ran).2]
    exact .inl rfl
  obtain ⟨answered,rfl⟩ := observe_run ran
  cases present
  · rw [(pure_run rest).2]
    exact .inl rfl
  · exact (named_store rest).imp_right (fun removed => ⟨(Except.ok.inj answered).symm,removed⟩)

theorem deleteGroup_accounts (uid : PosixId) (accounts : List Account) :
    Keeps (fun box => box.accounts = accounts) (deleteGroup uid) := by
  refine (Keeps.observe _).bind (fun grouped => ?_)
  cases grouped
  · exact Keeps.pure _
  · intro world answer after run same
    rcases named_store run with kept | removed
    · rw [kept]
      exact same
    · unfold groupdel at removed
      split at removed
      next => cases removed
      next =>
        split at removed
        next => cases removed
        next =>
          rw [← Except.ok.inj removed]
          exact same

theorem removes_only {uid : PosixId} {login : PosixName} {box : Box} {fates : List (Option Mishap)}
    {answer : Except IdentityError Unit} {after : World Mishap Box} (run : remove uid login ⟨box,fates⟩ = (answer,after)) :
    RemovesOnly uid login box after.store := by
  rcases bind_cases run with ⟨_,_,ran⟩ | ⟨_,checked,ran,deleting⟩
  · rw [(observe_run ran).2]
    exact .inl rfl
  obtain ⟨passed,rfl⟩ := observe_run ran
  have gone : ∀ (later : World Mishap Box) (outcome : Except IdentityError Unit),
      deleteAccount uid login ⟨box,fates⟩ = (outcome,later) → RemovesOnly uid login box later.store := by
    intro later outcome ran
    rcases deleteAccount_store ran with same | ⟨present,removed⟩
    · rw [same]
      exact .inl rfl
    · obtain ⟨found,shown⟩ := Option.isSome_iff_exists.mp present
      obtain ⟨front,account,rest,split,left,named⟩ := userdel_ok removed
      have member : account ∈ box.accounts := by
        rw [split]
        exact mem_append_right _ mem_cons_self
      exact .inr ⟨front,account,rest,split,left,named,checkRemoval_ok passed.symm shown member named⟩
  rcases bind_cases deleting with ⟨e,_,ran⟩ | ⟨_,middle,ran,rest⟩
  · exact gone after _ ran
  · have accounts := deleteGroup_accounts uid middle.store.accounts middle answer after rest rfl
    rcases gone middle _ ran with same | ⟨front,account,rest,split,left,named,value⟩
    · exact .inl (accounts.trans same)
    · exact .inr ⟨front,account,rest,split,accounts.trans left,named,value⟩

section Request

variable {users : List UserSpec} {groups : List GroupSpec} (distinct : Distinct users groups)

include distinct

theorem fits_kept (clear : Unmistaken users) {item : Work} {box later : Box} (member : item ∈ allWork users groups)
    (fits : ∀ user ∈ users, checkUser box user = .ok ()) (through : item.stage box = some later) :
    ∀ user ∈ users, checkUser later user = .ok () := by
  rcases stage_cases through with rfl | ⟨gid,name,rfl,_,rfl⟩ | ⟨uid,login,primary,account,rfl,named,numbered,_,joined,_,_⟩ |
    ⟨name,logins,rfl,_,_,rfl⟩
  · exact fits
  · exact fits
  · rcases mem_allWork member with ⟨made,listed,wrong | same⟩ | ⟨_,_,wrong | wrong⟩ | wrong | wrong <;> try cases wrong
    injection same with uids logins
    rw [logins] at named
    rw [uids] at numbered
    intro user requested
    obtain ⟨byName,byNumber⟩ := checkUser_ok.mp (fits user requested)
    refine checkUser_ok.mpr ⟨fun found known => ?_,fun found known => ?_⟩
    · rw [Box.passwd] at known byName
      cases number : keyNumber user.login.text with
      | some n =>
        simp only [number] at known byName
        rw [Box.byUid,joined,find?_append,Option.or_eq_some_iff] at known
        rcases known with old | ⟨_,new⟩
        · exact byName found old
        · obtain ⟨value,inside⟩ := found_spec new
          have one := mem_singleton.mp inside
          subst one
          rw [numbered,clear user requested made listed (by rw [number,← value,numbered])]
      | none =>
        simp only [number] at known byName
        rw [Box.byLogin,joined,find?_append,Option.or_eq_some_iff] at known
        rcases known with old | ⟨_,new⟩
        · exact byName found old
        · obtain ⟨text,inside⟩ := found_spec new
          have one := mem_singleton.mp inside
          subst one
          rw [numbered,inj_on_of_nodup_map distinct.logins requested listed (text.symm.trans named)]
    · rw [Box.byUid,joined,find?_append,Option.or_eq_some_iff] at known
      rcases known with old | ⟨_,new⟩
      · exact byNumber found old
      · obtain ⟨value,inside⟩ := found_spec new
        have one := mem_singleton.mp inside
        subst one
        rw [named,inj_on_of_nodup_map distinct.uids requested listed (value.symm.trans numbered)]
  · exact fits

omit distinct in
theorem filter_renamed {held : Group → Bool} {name : String} {logins : List String} {all : List Group}
    (outside : ∀ group, group.name = name → held group = false) :
    (all.map (fun group => if group.name = name then {group with members := logins} else group)).filter held =
      all.filter held := by
  induction all with
  | nil => rfl
  | cons group rest ih =>
    rw [map_cons]
    by_cases named : group.name = name
    · rw [if_pos named,filter_cons_of_neg (eq_false_iff.mp (outside {group with members := logins} named)),
        filter_cons_of_neg (eq_false_iff.mp (outside group named)),ih]
    · rw [if_neg named,filter_cons,filter_cons,ih]

omit distinct in
theorem others_kept {item : Work} {box later : Box} (member : item ∈ allWork users groups)
    (through : item.stage box = some later) :
    later.accounts.filter (otherAccount users) = box.accounts.filter (otherAccount users) ∧
      later.groups.filter (otherGroup users groups) = box.groups.filter (otherGroup users groups) := by
  rcases stage_cases through with rfl | ⟨gid,name,rfl,_,rfl⟩ | ⟨uid,login,primary,account,rfl,named,_,_,joined,same,_⟩ |
    ⟨name,logins,rfl,_,_,rfl⟩
  · exact ⟨rfl,rfl⟩
  · refine ⟨rfl,?_⟩
    have derived : ¬otherGroup users groups ⟨name,gid.value,[]⟩ = true := by
      rw [otherGroup,and_eq_true,all_eq_true,all_eq_true]
      rintro ⟨apart,away⟩
      rcases mem_allWork member with ⟨user,listed,same | wrong⟩ | ⟨group,listed,same | wrong⟩ | wrong | wrong <;> try cases wrong
      · injection same with _ names
        exact of_decide_eq_true (apart user listed) names.symm
      · injection same with _ names
        exact of_decide_eq_true (away group listed) names.symm
    rw [filter_append,filter_cons_of_neg derived,filter_nil,append_nil]
  · rcases mem_allWork member with ⟨user,listed,wrong | made⟩ | ⟨_,_,wrong | wrong⟩ | wrong | wrong <;> try cases wrong
    injection made with _ logins
    have requested : ¬otherAccount users account = true := by
      rw [otherAccount,all_eq_true]
      intro apart
      exact of_decide_eq_true (apart user listed) (by rw [named,logins])
    rw [joined,filter_append,filter_cons_of_neg requested,filter_nil,append_nil,same]
    exact ⟨rfl,rfl⟩
  · refine ⟨rfl,filter_renamed (fun group named => ?_)⟩
    rcases mem_allWork member with ⟨_,_,wrong | wrong⟩ | ⟨team,listed,wrong | same⟩ | wrong | wrong <;> try cases wrong
    injection same with names
    rw [otherGroup,and_eq_false_iff]
    refine .inr (eq_false_iff.mpr (fun apart => ?_))
    rw [all_eq_true] at apart
    exact of_decide_eq_true (apart team listed) (by rw [named,names])

theorem reached_fits (clear : Unmistaken users) {box store : Box} (passed : checkUsers box users = .ok ())
    (reached : Reached ((allWork users groups).map Work.stage) box store) : checkUsers store users = .ok () := by
  refine checkUsers_ok.mpr ?_
  refine @Reached.invariant _ _ _ _ (fun box => ∀ user ∈ users, checkUser box user = .ok ()) reached
    (fun stage member before later fits through => ?_) (checkUsers_ok.mp passed)
  obtain ⟨item,listed,rfl⟩ := mem_map.mp member
  exact fits_kept distinct clear listed fits through

theorem through_done {box store : Box}
    (through : advance ((allWork users groups).map Work.stage) box = (store,true)) : ∀ item ∈ allWork users groups, item.done store :=
  fun _ member => stage_reaches (settled_after (work_lasting distinct) (fun _ listed => listed) through _
    (mem_map_of_mem member))

theorem through_established (clear : Unmistaken users) {box store : Box} (passed : checkUsers box users = .ok ())
    (through : advance ((allWork users groups).map Work.stage) box = (store,true)) : Established users groups box store := by
  have reached := Reached.whole through
  have fits := checkUsers_ok.mp (reached_fits distinct clear passed reached)
  have finished := through_done distinct through
  have kept := @Reached.invariant _ _ _ _ (fun later =>
      later.accounts.filter (otherAccount users) = box.accounts.filter (otherAccount users) ∧
        later.groups.filter (otherGroup users groups) = box.groups.filter (otherGroup users groups)) reached
    (fun stage member before later same through => by
      obtain ⟨item,listed,rfl⟩ := mem_map.mp member
      exact ⟨(others_kept listed through).1.trans same.1,(others_kept listed through).2.trans same.2⟩) ⟨rfl,rfl⟩
  refine ⟨fun user requested => ?_,fun group requested => ?_,kept.1,kept.2⟩
  · have made := finished (.user user.uid user.login (privateGroupName user.uid))
      (mem_append_left _ (mem_flatMap.mpr ⟨user,requested,mem_cons_of_mem _ mem_cons_self⟩))
    change (Option.isSome _) = true at made
    rw [passwd_id] at made
    obtain ⟨account,found⟩ := Option.isSome_iff_exists.mp made
    have login := (checkUser_ok.mp (fits user requested)).2 account found
    obtain ⟨value,member⟩ := found_spec found
    exact ⟨account,login ▸ byLogin_of_mem member,value,found⟩
  · obtain ⟨there,set,_⟩ := finished (.members (teamGroupName group.gid) (memberLogins users group.members))
      (mem_append_right _ (mem_append_left _ (mem_flatMap.mpr ⟨group,requested,
        mem_cons_of_mem _ mem_cons_self⟩)))
    refine ⟨there,fun held listed named login => ?_⟩
    rw [set held listed named]
    exact mem_memberLogins distinct.uids

omit distinct in
theorem sync_stops {box : Box} {fates : List (Option Mishap)} {answer : Except IdentityError SyncOutcome}
    {after : World Mishap Box} (run : sync users groups ⟨box,fates⟩ = (answer,after)) :
    (∃ e, checkUsers box users = .error e ∧ answer = .error e ∧ after.store = box) ∨
      checkUsers box users = .ok () ∧ makeAll users groups ⟨box,fates⟩ = (answer,after) ∧
        Reached ((allWork users groups).map Work.stage) box after.store := by
  cases checked : checkUsers box users with
  | error e =>
    rw [@sync_refused _ _ ⟨box,fates⟩ _ checked] at run
    cases run
    exact .inl ⟨e,rfl,rfl,rfl⟩
  | ok =>
    rw [@sync_run _ _ ⟨box,fates⟩ checked] at run
    exact .inr ⟨rfl,run,(makeAll_performs users groups).reached _ answer after run⟩

omit distinct in
theorem unspoiled_run {box : Box} (passed : checkUsers box users = .ok ()) :
    (sync users groups ⟨box,[]⟩).2.store = (advance ((allWork users groups).map Work.stage) box).1 ∧
      (sync users groups ⟨box,[]⟩).1.isOk = (advance ((allWork users groups).map Work.stage) box).2 := by
  rw [@sync_run _ _ ⟨box,[]⟩ passed]
  obtain ⟨store,verdict⟩ := Prod.mk.inj ((makeAll_performs users groups).unspoiled box)
  exact ⟨congrArg World.store store,verdict⟩

theorem contract_of_clear (clear : Unmistaken users) (box : Box) : Contract users groups box where
  refused fates e after run refusal := by
    rcases sync_stops run with ⟨_,_,_,same⟩ | ⟨_,making,_⟩
    · exact same
    · have plain : e.isRefusal = false := makeAll_raises users groups _ e after making
      rw [plain] at refusal
      cases refusal
  established fates outcome after run := by
    rcases sync_stops run with ⟨_,_,wrong,_⟩ | ⟨passed,making,_⟩
    · cases wrong
    · exact through_established distinct clear passed ((makeAll_performs users groups).through _ outcome after making)
  again fates answer after run := by
    rcases sync_stops run with ⟨_,_,_,same⟩ | ⟨passed,_,reached⟩
    · rw [same]
      exact ⟨rfl,rfl⟩
    · obtain ⟨store,verdict⟩ := unspoiled_run (reached_fits distinct clear passed reached)
      obtain ⟨whole,ended⟩ := unspoiled_run passed
      have resumed := resume (work_lasting distinct) reached
      exact ⟨by rw [store,resumed,whole],by rw [verdict,resumed,ended]⟩
  nothingCreated fates outcome after run later answer final repeated := by
    rcases sync_stops run with ⟨_,_,wrong,_⟩ | ⟨passed,making,reached⟩
    · cases wrong
    have settled := through_done distinct ((makeAll_performs users groups).through _ outcome after making)
    rcases sync_stops repeated with ⟨_,failed,_,_⟩ | ⟨_,remaking,_⟩
    · rw [reached_fits distinct clear passed reached] at failed
      cases failed
    refine ⟨@settled_run _ _ _ _ (makeAll_performs users groups) ⟨after.store,later⟩ _ _ settled remaking,fun again done => ?_⟩
    subst done
    obtain ⟨made,named,making,grouping⟩ := bind_ok remaking
    obtain ⟨teams,joined,teaming,importing⟩ := bind_ok grouping
    obtain ⟨passwords,_,_,ended⟩ := bind_ok importing
    rw [@makeUsers_known _ ⟨after.store,later⟩ (fun item member => settled item (mem_append_left _ member))] at making
    cases making
    have none := @makeGroups_known users groups ⟨after.store,later⟩ _ _
      (fun item member => settled item (mem_append_right _ (mem_append_left _ member))) teaming
    cases Except.ok.inj (pure_run ended).1
    exact ⟨rfl,by rw [none]⟩
  removal uid login fates answer after run := removes_only run

end Request

def ready (users : List UserSpec) (groups : List GroupSpec) : Box where
  accounts := []
  groups := users.map (fun user => ⟨privateGroupName user.uid,user.uid.value,[]⟩) ++
    groups.map (fun group => ⟨teamGroupName group.gid,group.gid.value,[]⟩)
  samba := true
  userGroups := true
  distinct := nodup_nil

def Grouped (box : Box) (name : String) (gid : Nat) : Prop :=
  (∃ held ∈ box.groups, held.name = name) ∧ ∃ held ∈ box.groups, held.gid = gid

def Furnished (users : List UserSpec) (groups : List GroupSpec) (box : Box) : Prop :=
  (∀ user ∈ users, Grouped box (privateGroupName user.uid) user.uid.value) ∧
    (∀ group ∈ groups, Grouped box (teamGroupName group.gid) group.gid.value) ∧ box.samba = true

theorem grouped_kept {item : Work} {box later : Box} {name : String} {gid : Nat} (through : item.stage box = some later)
    (grouped : Grouped box name gid) : Grouped later name gid := by
  obtain ⟨⟨one,first,named⟩,⟨other,second,numbered⟩⟩ := grouped
  rcases stage_cases through with rfl | ⟨_,_,rfl,_,rfl⟩ | ⟨_,_,_,_,rfl,_,_,_,_,same,_⟩ | ⟨_,_,rfl,_,_,rfl⟩
  · exact ⟨⟨one,first,named⟩,⟨other,second,numbered⟩⟩
  · exact ⟨⟨one,mem_append_left _ first,named⟩,⟨other,mem_append_left _ second,numbered⟩⟩
  · rw [Grouped,same]
    exact ⟨⟨one,first,named⟩,⟨other,second,numbered⟩⟩
  · refine ⟨⟨_,mem_map_of_mem first,?_⟩,⟨_,mem_map_of_mem second,?_⟩⟩
    · split <;> exact named
    · split <;> exact numbered

theorem samba_kept {item : Work} {box later : Box} (through : item.stage box = some later) : later.samba = box.samba := by
  rcases stage_cases through with rfl | ⟨_,_,rfl,_,rfl⟩ | ⟨_,_,_,_,rfl,_,_,_,_,_,same⟩ | ⟨_,_,rfl,_,_,rfl⟩
  · rfl
  · rfl
  · exact same
  · rfl

theorem furnished_kept {item : Work} {users : List UserSpec} {groups : List GroupSpec} {box later : Box}
    (through : item.stage box = some later) (furnished : Furnished users groups box) : Furnished users groups later :=
  ⟨fun user member => grouped_kept through (furnished.1 user member),
    fun group member => grouped_kept through (furnished.2.1 group member),(samba_kept through).trans furnished.2.2⟩

theorem ready_furnished (users : List UserSpec) (groups : List GroupSpec) : Furnished users groups (ready users groups) := by
  refine ⟨fun user member => ?_,fun group member => ?_,rfl⟩
  · have held := mem_append_left (groups.map (fun group => (⟨teamGroupName group.gid,group.gid.value,[]⟩ : Group)))
      (mem_map_of_mem (f := fun user => (⟨privateGroupName user.uid,user.uid.value,[]⟩ : Group)) member)
    exact ⟨⟨_,held,rfl⟩,⟨_,held,rfl⟩⟩
  · have held := mem_append_right (users.map (fun user => (⟨privateGroupName user.uid,user.uid.value,[]⟩ : Group)))
      (mem_map_of_mem (f := fun group => (⟨teamGroupName group.gid,group.gid.value,[]⟩ : Group)) member)
    exact ⟨⟨_,held,rfl⟩,⟨_,held,rfl⟩⟩

theorem group_stage_furnished {gid : PosixId} {name : String} {box : Box} (there : ∃ held ∈ box.groups, held.gid = gid.value) :
    (Work.group gid name).stage box = some box := by
  obtain ⟨held,member,same⟩ := there
  refine stage_idle ?_
  change (Option.isSome _) = true
  rw [group_id,find?_isSome]
  exact ⟨held,member,decide_eq_true same⟩

theorem useradd_fresh {uid : Nat} {primary : String} {login : PosixName} {box : Box}
    (named : ∀ account ∈ box.accounts, account.login ≠ login.text) (numbered : ∀ account ∈ box.accounts, account.uid ≠ uid)
    (there : ∃ held ∈ box.groups, held.name = primary) :
    ∃ later account, useradd uid primary login box = .ok later ∧ later.accounts = box.accounts ++ [account] ∧
      account.login = login.text ∧ account.uid = uid := by
  have unnamed : ¬(box.accounts.any (fun account => account.login = login.text)) = true := by
    rw [any_eq_true]
    rintro ⟨account,member,same⟩
    exact named account member (of_decide_eq_true same)
  have unnumbered : ¬(box.accounts.any (fun account => account.uid = uid)) = true := by
    rw [any_eq_true]
    rintro ⟨account,member,same⟩
    exact numbered account member (of_decide_eq_true same)
  obtain ⟨held,member,same⟩ := there
  have grouped : (box.groupNamed primary).isSome := by
    rw [Box.groupNamed,find?_isSome]
    exact ⟨held,member,decide_eq_true same⟩
  obtain ⟨found,shown⟩ := Option.isSome_iff_exists.mp grouped
  rw [useradd,dif_neg unnamed,if_neg unnumbered,shown]
  exact ⟨_,⟨login.text,uid,found.gid,NOLOGIN,login.plain⟩,rfl,rfl,rfl,rfl⟩

theorem users_through {all : List UserSpec} {groups : List GroupSpec} {users : List UserSpec} {box : Box}
    (furnished : Furnished all groups box) (among : ∀ user ∈ users, user ∈ all)
    (uids : (users.map (fun user => user.uid.value)).Nodup) (logins : (users.map (fun user => user.login.text)).Nodup)
    (fresh : ∀ user ∈ users, ∀ account ∈ box.accounts, account.login ≠ user.login.text ∧ account.uid ≠ user.uid.value) :
    ∃ later, advance ((userWork users).map Work.stage) box = (later,true) ∧ Furnished all groups later ∧
      (∀ account ∈ box.accounts, account ∈ later.accounts) ∧
        ∀ user ∈ users, ∃ account ∈ later.accounts, account.login = user.login.text := by
  induction users generalizing box with
  | nil => exact ⟨box,rfl,furnished,fun _ member => member,by simp⟩
  | cons user rest ih =>
    obtain ⟨primary,numbered⟩ := furnished.1 user (among user mem_cons_self)
    rw [map_cons,nodup_cons] at uids logins
    obtain ⟨middle,account,added,joined,login,uid⟩ := @useradd_fresh user.uid.value _ user.login box
      (fun known member => (fresh user mem_cons_self known member).1)
      (fun known member => (fresh user mem_cons_self known member).2) primary
    have absent : ¬(box.passwd (toString user.uid.value)).isSome = true := by
      rw [passwd_id,Box.byUid,find?_isSome]
      rintro ⟨known,member,same⟩
      exact (fresh user mem_cons_self known member).2 (of_decide_eq_true same)
    have made : (Work.user user.uid user.login (privateGroupName user.uid)).stage box = some middle := by
      change (if _ then _ else _) = _
      rw [if_neg absent,added]
      rfl
    obtain ⟨later,through,still,kept,there⟩ := @ih middle (furnished_kept made furnished)
      (fun other member => among other (mem_cons_of_mem _ member)) uids.2 logins.2 (fun other member known listed => by
        rw [joined] at listed
        rcases mem_append.mp listed with old | new
        · exact fresh other (mem_cons_of_mem _ member) known old
        · cases mem_singleton.mp new
          exact ⟨fun same => logins.1 (mem_map.mpr ⟨other,member,same.symm.trans login⟩),
            fun same => uids.1 (mem_map.mpr ⟨other,member,same.symm.trans uid⟩)⟩)
    refine ⟨later,?_,still,fun known member => kept known (by rw [joined]; exact mem_append_left _ member),?_⟩
    · change advance (Work.stage _::Work.stage _::_) box = _
      rw [advance,group_stage_furnished numbered]
      change advance (Work.stage _::_) box = _
      rw [advance,made]
      exact through
    · intro other member
      rcases mem_cons.mp member with rfl | inside
      · exact ⟨account,kept account (by rw [joined]; exact mem_append_right _ mem_cons_self),login⟩
      · exact there other inside

theorem groups_through {users : List UserSpec} {all groups : List GroupSpec} {box : Box} (furnished : Furnished users all box)
    (among : ∀ group ∈ groups, group ∈ all) (there : ∀ user ∈ users, ∃ account ∈ box.accounts, account.login = user.login.text) :
    ∃ later, advance ((groupWork users groups).map Work.stage) box = (later,true) ∧ later.samba = true := by
  induction groups generalizing box with
  | nil => exact ⟨box,rfl,furnished.2.2⟩
  | cons group rest ih =>
    obtain ⟨named,numbered⟩ := furnished.2.1 group (among group mem_cons_self)
    have everyone : ∀ login ∈ memberLogins users group.members, ∃ account ∈ box.accounts, account.login = login := by
      intro login listed
      obtain ⟨_,_,found⟩ := mem_filterMap.mp listed
      obtain ⟨user,first,rfl⟩ := Option.map_eq_some_iff.mp found
      exact there user (mem_of_find?_eq_some first)
    obtain ⟨middle,set,accounts,_⟩ := gpasswd_known named everyone
    have made : (Work.members (teamGroupName group.gid) (memberLogins users group.members)).stage box = some middle :=
      congrArg Except.toOption set
    obtain ⟨later,through,samba⟩ := @ih middle (furnished_kept made furnished)
      (fun other listed => among other (mem_cons_of_mem _ listed)) (by rw [accounts]; exact there)
    refine ⟨later,?_,samba⟩
    change advance (Work.stage _::Work.stage _::_) box = _
    rw [advance,group_stage_furnished numbered]
    change advance (Work.stage _::_) box = _
    rw [advance,made]
    exact through

/-- A login read as another requested uid: a first run makes both accounts, and every later run is refused. -/
theorem mistaken_breaks {users : List UserSpec} {groups : List GroupSpec} (distinct : Distinct users groups)
    {user other : UserSpec} (listed : user ∈ users) (named : other ∈ users)
    (read : keyNumber user.login.text = some other.uid.value) (apart : user.uid.value ≠ other.uid.value) :
    ¬Contract users groups (ready users groups) := by
  intro contract
  have passed : checkUsers (ready users groups) users = .ok () := by
    refine checkUsers_ok.mpr (fun user _ => checkUser_ok.mpr ⟨fun account found => ?_,fun account found => ?_⟩)
    · unfold Box.passwd at found
      split at found <;> cases found
    · cases found
  have furnished := ready_furnished users groups
  obtain ⟨made,through,still,_,there⟩ := @users_through users groups users (ready users groups) furnished
    (fun _ member => member) distinct.uids distinct.logins (by rintro _ _ _ ⟨⟩)
  obtain ⟨grouped,teamed,samba⟩ := @groups_through users groups groups made still (fun _ member => member) there
  have whole : advance ((allWork users groups).map Work.stage) (ready users groups) = (grouped,true) := by
    rw [allWork,map_append,map_append,advance_append,through]
    change advance (_ ++ _) made = _
    rw [advance_append,teamed]
    change advance ((passwordWork users).map Work.stage) grouped = _
    refine advance_settled (fun stage member => ?_)
    obtain ⟨item,among,rfl⟩ := mem_map.mp member
    rcases mem_passwordWork among with rfl | rfl
    · exact if_pos samba
    · rfl
  obtain ⟨store,verdict⟩ := @unspoiled_run users groups (ready users groups) passed
  rw [whole] at store verdict
  rcases first : sync users groups ⟨ready users groups,[]⟩ with ⟨answer,after⟩
  rw [first] at store verdict
  cases answer with
  | error e => cases verdict
  | ok outcome =>
    have again := (contract.again [] _ after first).2
    obtain ⟨account,_,value,number⟩ := (contract.established [] outcome after first).accounts other named
    have refused : ∀ granted, checkUsers after.store users ≠ .ok granted := by
      intro granted fine
      have own := (checkUser_ok.mp (checkUsers_ok.mp fine user listed)).1 account (by rw [Box.passwd,read]; exact number)
      exact apart (own.symm.trans value)
    cases failed : checkUsers after.store users with
    | ok granted => exact refused granted failed
    | error e =>
      rw [first,@sync_refused _ _ ⟨after.store,[]⟩ _ failed] at again
      cases again

/-- Over every machine and every choice of failing commands, a sync and a removal keep their contract
for exactly the requests in which no login is a numeral that stands for another requested uid.
-/
theorem identity_contract_iff {users : List UserSpec} {groups : List GroupSpec} (distinct : Distinct users groups) :
    (∀ box, Contract users groups box) ↔ Unmistaken users := by
  refine ⟨fun contract user listed other named read => ?_,fun clear box => contract_of_clear distinct clear box⟩
  by_contra apart
  exact mistaken_breaks distinct listed named read apart (contract _)

private def aNumeral : UserSpec := ⟨⟨300004,by decide⟩,⟨"300005",by decide⟩,none⟩

private def bob : UserSpec := ⟨⟨300005,by decide⟩,⟨"bob",by decide⟩,none⟩

private def carol : UserSpec := ⟨⟨300004,by decide⟩,⟨"carol",by decide⟩,none⟩

private def bobsTeam : GroupSpec := ⟨⟨300010,by decide⟩,[⟨300005,by decide⟩]⟩

theorem identity_contract_carol : (∀ box, Contract [carol,bob] [bobsTeam] box) ↔ Unmistaken [carol,bob] :=
  identity_contract_iff ⟨by decide,by decide,by decide⟩

/-- The login `300005` is read as the uid of `bob`. -/
theorem identity_refused_again : Distinct [aNumeral,bob] [bobsTeam] ∧ ∃ box, ¬Contract [aNumeral,bob] [bobsTeam] box := by
  have distinct : Distinct [aNumeral,bob] [bobsTeam] := ⟨by decide,by decide,by decide⟩
  exact ⟨distinct,_,mistaken_breaks distinct mem_cons_self (mem_cons_of_mem _ mem_cons_self) (by decide)
    (by decide)⟩

end Depsis.Agent

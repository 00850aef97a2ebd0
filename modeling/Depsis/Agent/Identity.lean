import Depsis.Agent.Operands
import Depsis.Agent.Seams
import Depsis.Foundation.Faults
import Depsis.Foundation.Text
import Mathlib.Data.List.Infix
import Mathlib.Data.List.Nodup

/-! Unix accounts and groups for the principals of DEPSIS: the accounts and groups a sync
makes, the memberships it sets, and the removal of one account.
-/
namespace Depsis.Agent

open Depsis.Foundation Depsis.Foundation.Faults List

def GROUPADD : String := "/usr/sbin/groupadd"
def USERADD : String := "/usr/sbin/useradd"
def GPASSWD : String := "/usr/bin/gpasswd"
def PDBEDIT : String := "/usr/bin/pdbedit"
def USERDEL : String := "/usr/sbin/userdel"
def GROUPDEL : String := "/usr/sbin/groupdel"
def NOLOGIN : String := "/usr/sbin/nologin"

def FieldText (text : String) : Prop :=
  text.toList ≠ [] ∧ ∀ character ∈ text.toList, character ≠ ':' ∧ Text.whitespace character = false

structure Account where
  login : String
  uid : Nat
  gid : Nat
  shell : String
  plain : FieldText login

structure Group where
  name : String
  gid : Nat
  members : List String

/-- The machine: its `passwd` and `group` tables, whether `pdbedit` is installed, and whether
`userdel` takes a user's own group along (`USERGROUPS_ENAB`).
-/
structure Box where
  accounts : List Account
  groups : List Group
  samba : Bool
  userGroups : Bool
  distinct : (accounts.map Account.login).Nodup

/-- A key `getent` takes for a number: `strtoul`, cut to the 32 bits of a uid. -/
def keyNumber (key : String) : Option Nat :=
  if key.toList ≠ [] ∧ key.toList.all Char.isDigit then
    some (min (Nat.ofDigitChars 10 key.toList 0) 18446744073709551615 % 4294967296)
  else none

namespace Box

variable (box : Box)

def byUid (uid : Nat) : Option Account := box.accounts.find? (fun account => account.uid = uid)

def byLogin (login : String) : Option Account := box.accounts.find? (fun account => account.login = login)

def passwd (key : String) : Option Account :=
  match keyNumber key with
  | some uid => box.byUid uid
  | none => box.byLogin key

def groupNamed (name : String) : Option Group := box.groups.find? (fun group => group.name = name)

def group (key : String) : Option Group :=
  match keyNumber key with
  | some gid => box.groups.find? (fun group => group.gid = gid)
  | none => box.groupNamed key

end Box

theorem PosixName.plain (login : PosixName) : FieldText login.text := by
  refine ⟨login.legal.1,fun character member => ?_⟩
  have legal := login.legal.2 character member
  simp only [loginCharacter,Bool.or_eq_true,decide_eq_true_eq] at legal
  have code : (45 ≤ character.toNat ∧ character.toNat ≤ 57) ∨ (65 ≤ character.toNat ∧ character.toNat ≤ 122) := by
    rcases legal with ((alphanum | rfl) | rfl) | rfl
    · have := alphanum_code alphanum
      omega
    all_goals decide
  refine ⟨?_,?_⟩
  · rintro rfl
    revert code
    decide
  · simp only [Text.whitespace,Bool.or_eq_false_iff,Bool.and_eq_false_iff,decide_eq_false_iff_not]
    omega

def groupadd (gid : Nat) (name : String) (box : Box) : Except SeamError Box :=
  if box.groups.any (fun group => group.name = name) then
    .error (.command GROUPADD 9 ("groupadd: group '" ++ name ++ "' already exists"))
  else if box.groups.any (fun group => group.gid = gid) then
    .error (.command GROUPADD 4 ("groupadd: GID '" ++ toString gid ++ "' already exists"))
  else .ok {box with groups := box.groups ++ [⟨name,gid,[]⟩]}

theorem Box.joins_distinct {box : Box} {login : String}
    (fresh : ¬(box.accounts.any (fun account => account.login = login)) = true) (account : Account)
    (named : account.login = login) : ((box.accounts ++ [account]).map Account.login).Nodup := by
  rw [map_append,nodup_append]
  refine ⟨box.distinct,nodup_singleton _,fun old member other single same => fresh ?_⟩
  obtain ⟨known,listed,rfl⟩ := mem_map.mp member
  rw [map_singleton,mem_singleton] at single
  exact any_eq_true.mpr ⟨known,listed,decide_eq_true (same.trans (single.trans named))⟩

/-- `useradd -u <uid> -g <group> -M -s /usr/sbin/nologin -- <login>`. -/
def useradd (uid : Nat) (group : String) (login : PosixName) (box : Box) : Except SeamError Box :=
  if taken : box.accounts.any (fun account => account.login = login.text) then
    .error (.command USERADD 9 ("useradd: user '" ++ login.text ++ "' already exists"))
  else if box.accounts.any (fun account => account.uid = uid) then
    .error (.command USERADD 4 ("useradd: UID " ++ toString uid ++ " is not unique"))
  else match box.groupNamed group with
    | none => .error (.command USERADD 6 ("useradd: group '" ++ group ++ "' does not exist"))
    | some primary => .ok {box with accounts := box.accounts ++ [⟨login.text,uid,primary.gid,NOLOGIN,login.plain⟩]
                                    distinct := Box.joins_distinct taken _ rfl}

def gpasswd (logins : List String) (name : String) (box : Box) : Except SeamError Box :=
  if box.groups.all (fun group => group.name ≠ name) then
    .error (.command GPASSWD 1 ("gpasswd: group '" ++ name ++ "' does not exist in /etc/group"))
  else match logins.find? (fun login => box.accounts.all (fun account => account.login ≠ login)) with
    | some login => .error (.command GPASSWD 1 ("gpasswd: user '" ++ login ++ "' does not exist"))
    | none =>
      .ok {box with groups := box.groups.map (fun group => if group.name = name then {group with members := logins} else group)}

def userdel (login : String) (box : Box) : Except SeamError Box :=
  if box.accounts.all (fun account => account.login ≠ login) then
    .error (.command USERDEL 6 ("userdel: user '" ++ login ++ "' does not exist"))
  else
    let accounts := box.accounts.eraseP (fun account => account.login = login)
    let left := box.groups.map (fun group => {group with members := group.members.filter (fun member => member ≠ login)})
    .ok {box with
      accounts
      groups := left.filter (fun group => !(box.userGroups && group.name = login && group.members.isEmpty &&
        accounts.all (fun account => account.gid ≠ group.gid)))
      distinct := box.distinct.sublist ((eraseP_sublist).map _)}

def groupdel (name : String) (box : Box) : Except SeamError Box :=
  match box.groupNamed name with
  | none => .error (.command GROUPDEL 6 ("groupdel: group '" ++ name ++ "' does not exist"))
  | some group =>
    if box.accounts.any (fun account => account.gid = group.gid) then
      .error (.command GROUPDEL 8 "groupdel: cannot remove the primary group of a user")
    else .ok {box with groups := box.groups.eraseP (fun other => other.name = name)}

structure Mishap where
  error : SeamError
  took : Bool

abbrev BoxStep (ε α : Type) := Attempt Mishap Box ε α

def command (work : Box → Except SeamError Box) : BoxStep SeamError Unit :=
  operation (fun box => (work box).map (fun later => ((),later)))
    (fun mishap box => (mishap.error,if mishap.took then (work box).toOption.getD box else box))

inductive IdentityError where
  | io (text : String)
  | notOurs (login : String) (found : Nat)
  | uidTaken (uid : Nat) (login found : String)
  | stillInUse (login : String)
  | sambaMissing (program : String)

def userIsInUse : SeamError → Bool
  | .command _ _ stderr =>
    "currently used by process".toList <:+: stderr.toList || "currently logged in".toList <:+: stderr.toList
  | _ => false

structure UserSpec where
  uid : PosixId
  login : PosixName
  ntHash : Option String

structure GroupSpec where
  gid : PosixId
  members : List PosixId

structure SyncOutcome where
  usersCreated : Nat
  groupsCreated : Nat
  passwordsSet : Nat

def teamGroupName (gid : PosixId) : String := "depsis-t-" ++ toString gid.value

def privateGroupName (uid : PosixId) : String := "depsis-p-" ++ toString uid.value

def isReserved (id : Nat) : Bool := 300000 ≤ id && id ≤ 399999

def uidOf (box : Box) (login : String) : Option Nat := (box.passwd login).map Account.uid

def loginOf (box : Box) (uid : Nat) : Option String := (box.passwd (toString uid)).map Account.login

def checkNumber (box : Box) (uid : PosixId) (login : PosixName) : Except IdentityError Unit :=
  match loginOf box uid.value with
  | some existing => if existing ≠ login.text then .error (.uidTaken uid.value login.text existing) else .ok ()
  | none => .ok ()

def checkUser (box : Box) (user : UserSpec) : Except IdentityError Unit :=
  match uidOf box user.login.text with
  | some found =>
    if found ≠ user.uid.value then
      if !isReserved found then .error (.notOurs user.login.text found)
      else .error (.uidTaken user.uid.value user.login.text ("uid " ++ toString found))
    else checkNumber box user.uid user.login
  | none => checkNumber box user.uid user.login

def checkUsers (box : Box) : List UserSpec → Except IdentityError Unit
  | [] => .ok ()
  | user::rest =>
    match checkUser box user with
    | .error e => .error e
    | .ok () => checkUsers box rest

def ensureGroup (gid : Nat) (name : String) : BoxStep IdentityError Bool := do
  let known ← observe (fun box => .ok (box.group (toString gid)).isSome)
  if known then return false
  else
    named (fun e => .io ("groupadd " ++ name ++ " (" ++ toString gid ++ "): " ++ e.message)) (command (groupadd gid name))
    return true

def ensureUser (uid : Nat) (login : PosixName) (group : String) : BoxStep IdentityError Bool := do
  let known ← observe (fun box => .ok (box.passwd (toString uid)).isSome)
  if known then return false
  else
    named (fun e => .io ("useradd " ++ login.text ++ " (" ++ toString uid ++ "): " ++ e.message))
      (command (useradd uid group login))
    return true

def setMembers (name : String) (logins : List String) : BoxStep IdentityError Unit :=
  named (fun e => .io ("gpasswd -M on " ++ name ++ ": " ++ e.message)) (command (gpasswd logins name))

def counted (made : Bool) : Nat := if made then 1 else 0

def makeUsers : List UserSpec → BoxStep IdentityError (Nat × Nat)
  | [] => return (0,0)
  | user::rest => do
    let groupMade ← ensureGroup user.uid.value (privateGroupName user.uid)
    let userMade ← ensureUser user.uid.value user.login (privateGroupName user.uid)
    let others ← makeUsers rest
    return (counted userMade + others.1,counted groupMade + others.2)

def memberLogins (users : List UserSpec) (members : List PosixId) : List String :=
  members.filterMap (fun uid => (users.find? (fun user => user.uid.value = uid.value)).map (fun user => user.login.text))

def makeGroups (users : List UserSpec) : List GroupSpec → BoxStep IdentityError Nat
  | [] => return 0
  | group::rest => do
    let made ← ensureGroup group.gid.value (teamGroupName group.gid)
    setMembers (teamGroupName group.gid) (memberLogins users group.members)
    let others ← makeGroups users rest
    return counted made + others

def IMPORT_PATH : String := "/run/depsis/passdb-import"

/-- `write_private` and the `pdbedit -i` that follows it; neither touches an account. -/
def importPasswords : BoxStep IdentityError Unit := do
  named (fun e => .io (IMPORT_PATH ++ ": " ++ e.message)) (command .ok)
  named (fun e => .io ("pdbedit import: " ++ e.message)) (command .ok)

def setPasswords (users : List UserSpec) : BoxStep IdentityError Nat :=
  let withHash := users.filter (fun user => user.ntHash.isSome)
  if withHash.isEmpty then return 0
  else do
    observe (fun box => if box.samba then .ok () else .error (.sambaMissing PDBEDIT))
    importPasswords
    return withHash.length

def makeAll (users : List UserSpec) (groups : List GroupSpec) : BoxStep IdentityError SyncOutcome := do
  let made ← makeUsers users
  let teams ← makeGroups users groups
  let passwords ← setPasswords users
  return ⟨made.1,made.2 + teams,passwords⟩

def sync (users : List UserSpec) (groups : List GroupSpec) : BoxStep IdentityError SyncOutcome := do
  observe (fun box => checkUsers box users)
  makeAll users groups

def checkRemoval (box : Box) (uid : PosixId) (login : PosixName) : Except IdentityError Unit :=
  match uidOf box login.text with
  | some found =>
    if found ≠ uid.value then .error (.uidTaken uid.value login.text ("uid " ++ toString found))
    else checkNumber box uid login
  | none => checkNumber box uid login

def removalError (uid : PosixId) (login : PosixName) (e : SeamError) : IdentityError :=
  if userIsInUse e then .stillInUse login.text
  else .io ("userdel " ++ login.text ++ " (" ++ toString uid.value ++ "): " ++ e.message)

def deleteAccount (uid : PosixId) (login : PosixName) : BoxStep IdentityError Unit := do
  let present ← observe (fun box => .ok (uidOf box login.text).isSome)
  if present then named (removalError uid login) (command (userdel login.text)) else return ()

def deleteGroup (uid : PosixId) : BoxStep IdentityError Unit := do
  let grouped ← observe (fun box => .ok (box.group (toString uid.value)).isSome)
  if grouped then
    named (fun e => .io ("groupdel " ++ privateGroupName uid ++ ": " ++ e.message)) (command (groupdel (privateGroupName uid)))
  else return ()

/-- `remove`. The `pdbedit -x` between the check and the deletion touches neither table, and its
answer is not looked at.
-/
def remove (uid : PosixId) (login : PosixName) : BoxStep IdentityError Unit := do
  observe (fun box => checkRemoval box uid login)
  deleteAccount uid login
  deleteGroup uid

end Depsis.Agent

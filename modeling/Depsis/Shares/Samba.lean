import Depsis.Agent.Operands
import Depsis.Agent.Seams
import Depsis.Foundation.Text

/-! The share configuration DEPSIS generates: which shares can be written to `smb.conf`
at all, and the text each becomes.
-/
namespace Depsis.Shares

open Depsis.Agent Depsis.Foundation

def TESTPARM : String := "/usr/bin/testparm"
def ZFS : String := "/usr/sbin/zfs"
def SMBCLIENT : String := "/usr/bin/smbclient"
def MAX_SHARE_NAME : Nat := 80
def RESERVED_SECTIONS : List String := ["global","homes","printers","print$"]

inductive SambaError where
  | notInstalled (program : String)
  | unrepresentable (reason : String)
  | rejectedRolledBack (reason : String)
  | rollbackFailed (path rejection restoreFailure : String)
  | io (reason : String)
deriving DecidableEq

def SambaError.message : SambaError → String
  | .notInstalled program => "samba is not installed: " ++ program ++ " is not present"
  | .unrepresentable reason => reason
  | .rejectedRolledBack reason => "samba rejected the new configuration and it was rolled back: " ++ reason
  | .rollbackFailed path rejection restoreFailure =>
    "SAMBA IS BROKEN AND COULD NOT BE RESTORED. " ++ path ++ " now holds a configuration that was rejected (" ++
      rejection ++ "), and putting the previous one back also failed (" ++ restoreFailure ++
      "). SMB shares are down until an operator repairs this file by hand"
  | .io reason => "io: " ++ reason

inductive SmbPrincipal where
  | user (name : PosixName)
  | group (name : PosixName)

def SmbPrincipal.render : SmbPrincipal → String
  | .user name => name.text
  | .group name => "@" ++ name.text

structure ShareSpec where
  name : SafeComponent
  dataset : String
  readOnly : Bool
  validUsers : List SmbPrincipal

structure Section where
  name : String
  path : String
  readOnly : Bool
  validUsers : List String

/-- What a publish asks of the machine. `validate` and `offeredShares` look at what the
configuration file holds when they run.
-/
structure SambaHost where
  ensureInstalled : Except SambaError Unit
  mountpoint : String → Except SambaError String
  validate : Option String → Except SambaError Unit
  offeredShares : Option String → Except SambaError (List String)

def eqIgnoreAsciiCase (first second : String) : Bool :=
  first.toList.map Char.toLower = second.toList.map Char.toLower

def isControl (character : Char) : Bool :=
  character.toNat < 32 || (127 ≤ character.toNat && character.toNat < 160)

def escapeDebug (character : Char) : String :=
  if character = '"' then "\\\"" else if character = '\\' then "\\\\"
  else if character = '\n' then "\\n" else if character = '\r' then "\\r"
  else if character = '\t' then "\\t" else if character = '\x00' then "\\0"
  else if isControl character then "\\u\x7b" ++ String.ofList (Nat.toDigits 16 character.toNat) ++ "\x7d"
  else String.singleton character

def debug (text : String) : String := "\"" ++ String.join (text.toList.map escapeDebug) ++ "\""

def debugChar (character : Char) : String :=
  "'" ++ (if character = '"' then "\"" else if character = '\'' then "\\'" else escapeDebug character) ++ "'"

/-- The programs of the real machine. `samba` runs one of Samba's, `zfs` runs `zfs`. -/
structure Machine where
  present : String → Bool
  zfs : List String → Except SeamError String
  samba : Option String → String → List String → Except SeamError String

def shareNames (out : String) : List String :=
  (Text.lines out.toList).filterMap (fun line =>
    let fields := line.splitOn '|'
    let kind := Text.trim (fields[0]?.getD [])
    let name := Text.trim (fields[1]?.getD [])
    if eqIgnoreAsciiCase (String.ofList kind) "disk" && name ≠ [] then some (String.ofList name) else none)

def Machine.host (machine : Machine) : SambaHost where
  ensureInstalled :=
    match [TESTPARM,SMBCLIENT].find? (fun program => !machine.present program) with
    | some program => .error (.notInstalled program)
    | none => .ok ()
  mountpoint dataset :=
    match machine.zfs ["get","-H","-o","value","mountpoint",dataset] with
    | .error e => .error (.io ("zfs get mountpoint " ++ dataset ++ ": " ++ e.message))
    | .ok out => .ok (String.ofList (Text.trim ((Text.lines out.toList).head?.getD [])))
  validate config :=
    match machine.samba config TESTPARM ["-s","--suppress-prompt"] with
    | .error e => .error (.rejectedRolledBack ("testparm: " ++ e.message))
    | .ok _ => .ok ()
  offeredShares config :=
    match machine.samba config SMBCLIENT ["-L","localhost","-N","-g"] with
    | .error e => .error (.rejectedRolledBack ("smbd would not answer a local connection (" ++ e.message ++
        "); if smbd is not running, start it and publish again"))
    | .ok out => .ok (shareNames out)

def nameCharacter (character : Char) : Bool :=
  character.isAlphanum || character = '_' || character = '-' || character = '.' || character = ' '

def nameRefusal (name : String) : Option String :=
  if name = "" then some "it is empty"
  else if MAX_SHARE_NAME < name.utf8ByteSize then some "samba will not serve a name longer than 80 bytes"
  else if RESERVED_SECTIONS.any (fun reserved => eqIgnoreAsciiCase reserved name) then
    some "it is a reserved smb.conf section name"
  else if name.toList.head? = some ' ' || name.toList.getLast? = some ' ' || name.toList.head? = some '.' then
    some "leading or trailing space, or a leading dot"
  else (name.toList.find? (fun character => !nameCharacter character)).map
    (fun bad => "character " ++ debugChar bad ++ " is not allowed in a share name")

def checkShareName (name : String) : Except SambaError Unit :=
  match nameRefusal name with
  | some why => .error (.unrepresentable ("share name " ++ debug name ++ " cannot be written to smb.conf: " ++ why))
  | none => .ok ()

def mountpointRefusal (path : String) : Option String :=
  if path = "" || path = "-" then some "it has no mountpoint"
  else if path = "none" then some "its mountpoint is `none`"
  else if path = "legacy" then some "its mountpoint is `legacy`, so ZFS does not know where it is"
  else if path = "/" then some "it is mounted at the filesystem root"
  else if path.toList.head? ≠ some '/' then some "its mountpoint is not an absolute path"
  else match path.toList.find? isControl with
    | some bad => some ("its mountpoint contains " ++ debugChar bad)
    | none =>
      if path.toList.contains '%' then some "its mountpoint contains `%`, which smb.conf would expand" else none

def checkMountpoint (dataset path : String) : Except SambaError Unit :=
  match mountpointRefusal path with
  | some why => .error (.unrepresentable ("dataset " ++ dataset ++ " cannot be shared: " ++ why ++
      " (mountpoint " ++ debug path ++ ")"))
  | none => .ok ()

def planOne (host : SambaHost) (spec : ShareSpec) : Except SambaError Section := do
  checkShareName spec.name.text
  let path ← host.mountpoint spec.dataset
  checkMountpoint spec.dataset path
  return ⟨spec.name.text,path,spec.readOnly,spec.validUsers.map SmbPrincipal.render⟩

def plan (host : SambaHost) : List ShareSpec → Except SambaError (List Section)
  | [] => .ok []
  | spec::rest => do
    let one ← planOne host spec
    let others ← plan host rest
    return one::others

def header : List String :=
  ["# Managed by DEPSIS. Generated file — every edit here is lost on the next publish.",
    "#",
    "# DEPSIS never writes smb.conf itself: that file is the operator's, and rewriting it",
    "# would delete settings DEPSIS knows nothing about. For these shares to be served,",
    "# smb.conf must contain one line:",
    "#",
    "#     include = /etc/samba/depsis.conf",
    "#",
    "# Without it smbd serves none of the sections below, and DEPSIS refuses the publish",
    "# rather than reporting shares that do not exist."]

def accessLines : List String :=
  ["\tguest ok = no","\tcreate mask = 0770","\tdirectory mask = 0770","\tinherit acls = yes"]

def auditLines : List String :=
  ["\tvfs objects = recycle full_audit",
    "\trecycle:repository = !DEPSIS Çöp Kutusu",
    "\trecycle:keeptree = yes",
    "\trecycle:versions = no",
    "\trecycle:touch = no",
    "\trecycle:touch_mtime = no",
    "\trecycle:directory_mode = 0770",
    "\trecycle:subdir_mode = 0770",
    "\trecycle:exclude_dir = .depsis/!DEPSIS Çöp Kutusu",
    "\tfull_audit:prefix = %u|%I|%S",
    "\tfull_audit:success = create_file renameat unlinkat mkdirat close ftruncate linkat symlinkat",
    "\tfull_audit:failure = none",
    "\tfull_audit:facility = local5",
    "\tfull_audit:priority = notice",
    "\tveto files = /.depsis/.depsis-keep/",
    "\tdelete veto files = no"]

def Section.userLines (share : Section) : List String :=
  if share.validUsers = [] then [] else ["\tvalid users = " ++ " ".intercalate share.validUsers]

def Section.lines (share : Section) : List String :=
  ["","[" ++ share.name ++ "]","\tcomment = DEPSIS share","\tpath = " ++ share.path,"\tbrowseable = yes",
    "\tread only = " ++ (if share.readOnly then "yes" else "no")] ++
    (accessLines ++ (share.userLines ++ auditLines))

def render (sections : List Section) : String :=
  String.join ((header ++ sections.flatMap Section.lines).map (fun line => line ++ "\n"))

theorem nameRefusal_none {name : String} (fits : nameRefusal name = none) :
    name.toList ≠ [] ∧ eqIgnoreAsciiCase "global" name = false ∧ name.toList.head? ≠ some ' ' ∧
      name.toList.getLast? ≠ some ' ' ∧ ∀ character ∈ name.toList, nameCharacter character = true := by
  unfold nameRefusal at fits
  split_ifs at fits with empty long reserved edges
  simp only [Bool.or_eq_true,decide_eq_true_eq,not_or] at edges
  refine ⟨fun nothing => empty (String.toList_inj.mp nothing),?_,edges.1.1,edges.1.2,fun character member => ?_⟩
  · refine Bool.eq_false_iff.mpr (fun same => reserved ?_)
    exact List.any_eq_true.mpr ⟨"global",List.mem_cons_self,same⟩
  · have clear := List.find?_eq_none.mp (Option.map_eq_none_iff.mp fits) character member
    simpa using clear

theorem mountpointRefusal_none {path : String} (fits : mountpointRefusal path = none) :
    path.toList.head? = some '/' ∧ (∀ character ∈ path.toList, isControl character = false) ∧ '%' ∉ path.toList := by
  unfold mountpointRefusal at fits
  split_ifs at fits with missing word legacy root relative percent
  next => split at fits <;> cases fits
  next =>
    split at fits
    next => cases fits
    next clear =>
      refine ⟨not_not.mp relative,fun character member => ?_,fun member => percent (List.contains_iff_mem.mpr member)⟩
      simpa using List.find?_eq_none.mp clear character member

theorem planOne_ok {host : SambaHost} {spec : ShareSpec} {share : Section} (planned : planOne host spec = .ok share) :
    nameRefusal spec.name.text = none ∧ host.mountpoint spec.dataset = .ok share.path ∧
      mountpointRefusal share.path = none ∧
      share = ⟨spec.name.text,share.path,spec.readOnly,spec.validUsers.map SmbPrincipal.render⟩ := by
  simp only [planOne,checkShareName,checkMountpoint] at planned
  cases named : nameRefusal spec.name.text with
  | some why => simp [named,bind,Except.bind] at planned
  | none =>
    cases mounted : host.mountpoint spec.dataset with
    | error e => simp [named,mounted,bind,Except.bind] at planned
    | ok path =>
      cases placed : mountpointRefusal path with
      | some why => simp [named,mounted,placed,bind,Except.bind] at planned
      | none =>
        simp only [named,mounted,placed,bind,Except.bind,pure,Except.pure,Except.ok.injEq] at planned
        subst share
        exact ⟨rfl,rfl,placed,rfl⟩

theorem plan_ok {host : SambaHost} {shares : List ShareSpec} {sections : List Section}
    (planned : plan host shares = .ok sections) :
    List.Forall₂ (fun spec share => planOne host spec = .ok share) shares sections := by
  induction shares generalizing sections with
  | nil =>
    cases planned
    exact .nil
  | cons spec rest ih =>
    rw [plan] at planned
    cases one : planOne host spec with
    | error e => simp [one,bind,Except.bind] at planned
    | ok share =>
      cases others : plan host rest with
      | error e => simp [one,others,bind,Except.bind] at planned
      | ok found =>
        simp only [one,others,bind,Except.bind,pure,Except.pure,Except.ok.injEq] at planned
        subst sections
        exact .cons one (ih others)

end Depsis.Shares

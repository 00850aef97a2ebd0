import Depsis.Foundation.Decimal
import Depsis.Foundation.Utf8
import Mathlib.Data.List.Sort

/-! The process list of the panel, and the guard in front of a kill. The one reads the files of every process in
`/proc`, the other those of the process it is asked about.
-/
namespace Depsis.Agent.Procs

open Depsis.Foundation Text Utf8 List

structure Files where
  cmdline : Option (List UInt8)
  comm : Option (List UInt8)
  status : Option (List UInt8)

/-- `/proc`: its numbered directories, in any order. -/
structure ProcRoot where
  pids : List Nat
  once : pids.Nodup
  files : Nat → Files
  there : ∀ pid, (files pid).comm ≠ none → pid ∈ pids

structure ProcessInfo where
  pid : Nat
  uid : Nat
  user : List Char
  comm : List Char
  args : List Char
  rssBytes : Nat
  isProtected : Bool

def MAX_PROCESSES : Nat := 400

def PROTECTED_COMMS : List (List Char) :=
  ["systemd","systemd-journal","systemd-logind","systemd-udevd","systemd-timesyn","dbus-daemon","sshd","sshd-session",
    "postgres","nginx","node","depsis-agent","depsis-console","zerotier-one","podman","conmon","agetty","login",
    "cron"].map String.toList

def isProtected (uid : Nat) (comm : List Char) : Bool := uid = 0 || PROTECTED_COMMS.contains comm

/-- `str::parse` of an unsigned number below a bound. -/
def parseUnsigned (bound : Nat) : List Char → Option Nat
  | '+'::rest => (Decimal.digits rest).filter (fun number => number < bound)
  | text => (Decimal.digits text).filter (fun number => number < bound)

def parseU32 : List Char → Option Nat := parseUnsigned 4294967296

def parseU64 : List Char → Option Nat := parseUnsigned 18446744073709551616

def userNames (passwd : List Char) : Nat → Option (List Char) :=
  (lines passwd).foldl (fun names line =>
    match line.splitOn ':' with
    | name::_::uid::_ =>
      match parseU32 uid with
      | some uid => Function.update names uid (some name)
      | none => names
    | _ => names) (fun _ => none)

/-- The first word after a label that stands at the start of a line, read as a number. -/
def labelled (label : String) (parse : List Char → Option Nat) (status : List Char) : Nat :=
  (((lines status).findSome? (stripPrefix label.toList)).bind (fun line => (words line).head?.bind parse)).getD 0

def maskCredentials (arg : List Char) : List Char :=
  match splitOnce "://".toList arg with
  | none => arg
  | some (scheme,rest) =>
    let authority := rest.takeWhile (fun character => !(['/','?','#'].contains character))
    let tail := rest.dropWhile (fun character => !(['/','?','#'].contains character))
    match rsplitOnce '@' authority with
    | none => arg
    | some (userinfo,host) =>
      match splitOnce [':'] userinfo with
      | none => arg
      | some (user,_) => scheme ++ "://".toList ++ user ++ ":***@".toList ++ host ++ tail

/-- What `String::truncate` panics at. -/
inductive Panic
  | charBoundary

def truncate (text : List Char) (cut : Nat) : Except Panic (List Char) :=
  if Begins ((encode text).drop cut) then .ok (decode ((encode text).take cut)) else .error .charBoundary

def argsOf (cmdline : List UInt8) : List Char :=
  [' '].intercalate (((cmdline.splitOn 0).filter (fun part => part ≠ [])).map (fun part => maskCredentials (decode part)))

def shorten (args : List Char) : Except Panic (List Char) :=
  if 200 < (encode args).length then (· ++ ['…']) <$> truncate args 200 else .ok args

def readToString (file : Option (List UInt8)) : Option (List Char) := file.bind strict

def read (files : Files) : Option (List UInt8 × List Char × List Char) := do
  let cmdline ← files.cmdline
  if cmdline = [] then none
  else
    let comm ← readToString files.comm
    let status ← readToString files.status
    some (cmdline,trim comm,status)

def infoOf (names : Nat → Option (List Char)) (pid : Nat) :
    List UInt8 × List Char × List Char → Except Panic ProcessInfo
  | (cmdline,comm,status) => do
    let uid := labelled "Uid:" parseU32 status
    let args ← shorten (argsOf cmdline)
    .ok ⟨pid,uid,(names uid).getD (Decimal.render uid),comm,args,labelled "VmRSS:" parseU64 status * 1024 % 18446744073709551616,
      isProtected uid comm⟩

variable (root : ProcRoot) (names : Nat → Option (List Char))

def visit : List Nat → List ProcessInfo → Except Panic (List ProcessInfo × Bool)
  | [],out => .ok (out,false)
  | pid::rest,out =>
    if MAX_PROCESSES ≤ out.length then .ok (out,true)
    else
      match read (root.files pid) with
      | none => visit rest out
      | some files =>
        match infoOf names pid files with
        | .error panic => .error panic
        | .ok info => visit rest (out ++ [info])

def sorted : List Nat := root.pids.insertionSort (· ≤ ·)

def snapshot (passwd : List Char) : Except Panic (List ProcessInfo × Bool) := visit root (userNames passwd) (sorted root) []

inductive Refusal where
  | pidOne
  | gone (pid : Nat)
  | stale (pid : Nat) (comm expected : List Char)
  | system (comm : List Char)
  | kernelThread (pid : Nat)

def checkKill (pid : Nat) (expected : List Char) : Except Refusal Unit :=
  if pid ≤ 1 then .error .pidOne
  else
    match readToString (root.files pid).comm with
    | none => .error (.gone pid)
    | some comm =>
      if trim comm ≠ expected then .error (.stale pid (trim comm) expected)
      else
        match readToString (root.files pid).status with
        | none => .error (.gone pid)
        | some status =>
          if isProtected (labelled "Uid:" parseU32 status) (trim comm) then .error (.system (trim comm))
          else
            match (root.files pid).cmdline with
            | none => .error (.gone pid)
            | some cmdline => if cmdline = [] then .error (.kernelThread pid) else .ok ()

def listable (pid : Nat) : Bool := (read (root.files pid)).isSome

def Short (args : List Char) : Prop :=
  (encode args).length ≤ 200 ∨ ∃ front, args = front ++ ['…'] ∧ (encode front).length ≤ 200

structure Lists (passwd : List Char) (out : List ProcessInfo) (truncated : Bool) : Prop where
  returned : snapshot root passwd = .ok (out,truncated)
  ordered : out.map ProcessInfo.pid = ((sorted root).filter (listable root)).take MAX_PROCESSES
  whole : truncated = false → out.map ProcessInfo.pid = (sorted root).filter (listable root)
  short : ∀ info ∈ out, Short info.args
  agrees : truncated = false → ∀ pid comm, checkKill root pid comm = .ok () ↔
    1 < pid ∧ ∃ info ∈ out, info.pid = pid ∧ info.comm = comm ∧ info.isProtected = false

/-- The arguments are short, or no character lies across their byte 200. -/
def Fit (args : List Char) : Prop := (encode args).length ≤ 200 ∨ Begins ((encode args).drop 200)

def Fits : Prop := ∀ pid ∈ ((sorted root).filter (listable root)).take MAX_PROCESSES,
  ∀ cmdline ∈ (root.files pid).cmdline, Fit (argsOf cmdline)

variable {root names} {pids : List Nat} {out all : List ProcessInfo} {truncated : Bool} {pid : Nat}

theorem shorten_ok {args : List Char} : (∃ short, shorten args = .ok short) ↔ Fit args := by
  unfold shorten Fit
  split
  next long =>
    unfold truncate
    split
    next begins => exact ⟨fun _ => .inr begins,fun _ => ⟨_,rfl⟩⟩
    next inner =>
      constructor
      · intro done
        obtain ⟨_,same⟩ := done
        cases same
      · intro fit
        rcases fit with few | begins
        · exact absurd long (Nat.not_lt.mpr few)
        · exact absurd begins inner
  next few => exact ⟨fun _ => .inl (Nat.not_lt.mp few),fun _ => ⟨_,rfl⟩⟩

theorem shorten_short {args short : List Char} (done : shorten args = .ok short) : Short short := by
  unfold shorten truncate at done
  split at done
  next long =>
    split at done <;> cases done
    next begins =>
      obtain ⟨front,back,-,same,-⟩ := encode_split (take_append_drop 200 (encode args)).symm begins
      refine .inr ⟨_,rfl,?_⟩
      rw [same,decode_encode,← same,length_take]
      exact Nat.min_le_left _ _
  next few =>
    cases done
    exact .inl (Nat.not_lt.mp few)

theorem read_some {files : Files} {cmdline : List UInt8} {comm status : List Char} :
    read files = some (cmdline,comm,status) ↔ files.cmdline = some cmdline ∧ cmdline ≠ [] ∧
      (∃ raw, readToString files.comm = some raw ∧ trim raw = comm) ∧ readToString files.status = some status := by
  unfold read
  cases files.cmdline with
  | none => simp
  | some bytes =>
    by_cases empty : bytes = []
    · simp only [Option.bind_eq_bind,Option.bind_some,if_pos empty]
      constructor
      · nofun
      · intro both
        cases both.1
        exact absurd empty both.2.1
    · cases readToString files.comm with
      | none => simp
      | some raw =>
        cases readToString files.status with
        | none => simp
        | some text =>
          simp only [Option.bind_eq_bind,Option.bind_some,if_neg empty,Option.some.injEq,Prod.mk.injEq]
          constructor
          · intro same
            obtain ⟨rfl,rfl,rfl⟩ := same
            exact ⟨rfl,empty,⟨raw,rfl,rfl⟩,rfl⟩
          · intro same
            obtain ⟨rfl,-,⟨_,rfl,rfl⟩,rfl⟩ := same
            exact ⟨rfl,rfl,rfl⟩

theorem infoOf_ok {files : List UInt8 × List Char × List Char} {info : ProcessInfo} (done : infoOf names pid files = .ok info) :
    info.pid = pid ∧ info.comm = files.2.1 ∧ info.isProtected = isProtected (labelled "Uid:" parseU32 files.2.2) files.2.1 ∧
      shorten (argsOf files.1) = .ok info.args := by
  obtain ⟨cmdline,comm,status⟩ := files
  unfold infoOf at done
  dsimp only at done
  cases cut : shorten (argsOf cmdline) with
  | error panic => rw [cut] at done; cases done
  | ok args =>
    rw [cut] at done
    cases done
    exact ⟨rfl,rfl,rfl,rfl⟩

theorem visit_ends (few : out.length ≤ MAX_PROCESSES) : (∃ answer, visit root names pids out = .ok answer) ↔
    ∀ pid ∈ (pids.filter (listable root)).take (MAX_PROCESSES - out.length),
      ∀ cmdline ∈ (root.files pid).cmdline, Fit (argsOf cmdline) := by
  induction pids generalizing out with
  | nil => simp [visit]
  | cons pid rest ih =>
    unfold visit
    split
    next full =>
      rw [Nat.sub_eq_zero_of_le full,take_zero]
      exact ⟨fun _ => nofun,fun _ => ⟨_,rfl⟩⟩
    next room =>
      cases found : read (root.files pid) with
      | none =>
        rw [filter_cons_of_neg (by simp [listable,found])]
        exact ih few
      | some files =>
        obtain ⟨cmdline,comm,status⟩ := files
        have held := (read_some.mp found).1
        have left : MAX_PROCESSES - out.length = (MAX_PROCESSES - (out.length + 1)) + 1 := by omega
        rw [filter_cons_of_pos (by simp [listable,found]),left,take_succ_cons,forall_mem_cons]
        have first : (∀ bytes ∈ (root.files pid).cmdline, Fit (argsOf bytes)) ↔ ∃ short, shorten (argsOf cmdline) = .ok short := by
          rw [held,shorten_ok]
          exact ⟨fun each => each cmdline rfl,fun fit bytes same => by cases same; exact fit⟩
        rw [first]
        unfold infoOf
        dsimp only
        cases cut : shorten (argsOf cmdline) with
        | error panic =>
          constructor
          · intro ends
            obtain ⟨answer,ends⟩ := ends
            cases ends
          · intro both
            obtain ⟨short,same⟩ := both.1
            cases same
        | ok args =>
          have longer (info : ProcessInfo) : (out ++ [info]).length = out.length + 1 := length_append
          refine (ih (by rw [longer]; exact Nat.not_le.mp room)).trans ?_
          rw [longer]
          exact ⟨fun fits => ⟨⟨args,rfl⟩,fits⟩,And.right⟩

theorem visit_lists (few : out.length ≤ MAX_PROCESSES) (done : visit root names pids out = .ok (all,truncated)) :
    ∃ more, all = out ++ more ∧ more.map ProcessInfo.pid = (pids.filter (listable root)).take (MAX_PROCESSES - out.length) ∧
      (truncated = false → more.map ProcessInfo.pid = pids.filter (listable root)) ∧
      ∀ info ∈ more, ∃ files, read (root.files info.pid) = some files ∧ infoOf names info.pid files = .ok info := by
  induction pids generalizing out with
  | nil =>
    cases done
    exact ⟨[],(append_nil _).symm,take_nil.symm,fun _ => rfl,nofun⟩
  | cons pid rest ih =>
    unfold visit at done
    split at done
    next full =>
      cases done
      rw [Nat.sub_eq_zero_of_le full,take_zero]
      exact ⟨[],(append_nil _).symm,rfl,nofun,nofun⟩
    next room =>
      cases found : read (root.files pid) with
      | none =>
        rw [found] at done
        rw [filter_cons_of_neg (by simp [listable,found])]
        exact ih few done
      | some files =>
        rw [found] at done
        dsimp only at done
        cases made : infoOf names pid files with
        | error panic => rw [made] at done; cases done
        | ok info =>
          rw [made] at done
          obtain ⟨more,rfl,taken,whole,each⟩ := ih (by rw [length_append]; exact Nat.not_le.mp room) done
          have own := (infoOf_ok made).1
          have left : MAX_PROCESSES - out.length = (MAX_PROCESSES - (out ++ [info]).length) + 1 := by
            rw [length_append,length_singleton]
            omega
          rw [filter_cons_of_pos (by simp [listable,found]),left,take_succ_cons]
          refine ⟨info::more,by rw [append_assoc]; rfl,by rw [map_cons,own,taken],fun still => ?_,?_⟩
          · rw [map_cons,own,whole still]
          · exact forall_mem_cons.mpr ⟨⟨files,own.symm ▸ found,own.symm ▸ made⟩,each⟩

theorem checkKill_ok {comm : List Char} : checkKill root pid comm = .ok () ↔ 1 < pid ∧ ∃ cmdline status,
    read (root.files pid) = some (cmdline,comm,status) ∧ isProtected (labelled "Uid:" parseU32 status) comm = false := by
  simp only [read_some]
  unfold checkKill
  split
  next low => exact ⟨nofun,fun both => absurd low (Nat.not_le.mpr both.1)⟩
  next high =>
    cases readToString (root.files pid).comm with
    | none => simp
    | some raw =>
      dsimp only
      split
      next other =>
        refine ⟨nofun,fun both => ?_⟩
        obtain ⟨-,cmdline,status,⟨-,-,⟨_,same,rfl⟩,-⟩,-⟩ := both
        cases same
        exact absurd rfl other
      next same =>
        rw [not_not] at same
        subst same
        cases readToString (root.files pid).status with
        | none => simp
        | some status =>
          dsimp only
          split
          next system => simp [system]
          next free =>
            cases (root.files pid).cmdline with
            | none => simp
            | some cmdline =>
              dsimp only
              split
              next empty => simp [empty]
              next filled => simpa [filled,free] using high

def accented : ProcRoot where
  pids := [7]
  once := nodup_singleton _
  files pid := if pid = 7 then ⟨some (List.replicate 199 97 ++ [0xC3,0xA9]),some [97],some []⟩ else ⟨none,none,none⟩
  there pid held := by
    by_cases seven : pid = 7
    · exact mem_singleton.mpr seven
    · rw [if_neg seven] at held
      exact absurd rfl held

end Depsis.Agent.Procs

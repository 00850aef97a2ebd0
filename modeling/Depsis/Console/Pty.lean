import Depsis.Foundation.Decimal
import Depsis.Foundation.Utf8

/-! Ending a console session: the processes that `/proc` lists under the session of the shell.
-/
namespace Depsis.Console.Pty
open Depsis.Foundation List

/-- An entry of `/proc`, and the bytes of its `stat` where they can be read. -/
structure Entry where
  name : List UInt8
  stat : Option (List UInt8)

/-- The session after the last `)`: state, ppid, pgrp, session. -/
def statSession (stat : List Char) : Option Int :=
  (Text.rsplitOnce ')' stat).bind (fun parts => ((Text.words parts.2)[3]?).bind Decimal.parseInt32)

def pidOf (name : List UInt8) : Option Int := (Utf8.strict name).bind Decimal.parseInt32

def sessionOf (entry : Entry) : Option Int := (entry.stat.bind Utf8.strict).bind statSession

def member (sid : Int) (entry : Entry) : Option Int :=
  (pidOf entry.name).bind (fun pid => if sessionOf entry = some sid then some pid else none)

def sessionMembers (entries : Option (List Entry)) (sid : Int) : List Int := (entries.getD []).filterMap (member sid)

def signalSession (entries : Option (List Entry)) (shell : Int) : List Int :=
  if shell = 0 then []
  else -shell::(sessionMembers entries shell).filter (fun member => member ≠ shell && member ≠ 0)

structure Process where
  pid : Nat
  comm : List UInt8
  state : Char
  ppid : Int
  pgrp : Int
  session : Int
  more : List Int
  pidFits : 0 < pid ∧ pid < 2147483648
  letter : state.isAlpha = true
  sessionFits : -2147483648 ≤ session ∧ session < 2147483648

def Process.after (process : Process) : List Char :=
  ' ' :: process.state :: ' ' :: (Decimal.render process.ppid ++ ' ' :: (Decimal.render process.pgrp ++ ' ' ::
    (Decimal.render process.session ++ (process.more.flatMap (fun number => ' ' :: Decimal.render number) ++ ['\n']))))

/-- `<pid> (<comm>) <state> <ppid> <pgrp> <session> ...` -/
def Process.stat (process : Process) : List UInt8 :=
  Utf8.encode (Nat.toDigits 10 process.pid ++ [' ','(']) ++ (process.comm ++ Utf8.encode (')' :: process.after))

inductive Listed where
  | process (process : Process)
  | other (entry : Entry)

def Listed.entry : Listed → Entry
  | .process shown => ⟨Utf8.encode (Nat.toDigits 10 shown.pid),some shown.stat⟩
  | .other entry => entry

def Listed.process? : Listed → Option Process
  | .process shown => some shown
  | .other _ => none

/-- A snapshot of `/proc`: each pid once, and no `stat` under any other number. -/
structure ProcTable where
  listed : List Listed
  distinct : ((listed.filterMap Listed.process?).map Process.pid).Nodup
  others : ∀ entry, .other entry ∈ listed → pidOf entry.name = none ∨ entry.stat = none

namespace ProcTable

def entries (table : ProcTable) : List Entry := table.listed.map Listed.entry

def processes (table : ProcTable) : List Process := table.listed.filterMap Listed.process?

/-- The shell leads a session: `setsid` gave the session and its group one number, a group is
within one session, and the leader stays in its group.
-/
structure Leads (table : ProcTable) (shell : Int) : Prop where
  started : 1 < shell
  group : ∀ process ∈ table.processes, process.pgrp = shell → process.session = shell
  leader : ∀ process ∈ table.processes, (process.pid : Int) = shell → process.pgrp = shell

end ProcTable

/-- Whom `kill` signals: a process, every process, or a group. -/
def kill (argument : Int) (process : Process) : Bool :=
  if 0 < argument then (process.pid : Int) = argument
  else if argument = -1 then true
  else process.pgrp = -argument

def Signalled (table : ProcTable) (shell : Int) (process : Process) : Prop :=
  ∃ argument ∈ signalSession (some table.entries) shell, kill argument process = true

structure SessionExact (table : ProcTable) (sid : Int) : Prop where
  once : (sessionMembers (some table.entries) sid).Nodup
  members : ∀ pid, pid ∈ sessionMembers (some table.entries) sid ↔
    ∃ process ∈ table.processes, (process.pid : Int) = pid ∧ process.session = sid
  signalled : table.Leads sid → ∀ process ∈ table.processes, Signalled table sid process ↔ process.session = sid

theorem pidOf_process (process : Process) : pidOf (Listed.process process).entry.name = some (process.pid : Int) := by
  have small := process.pidFits.2
  change (Utf8.strict (Utf8.encode (Decimal.render (.ofNat process.pid)))).bind Decimal.parseInt32 = _
  rw [Utf8.strict_encode,Option.bind_some,Decimal.parseInt32_render]
  · rfl
  · exact Int.le_trans (by decide) (Int.natCast_nonneg process.pid)
  · exact Int.ofNat_lt.mpr small

theorem letter_solid {letter : Char} (alpha : letter.isAlpha = true) : Text.whitespace letter = false := by
  have range : 65 ≤ letter.toNat ∧ letter.toNat ≤ 90 ∨ 97 ≤ letter.toNat ∧ letter.toNat ≤ 122 := by
    rcases Bool.or_eq_true_iff.mp alpha with upper | lower
    · have bounds := of_decide_eq_true upper
      exact .inl ⟨UInt32.le_iff_toNat_le.mp bounds.1,UInt32.le_iff_toNat_le.mp bounds.2⟩
    · obtain ⟨least,most⟩ := Bool.and_eq_true_iff.mp lower
      exact .inr ⟨UInt32.le_iff_toNat_le.mp (of_decide_eq_true least),UInt32.le_iff_toNat_le.mp (of_decide_eq_true most)⟩
  simp only [Text.whitespace]
  simp
  omega

theorem after_solid {process : Process} : ')' ∉ process.after := by
  have number : ∀ value : Int, ')' ∉ Decimal.render value := by
    intro value inside
    rcases Decimal.mem_render inside with digit | same
    · cases digit
    · cases same
  have letter : ')' ≠ process.state := by
    intro same
    have alpha := process.letter
    rw [← same] at alpha
    cases alpha
  simp [Process.after,number,letter]

theorem after_session (process : Process) : (Text.words process.after)[3]? = some (Decimal.render process.session) := by
  have blank : Text.whitespace ' ' = true := rfl
  have state : ∀ rest, Text.words (process.state :: ' ' :: rest) = [process.state]::Text.words rest := by
    intro rest
    apply @Text.words_word [process.state] (cons_ne_nil _ _) _ ' ' blank rest
    intro character member
    rw [mem_singleton.mp member]
    exact letter_solid process.letter
  have number : ∀ (value : Int) rest, Text.words (Decimal.render value ++ ' ' :: rest) = Decimal.render value::Text.words rest := by
    intro value rest
    exact Text.words_word (Decimal.render_ne_nil value) Decimal.render_solid blank rest
  rw [Process.after,Text.words_blank blank,state,number,number]
  cases process.more with
  | nil =>
    have last : Text.words (Decimal.render process.session ++ '\n' :: []) = Decimal.render process.session::Text.words [] :=
      Text.words_word (Decimal.render_ne_nil _) Decimal.render_solid rfl []
    rw [flatMap_nil,nil_append,last]
    rfl
  | cons first rest =>
    rw [flatMap_cons,cons_append,cons_append,number]
    rfl

end Depsis.Console.Pty

import Depsis.Console.Pty
import Mathlib.Data.List.Nodup

/-! The end of a session reaches its processes where their command names are text, and never
another session.
-/
namespace Depsis.Console.Pty
open Depsis.Foundation List

def Process.named (process : Process) : Bool := (Utf8.strict process.comm).isSome

theorem strict_stat (process : Process) :
    Utf8.strict process.stat = (Utf8.strict process.comm).map
      (fun comm => Nat.toDigits 10 process.pid ++ [' ','('] ++ (comm ++ ')' :: process.after)) := by
  rw [Process.stat,Utf8.strict_front,Utf8.strict_back,Option.map_map]
  rfl

theorem statSession_shown (process : Process) (front : List Char) :
    statSession (front ++ ')' :: process.after) = some process.session := by
  obtain ⟨least,most⟩ := process.sessionFits
  rw [statSession,Text.rsplitOnce_append front after_solid,Option.bind_some]
  dsimp only
  rw [after_session,Option.bind_some,Decimal.parseInt32_render least most]

theorem sessionOf_process (process : Process) :
    sessionOf (Listed.process process).entry = if process.named then some process.session else none := by
  change (Utf8.strict process.stat).bind statSession = _
  rw [strict_stat,Process.named]
  cases Utf8.strict process.comm with
  | none => rfl
  | some comm =>
    rw [Option.map_some,Option.bind_some,← append_assoc,statSession_shown]
    rfl

theorem listed_members (sid : Int) (listed : List Listed)
    (others : ∀ entry, .other entry ∈ listed → pidOf entry.name = none ∨ entry.stat = none) :
    sessionMembers (some (listed.map Listed.entry)) sid =
      ((listed.filterMap Listed.process?).filter (fun process => decide (process.session = sid) && process.named)).map
        (fun process => (process.pid : Int)) := by
  simp only [sessionMembers,Option.getD_some]
  induction listed with
  | nil => rfl
  | cons first rest ih =>
    have later := ih (fun entry inside => others entry (mem_cons_of_mem _ inside))
    rw [map_cons,filterMap_cons,later]
    cases first with
    | process shown =>
      have read : member sid (Listed.process shown).entry =
          if shown.session = sid ∧ shown.named = true then some (shown.pid : Int) else none := by
        rw [member,pidOf_process,sessionOf_process,Option.bind_some]
        by_cases named : shown.named = true
        · simp [named]
        · simp [named]
      rw [read,filterMap_cons]
      simp only [Listed.process?]
      by_cases session : shown.session = sid
      · by_cases named : shown.named = true
        all_goals simp [named,session]
      · simp [session]
    | other entry =>
      have skipped : member sid (Listed.other entry).entry = none := by
        rcases others entry mem_cons_self with nameless | gone
        · rw [member,Listed.entry,nameless,Option.bind_none]
        · have silent : sessionOf entry = none := by rw [sessionOf,gone,Option.bind_none,Option.bind_none]
          rw [member,Listed.entry,silent]
          cases pidOf entry.name <;> rfl
      rw [skipped,filterMap_cons]
      rfl

theorem members_eq (table : ProcTable) (sid : Int) :
    sessionMembers (some table.entries) sid =
      (table.processes.filter (fun process => decide (process.session = sid) && process.named)).map
        (fun process => (process.pid : Int)) :=
  listed_members sid table.listed table.others

theorem members_iff (table : ProcTable) (sid pid : Int) :
    pid ∈ sessionMembers (some table.entries) sid ↔
      ∃ process ∈ table.processes, (process.pid : Int) = pid ∧ process.session = sid ∧ process.named = true := by
  rw [members_eq,mem_map]
  constructor
  · intro found
    obtain ⟨process,kept,same⟩ := found
    obtain ⟨member,holds⟩ := mem_filter.mp kept
    obtain ⟨session,named⟩ := Bool.and_eq_true_iff.mp holds
    exact ⟨process,member,same,of_decide_eq_true session,named⟩
  · intro found
    obtain ⟨process,member,same,session,named⟩ := found
    exact ⟨process,mem_filter.mpr ⟨member,Bool.and_eq_true_iff.mpr ⟨decide_eq_true session,named⟩⟩,same⟩

theorem members_nodup (table : ProcTable) (sid : Int) : (sessionMembers (some table.entries) sid).Nodup := by
  rw [members_eq]
  have kept : ((table.processes.filter (fun process => decide (process.session = sid) && process.named)).map Process.pid).Nodup :=
    table.distinct.sublist (filter_sublist.map _)
  have cast := List.Nodup.map (fun first second same => Int.ofNat.inj same) kept
  rw [map_map] at cast
  exact cast

theorem process_unique (table : ProcTable) {first second : Process} (one : first ∈ table.processes) (other : second ∈ table.processes)
    (same : first.pid = second.pid) : first = second :=
  inj_on_of_nodup_map table.distinct one other same

theorem signalled_own {table : ProcTable} {shell : Int} (leads : table.Leads shell) {process : Process}
    (member : process ∈ table.processes) (signalled : Signalled table shell process) : process.session = shell := by
  have started := leads.started
  obtain ⟨argument,called,hit⟩ := signalled
  rw [signalSession,if_neg (by omega)] at called
  rcases mem_cons.mp called with rfl | called
  · rw [kill,if_neg (by omega),if_neg (by omega)] at hit
    have group : process.pgrp = shell := by simpa using hit
    exact leads.group process member group
  · obtain ⟨found,-⟩ := mem_filter.mp called
    obtain ⟨other,inside,same,session,-⟩ := (members_iff table shell argument).mp found
    have positive := other.pidFits.1
    rw [kill,if_pos (by omega)] at hit
    have pid : (process.pid : Int) = argument := by simpa using hit
    rw [process_unique table member inside (by omega)]
    exact session

theorem signalled_named {table : ProcTable} {shell : Int} (leads : table.Leads shell) {process : Process}
    (member : process ∈ table.processes) (session : process.session = shell) (named : process.named = true) :
    Signalled table shell process := by
  have started := leads.started
  have positive := process.pidFits.1
  by_cases lead : (process.pid : Int) = shell
  · refine ⟨-shell,?_,?_⟩
    · rw [signalSession,if_neg (by omega)]
      exact mem_cons_self
    · rw [kill,if_neg (by omega),if_neg (by omega)]
      simpa using leads.leader process member lead
  · refine ⟨process.pid,?_,?_⟩
    · rw [signalSession,if_neg (by omega)]
      apply mem_cons_of_mem
      apply mem_filter.mpr
      refine ⟨(members_iff table shell process.pid).mpr ⟨process,member,rfl,session,named⟩,?_⟩
      have apart : (process.pid : Int) ≠ 0 := by omega
      simpa using ⟨lead,by omega⟩
    · rw [kill,if_pos (by omega)]
      simp

private theorem exact_iff (table : ProcTable) (sid : Int) :
    SessionExact table sid ↔ ∀ process ∈ table.processes, process.session = sid → process.named = true := by
  constructor
  · intro holds process member session
    obtain ⟨other,inside,pid,-,named⟩ :=
      (members_iff table sid process.pid).mp ((holds.members process.pid).mpr ⟨process,member,rfl,session⟩)
    rw [process_unique table member inside (by omega)]
    exact named
  · intro named
    constructor
    · exact members_nodup table sid
    · intro pid
      rw [members_iff]
      constructor
      · intro found
        obtain ⟨process,member,same,session,-⟩ := found
        exact ⟨process,member,same,session⟩
      · intro found
        obtain ⟨process,member,same,session⟩ := found
        exact ⟨process,member,same,session,named process member session⟩
    · intro leads process member
      constructor
      · exact signalled_own leads member
      · intro session
        exact signalled_named leads member session (named process member session)

/-- Ending a session reaches exactly its own processes where all of them have a command name that is text. -/
theorem session_exact (table : ProcTable) (sid : Int) :
    SessionExact table sid ↔ ∀ process ∈ table.processes, process.session = sid → (Utf8.strict process.comm).isSome = true :=
  exact_iff table sid

def cutName : ProcTable where
  listed :=
    [.process ⟨100,[98,97,115,104],'S',1,100,100,[],by decide,by decide,by decide⟩,
     .process ⟨101,[115,97,195],'S',100,101,100,[],by decide,by decide,by decide⟩]
  distinct := by decide
  others := by
    intro entry inside
    simp at inside

/-- It outlives the session: neither the list nor the signals reach it. -/
theorem cut_name_missed : ¬SessionExact cutName 100 := by
  intro holds
  have named := (exact_iff cutName 100).mp holds
    ⟨101,[115,97,195],'S',100,101,100,[],by decide,by decide,by decide⟩ (by simp [ProcTable.processes,cutName,Listed.process?]) rfl
  exact absurd named (by decide +kernel)

end Depsis.Console.Pty

import Depsis.Foundation.Machine
import Mathlib.Data.List.Sort
import Mathlib.Data.Prod.Lex
import Mathlib.Data.String.Basic

/-! The directory of the appliance's own state: the daily tick that asks for a database dump, the dump with the
pruning after it, and whatever else is kept there.
-/
namespace Depsis.Backup.Dumps

open Depsis.Foundation List

def DUMP_INTERVAL_MS : Int := 86400000

def DUMP_SUFFIX : String := ".dump"

def BACKUP_PREFIX : String := "zerotier-"

def BACKUP_SUFFIX : String := ".tar"

def isDump (name : String) : Bool := DUMP_SUFFIX.toList.isSuffixOf name.toList

def isBackup (name : String) : Bool :=
  BACKUP_PREFIX.toList.isPrefixOf name.toList && BACKUP_SUFFIX.toList.isSuffixOf name.toList

/-- `modified` counts nanoseconds since 1970. -/
structure Entry where
  name : String
  isFile : Bool
  size : Nat
  modified : Int

structure Directory where
  entries : List Entry
  distinct : (entries.map Entry.name).Nodup

structure Dump where
  name : String
  sizeBytes : Nat
  createdUnix : Int

def newest (first second : Dump) : Prop :=
  toLex (second.createdUnix,second.name) ≤ toLex (first.createdUnix,first.name)

instance : DecidableRel newest := fun _ _ => inferInstanceAs (Decidable (_ ≤ _))

instance : Std.Total newest := ⟨fun _ _ => le_total _ _⟩

instance : IsTrans Dump newest := ⟨fun _ _ _ before after => after.trans before⟩

def Entry.dump (entry : Entry) : Option Dump :=
  if !isDump entry.name && !isBackup entry.name then none
  else if !entry.isFile then none
  else some ⟨entry.name,entry.size,if 0 ≤ entry.modified then entry.modified/1000000000 else 0⟩

def readDumps (directory : Directory) : List Dump := (directory.entries.filterMap Entry.dump).insertionSort newest

def prunable (dumps : List Dump) (keep : Nat) : List String :=
  (((dumps.filter (fun dump => isDump dump.name)).drop keep).map Dump.name).reverse

/-- `remove_file`; what it cannot remove stays. -/
def removeFile (stuck : String → Bool) (directory : Directory) (name : String) : Directory :=
  ⟨directory.entries.filter (fun entry => entry.name ≠ name ∨ stuck name = true),
    directory.distinct.sublist (filter_sublist.map _)⟩

private theorem distinct_write (directory : Directory) (entry : Entry) :
    ((entry::directory.entries.filter (fun other => other.name ≠ entry.name)).map Entry.name).Nodup := by
  refine nodup_cons.mpr ⟨fun again => ?_,directory.distinct.sublist (filter_sublist.map _)⟩
  obtain ⟨other,left,same⟩ := mem_map.mp again
  exact of_decide_eq_true (mem_filter.mp left).2 same

def Directory.write (directory : Directory) (name : String) (size : Nat) (modified : Int) : Directory :=
  ⟨_,distinct_write directory ⟨name,true,size,modified⟩⟩

/-- Nothing was started, `pg_dump` failed, or the file is there. -/
inductive Written where
  | refused
  | failed (size : Nat) (modified : Int)
  | done (size : Nat) (modified : Int)

/-- One tick with the answers it gets; `name` is made of the clock, and `keep` is `DUMP_KEEP`. -/
structure Tick where
  now : Int
  name : String
  keep : Nat
  kept : 1 ≤ keep
  answered : Bool
  dump : Written
  stuck : String → Bool

def wrote (tick : Tick) (directory : Directory) (size : Nat) (modified : Int) : Directory :=
  directory.write (tick.name ++ DUMP_SUFFIX) size modified

def dumpDatabase (tick : Tick) (directory : Directory) : Directory :=
  match tick.dump with
  | .refused => directory
  | .failed size modified => removeFile tick.stuck (wrote tick directory size modified) (tick.name ++ DUMP_SUFFIX)
  | .done size modified =>
    (prunable (readDumps (wrote tick directory size modified)) (max tick.keep 1)).foldl (removeFile tick.stuck)
      (wrote tick directory size modified)

/-- `none` when the tick asks for no dump. -/
def dumpDatabaseIfDue (tick : Tick) (directory : Directory) : Option Directory :=
  if tick.answered = false then none
  else
    match (readDumps directory).head? with
    | some newest =>
      if tick.now-newest.createdUnix*1000 < DUMP_INTERVAL_MS then none else some (dumpDatabase tick directory)
    | none => some (dumpDatabase tick directory)

inductive Event where
  | ticks (tick : Tick)
  /-- The archive of the ZeroTier state, or what an operator leaves there. -/
  | writes (name : String) (size : Nat) (modified : Int)
  | removes (name : String)

def step (directory : Directory) : Event → Option Directory
  | .ticks tick => some ((dumpDatabaseIfDue tick directory).getD directory)
  | .writes name size modified => if isDump name then none else some (directory.write name size modified)
  | .removes name => if isDump name then none else some (removeFile (fun _ => false) directory name)

def Entry.databaseDump (entry : Entry) : Option Dump := entry.dump.filter (fun dump => isDump dump.name)

def sorted (directory : Directory) : List Dump := (readDumps directory).filter (fun dump => isDump dump.name)

variable {directory : Directory} {entry : Entry} {dump : Dump} {name : String} {stuck : String → Bool} {tick : Tick}
variable {size : Nat} {modified : Int}

theorem dump_name (found : entry.dump = some dump) : dump.name = entry.name := by
  unfold Entry.dump at found
  obtain ⟨-,found⟩ := of_unless found
  obtain ⟨-,found⟩ := of_unless found
  cases found
  rfl

theorem databaseDump_some (found : entry.databaseDump = some dump) : entry.name = dump.name ∧ isDump dump.name = true := by
  obtain ⟨found,is⟩ := Option.filter_eq_some_iff.mp found
  exact ⟨(dump_name found).symm,is⟩

theorem mem_sorted : dump ∈ sorted directory ↔ ∃ entry ∈ directory.entries, entry.databaseDump = some dump := by
  simp only [sorted,readDumps,mem_filter,mem_insertionSort,mem_filterMap,Entry.databaseDump,Option.filter_eq_some_iff]
  grind

theorem nodup_sorted (directory : Directory) : (sorted directory).Nodup := by
  refine ((perm_insertionSort newest _).nodup_iff.mpr ((pairwise_map.mp directory.distinct).filterMap _ ?_)).filter _
  intro first second apart dump here other there same
  exact apart ((dump_name here).symm.trans ((congrArg Dump.name same).trans (dump_name there)))

theorem mem_removeFile : entry ∈ (removeFile stuck directory name).entries ↔
    entry ∈ directory.entries ∧ (entry.name = name → stuck name = true) := by
  simp [removeFile,or_iff_not_imp_left]

theorem mem_foldl_removeFile {doomed : List String} : entry ∈ (doomed.foldl (removeFile stuck) directory).entries ↔
    entry ∈ directory.entries ∧ (entry.name ∈ doomed → stuck entry.name = true) := by
  induction doomed generalizing directory with
  | nil => simp
  | cons name doomed ih =>
    rw [foldl_cons,ih,mem_removeFile,and_assoc,mem_cons]
    refine and_congr_right (fun _ => ?_)
    grind

theorem mem_write : entry ∈ (directory.write name size modified).entries ↔
    entry = ⟨name,true,size,modified⟩ ∨ (entry ∈ directory.entries ∧ entry.name ≠ name) := by
  simp [Directory.write]

/-- A tick asks for a dump when it is told of nothing, archives included, that is younger than a day. -/
theorem due_iff : (dumpDatabaseIfDue tick directory).isSome ↔ tick.answered = true ∧
    ∀ dump ∈ readDumps directory, DUMP_INTERVAL_MS ≤ tick.now-dump.createdUnix*1000 := by
  have ordered : (readDumps directory).Pairwise newest := pairwise_insertionSort newest _
  unfold dumpDatabaseIfDue
  cases tick.answered with
  | false => simp
  | true =>
    cases listed : readDumps directory with
    | nil => simp
    | cons latest rest =>
      rw [listed] at ordered
      have later : ∀ dump ∈ rest, dump.createdUnix ≤ latest.createdUnix := fun dump member =>
        Prod.Lex.monotone_fst _ _ ((pairwise_cons.mp ordered).1 dump member)
      simp only [Bool.true_eq_false,if_false,head?_cons,forall_mem_cons,true_and]
      split
      next young => simp only [Option.isSome_none,Bool.false_eq_true,false_iff]; omega
      next aged =>
        simp only [Option.isSome_some,true_iff]
        exact ⟨by omega,fun dump member => by have := later dump member; omega⟩

theorem mem_dumpDatabase (done : tick.dump = .done size modified) : entry ∈ (dumpDatabase tick directory).entries ↔
    entry ∈ (wrote tick directory size modified).entries ∧
      (entry.name ∈ ((sorted (wrote tick directory size modified)).drop tick.keep).map Dump.name →
        tick.stuck entry.name = true) := by
  rw [dumpDatabase,done]
  dsimp only
  rw [mem_foldl_removeFile,Nat.max_eq_left tick.kept,prunable,mem_reverse]
  rfl

def Backed (directory : Directory) : Prop := ∃ entry ∈ directory.entries, ∃ dump, entry.databaseDump = some dump

def Fresh (directory : Directory) : Event → Prop
  | .ticks tick => ∀ entry ∈ directory.entries, entry.name ≠ tick.name ++ DUMP_SUFFIX
  | _ => True

theorem dumpDatabase_backed (backed : Backed directory) (fresh : Fresh directory (.ticks tick)) :
    Backed (dumpDatabase tick directory) := by
  obtain ⟨entry,member,dump,found⟩ := backed
  cases outcome : tick.dump with
  | refused =>
    rw [dumpDatabase,outcome]
    exact ⟨entry,member,dump,found⟩
  | failed size modified =>
    refine ⟨entry,?_,dump,found⟩
    rw [dumpDatabase,outcome,mem_removeFile,wrote,mem_write]
    exact ⟨Or.inr ⟨member,fresh entry member⟩,fun same => absurd same (fresh entry member)⟩
  | done size modified =>
    have there : entry ∈ (wrote tick directory size modified).entries := mem_write.mpr (Or.inr ⟨member,fresh entry member⟩)
    have listed := mem_sorted.mpr ⟨entry,there,found⟩
    obtain ⟨first,rest,same⟩ := exists_cons_of_ne_nil (ne_nil_of_mem listed)
    obtain ⟨owner,there,own⟩ := mem_sorted.mp (same ▸ mem_cons_self : first ∈ sorted (wrote tick directory size modified))
    refine ⟨owner,(mem_dumpDatabase outcome).mpr ⟨there,fun doomed => ?_⟩,first,own⟩
    -- the newest of all is not among those after the first `keep`
    obtain ⟨other,dropped,named⟩ := mem_map.mp doomed
    obtain ⟨source,again,seen⟩ := mem_sorted.mp (mem_of_mem_drop dropped)
    cases inj_on_of_nodup_map (Directory.distinct _) there again (named.symm.trans (databaseDump_some seen).1.symm)
    cases own.symm.trans seen
    have distinct := nodup_sorted (wrote tick directory size modified)
    obtain ⟨keep,kept⟩ := Nat.exists_eq_succ_of_ne_zero (Nat.ne_of_gt tick.kept)
    rw [same] at distinct dropped
    rw [kept,drop_succ_cons] at dropped
    exact absurd (mem_of_mem_drop dropped) (nodup_cons.mp distinct).1

theorem step_backed {next : Directory} {event : Event} (backed : Backed directory) (fresh : Fresh directory event)
    (taken : step directory event = some next) : Backed next := by
  have apart {name : String} {entry : Entry} {dump : Dump} (found : entry.databaseDump = some dump)
      (other : isDump name ≠ true) : entry.name ≠ name := by
    rintro rfl
    exact other ((databaseDump_some found).1 ▸ (databaseDump_some found).2)
  cases event with
  | ticks tick =>
    cases taken
    have after := dumpDatabase_backed backed fresh
    unfold dumpDatabaseIfDue
    repeat' split
    all_goals first | exact backed | exact after
  | writes name size modified =>
    obtain ⟨other,taken⟩ := of_unless taken
    cases taken
    obtain ⟨entry,member,dump,found⟩ := backed
    exact ⟨entry,mem_write.mpr (Or.inr ⟨member,apart found other⟩),dump,found⟩
  | removes name =>
    obtain ⟨other,taken⟩ := of_unless taken
    cases taken
    obtain ⟨entry,member,dump,found⟩ := backed
    exact ⟨entry,mem_removeFile.mpr ⟨member,fun same => absurd same (apart found other)⟩,dump,found⟩

/-- Once there is a database dump there always is one, as long as no tick writes over a file that is there. -/
theorem dumps_never_run_out {events : List Event} {first final : Directory} (backed : Backed first)
    (fresh : Machine.Meets step Fresh first events) (ran : Machine.run step first events = some final) : Backed final :=
  Machine.run_invariant step (fun _ _ _ held apart taken => step_backed held apart taken) backed fresh ran

private def held : Directory := ⟨[⟨"a.dump",true,1,0⟩],nodup_singleton _⟩

private def later : Tick := ⟨86400000,"b",1,le_rfl,true,.failed 0 0,fun _ => false⟩

theorem dumps_never_run_out_failed : Backed ((dumpDatabaseIfDue later held).getD held) :=
  @dumps_never_run_out [.ticks later] held _ ⟨_,mem_cons_self,⟨"a.dump",1,0⟩,by rfl⟩
    ⟨fun entry member => by cases mem_singleton.mp member; decide +kernel,trivial⟩ rfl

end Depsis.Backup.Dumps

import Depsis.Foundation.Machine
import Depsis.Foundation.Table

/-! Transactions under READ COMMITTED. A statement sees the committed rows and its
own transaction's writes, and waits for the row locks it takes; a transaction's
writes reach the others when it commits.
-/
namespace Depsis.Foundation.ReadCommitted

open List AList

inductive Mode where
  | keyShare | noKeyUpdate | forUpdate

def Mode.conflicts : Mode → Mode → Bool
  | .keyShare,.keyShare => false
  | .keyShare,.noKeyUpdate => false
  | .noKeyUpdate,.keyShare => false
  | _,_ => true

theorem Mode.conflicts_of_writes {first second : Mode} (left : first ≠ .keyShare)
    (right : second ≠ .keyShare) : first.conflicts second = true := by
  cases first <;> cases second <;> simp_all [Mode.conflicts]

section

variable (Key Row Program Request Session : Type)

/-- What a statement does: the locks it takes besides those of its writes, the rows it
writes (`none` deletes) and how the transaction goes on; or the transaction's end. -/
inductive Outcome where
  | proceed (locks : List (Key × Mode)) (writes : List (Key × Option Row)) (next : Program)
  | commit (rest : Option Program)
  | fail

/-- Programs that run statement by statement. A program that commits may go on
with another transaction. -/
structure System where
  opening : Request → Program
  statement : Program → Table Key Row → Outcome Key Row Program

structure Transaction where
  program : Program
  locks : List (Key × Mode)
  writes : Table Key (Option Row)

structure Database where
  committed : Table Key Row
  running : Table Session (Transaction Key Row Program)

inductive Action where
  | start (session : Session) (request : Request)
  | execute (session : Session)
  | abort (session : Session)

end

variable {Key Row Program Request Session : Type} [DecidableEq Key] [DecidableEq Session]

def overlay (committed : Table Key Row) (writes : Table Key (Option Row)) : Table Key Row :=
  writes.rows.foldl (fun seen write =>
    match write.2 with
    | some row => seen.insert write.1 row
    | none => seen.erase write.1) committed

def lockOf (write : Key × Option Row) : Key × Mode :=
  (write.1,if write.2.isSome then .noKeyUpdate else .forUpdate)

omit [DecidableEq Key] in
theorem lockOf_writes (write : Key × Option Row) : (lockOf write).2 ≠ .keyShare := by
  unfold lockOf
  split <;> nofun

namespace Transaction

def fresh (program : Program) : Transaction Key Row Program := ⟨program,[],∅⟩

def advance (transaction : Transaction Key Row Program) (locks : List (Key × Mode))
    (writes : List (Key × Option Row)) (next : Program) : Transaction Key Row Program where
  program := next
  locks := transaction.locks ++ (locks ++ writes.map lockOf)
  writes := transaction.writes.fill writes

end Transaction

namespace Database

def view (database : Database Key Row Program Session) (transaction : Transaction Key Row Program) :
    Table Key Row :=
  overlay database.committed transaction.writes

def free (database : Database Key Row Program Session) (session : Session) (lock : Key × Mode) : Bool :=
  database.running.all (fun other transaction =>
    other = session || transaction.locks.all (fun held => held.1 ≠ lock.1 || !held.2.conflicts lock.2))

def rollBack (database : Database Key Row Program Session) (session : Session) :
    Database Key Row Program Session :=
  {database with running := database.running.erase session}

def settle (database : Database Key Row Program Session) (session : Session)
    (transaction : Transaction Key Row Program) (rest : Option Program) :
    Database Key Row Program Session where
  committed := database.view transaction
  running :=
    match rest with
    | none => database.running.erase session
    | some program => database.running.insert session (.fresh program)

def progress (database : Database Key Row Program Session) (session : Session)
    (transaction : Transaction Key Row Program) : Database Key Row Program Session :=
  {database with running := database.running.insert session transaction}

end Database

namespace System

variable (system : System Key Row Program Request)

/-- A session opens, runs its next statement, or is cut off. A statement that would
wait for a lock is not enabled until the lock is free. -/
def step (database : Database Key Row Program Session) :
    Action Request Session → Option (Database Key Row Program Session)
  | .start session request =>
    if (database.running.lookup session).isSome then none
    else some (database.progress session (.fresh (system.opening request)))
  | .abort session =>
    if (database.running.lookup session).isSome then some (database.rollBack session) else none
  | .execute session =>
    match database.running.lookup session with
    | none => none
    | some transaction =>
      match system.statement transaction.program (database.view transaction) with
      | .fail => some (database.rollBack session)
      | .commit rest => some (database.settle session transaction rest)
      | .proceed locks writes next =>
        if (locks ++ writes.map lockOf).all (database.free session) then
          some (database.progress session (transaction.advance locks writes next))
        else none

end System

theorem lookup_overlay (committed : Table Key Row) (writes : Table Key (Option Row)) (key : Key) :
    (overlay committed writes).lookup key =
      match writes.lookup key with
      | some value => value
      | none => committed.lookup key := by
  have listed (rows : List (Key × Option Row)) (distinct : (rows.map Prod.fst).Nodup)
      (seen : Table Key Row) :
      (key ∉ rows.map Prod.fst → (rows.foldl (fun seen write =>
        match write.2 with
        | some row => seen.insert write.1 row
        | none => seen.erase write.1) seen).lookup key = seen.lookup key) ∧
      ∀ value, (key,value) ∈ rows → (rows.foldl (fun seen write =>
        match write.2 with
        | some row => seen.insert write.1 row
        | none => seen.erase write.1) seen).lookup key = value := by
    induction rows generalizing seen with
    | nil => exact ⟨fun _ => rfl,fun value member => absurd member not_mem_nil⟩
    | cons write rest ih =>
      obtain ⟨apart,tail⟩ := nodup_cons.mp distinct
      rw [foldl_cons]
      constructor
      · intro absent
        obtain ⟨here,later⟩ := not_or.mp (mem_cons.not.mp absent)
        rw [(ih tail _).1 later]
        split
        · exact lookup_insert_ne here
        · exact lookup_erase_ne here
      · intro value member
        rcases mem_cons.mp member with rfl | later
        · rw [(ih tail _).1 apart]
          cases value with
          | some row => exact lookup_insert _
          | none => exact lookup_erase _ _
        · exact (ih tail _).2 value later
  have here := listed writes.rows writes.rows_nodup committed
  cases written : writes.lookup key with
  | some value => exact here.2 value (mem_rows.mpr written)
  | none =>
    refine here.1 (fun member => ?_)
    obtain ⟨write,member,same⟩ := mem_map.mp member
    have found := mem_rows.mp (show (write.1,write.2) ∈ writes.rows from member)
    rw [same,written] at found
    cases found

@[simp] theorem lookup_overlay_empty (committed : Table Key Row) (key : Key) :
    (overlay committed ∅).lookup key = committed.lookup key := by
  rw [lookup_overlay,lookup_empty]

variable {committed : Table Key Row} {session : Session} {transaction : Transaction Key Row Program}
  {writes : List (Key × Option Row)}

theorem lookup_overlay_some {writes : Table Key (Option Row)} {key : Key}
    {value : Option Row} (written : writes.lookup key = some value) :
    (overlay committed writes).lookup key = value := by
  rw [lookup_overlay,written]

theorem lookup_overlay_none {writes : Table Key (Option Row)} {key : Key}
    (unwritten : writes.lookup key = none) :
    (overlay committed writes).lookup key = committed.lookup key := by
  rw [lookup_overlay,unwritten]

theorem lookup_advance
    {locks : List (Key × Mode)} {next : Program} {key : Key}
    (unwritten : key ∉ writes.map Prod.fst) :
    (overlay committed (transaction.advance locks writes next).writes).lookup key =
      (overlay committed transaction.writes).lookup key := by
  rw [lookup_overlay,lookup_overlay,Transaction.advance,lookup_fill_of_notMem unwritten]

theorem lookup_advance_agree
    {locks : List (Key × Mode)} {next : Program} {key : Key}
    {value : Option Row} (written : key ∈ writes.map Prod.fst)
    (agree : ∀ other, (key,other) ∈ writes → other = value) :
    (overlay committed (transaction.advance locks writes next).writes).lookup key = value := by
  refine lookup_overlay_some ?_
  exact lookup_fill_agree written agree

section Steps

variable {system : System Key Row Program Request} {database next : Database Key Row Program Session}
variable {action : Action Request Session}

theorem step_cases (taken : system.step database action = some next) :
    (∃ session request, action = .start session request ∧ database.running.lookup session = none ∧
      next = database.progress session (.fresh (system.opening request))) ∨
    (∃ session, next = database.rollBack session) ∨
    (∃ session transaction rest, action = .execute session ∧
      database.running.lookup session = some transaction ∧
      system.statement transaction.program (database.view transaction) = .commit rest ∧
      next = database.settle session transaction rest) ∨
    (∃ session transaction locks writes program, action = .execute session ∧
      database.running.lookup session = some transaction ∧
      system.statement transaction.program (database.view transaction) = .proceed locks writes program ∧
      (∀ lock ∈ locks ++ writes.map lockOf, database.free session lock = true) ∧
      next = database.progress session (transaction.advance locks writes program)) := by
  cases action with simp only [System.step] at taken
  | start session request =>
    obtain ⟨closed,taken⟩ := of_unless taken
    cases taken
    exact .inl ⟨session,request,rfl,by simpa using closed,rfl⟩
  | abort session =>
    obtain ⟨-,taken⟩ := of_when taken
    cases taken
    exact .inr (.inl ⟨session,rfl⟩)
  | execute session =>
    split at taken
    next => cases taken
    next transaction found =>
      split at taken
      next => cases taken; exact .inr (.inl ⟨session,rfl⟩)
      next rest settled =>
        cases taken
        exact .inr (.inr (.inl ⟨session,transaction,rest,rfl,found,settled,rfl⟩))
      next locks writes program proceeded =>
        obtain ⟨available,taken⟩ := of_when taken
        cases taken
        exact .inr (.inr (.inr ⟨session,transaction,locks,writes,program,rfl,found,proceeded,
          all_eq_true.mp available,rfl⟩))

structure Orderly (database : Database Key Row Program Session) : Prop where
  locked : ∀ session transaction key value, database.running.lookup session = some transaction →
    transaction.writes.lookup key = some value → ∃ mode, (key,mode) ∈ transaction.locks ∧ mode ≠ .keyShare
  apart : ∀ first second left right, first ≠ second → database.running.lookup first = some left →
    database.running.lookup second = some right → ∀ key one other, (key,one) ∈ left.locks →
      (key,other) ∈ right.locks → one.conflicts other = false

theorem Orderly.disjoint (orderly : Orderly database) {first second : Session}
    {left right : Transaction Key Row Program} (different : first ≠ second)
    (here : database.running.lookup first = some left) (there : database.running.lookup second = some right)
    {key : Key} {value : Option Row} (written : left.writes.lookup key = some value) :
    right.writes.lookup key = none := by
  cases also : right.writes.lookup key with
  | none => rfl
  | some other =>
    obtain ⟨one,locked,writes⟩ := orderly.locked first left key value here written
    obtain ⟨two,held,overwrites⟩ := orderly.locked second right key other there also
    have clash := Mode.conflicts_of_writes writes overwrites
    rw [orderly.apart first second left right different here there key one two locked held] at clash
    cases clash

theorem Orderly.rollBack (orderly : Orderly database) (session : Session) :
    Orderly (database.rollBack session) := by
  have kept {other : Session} {transaction : Transaction Key Row Program}
      (found : (database.rollBack session).running.lookup other = some transaction) :
      database.running.lookup other = some transaction := by
    simp only [Database.rollBack,lookup_erase_eq] at found
    obtain ⟨-,found⟩ := of_unless found
    exact found
  constructor
  · intro other transaction key value found
    exact orderly.locked other transaction key value (kept found)
  · intro first second left right different here there
    exact orderly.apart first second left right different (kept here) (kept there)

theorem Orderly.replace (orderly : Orderly database)
   
    (locked : ∀ key value, transaction.writes.lookup key = some value →
      ∃ mode, (key,mode) ∈ transaction.locks ∧ mode ≠ .keyShare)
    (apart : ∀ other right, other ≠ session → database.running.lookup other = some right →
      ∀ key one two, (key,one) ∈ transaction.locks → (key,two) ∈ right.locks →
        one.conflicts two = false ∧ two.conflicts one = false) :
    Orderly ⟨committed,database.running.insert session transaction⟩ := by
  constructor
  · intro other found key value here written
    rcases lookup_insert_cases here with ⟨-,rfl⟩ | ⟨-,here⟩
    · exact locked key value written
    · exact orderly.locked other found key value here written
  · intro first second left right different here there key one two held also
    rw [lookup_insert_eq] at here there
    split at here
    next same =>
      cases here
      rw [if_neg (fun also => different (same.trans also.symm))] at there
      exact (apart second right (fun also => different (same.trans also.symm)) there key one two held also).1
    next other =>
      split at there
      next => cases there; exact (apart first left other here key two one also held).2
      next => exact orderly.apart first second left right different here there key one two held also

theorem free_apart {other : Session} {lock : Key × Mode} {right : Transaction Key Row Program}
    (available : database.free session lock = true) (different : other ≠ session)
    (there : database.running.lookup other = some right) {mode : Mode}
    (held : (lock.1,mode) ∈ right.locks) : mode.conflicts lock.2 = false := by
  have all := all_iff.mp available other right there
  simp only [Bool.or_eq_true,decide_eq_true_eq,different,false_or] at all
  have clear := all_eq_true.mp all (lock.1,mode) held
  simpa using clear

theorem Mode.conflicts_comm (first second : Mode) : first.conflicts second = second.conflicts first := by
  cases first <;> cases second <;> rfl

theorem Orderly.advanced (orderly : Orderly database)
    {taking : List (Key × Mode)}
    {program : Program}
    (found : database.running.lookup session = some transaction)
    (available : ∀ lock ∈ taking ++ writes.map lockOf, database.free session lock = true) :
    Orderly (database.progress session (transaction.advance taking writes program)) := by
  refine orderly.replace (fun key value written => ?_) (fun other right different there key one two held also => ?_)
  · rcases lookup_fill_some written with later | before
    · exact ⟨_,mem_append_right _ (mem_append_right _ (mem_map_of_mem later)),lockOf_writes _⟩
    · obtain ⟨mode,taken,writing⟩ := orderly.locked session transaction key value found before
      exact ⟨mode,mem_append_left _ taken,writing⟩
  · rw [Mode.conflicts_comm two one,and_self]
    rcases mem_append.mp held with before | later
    · exact orderly.apart session other transaction right (Ne.symm different) found there key one two before also
    · rw [Mode.conflicts_comm]
      exact free_apart (available _ later) different there also

theorem orderly_step (orderly : Orderly database)
    (taken : system.step database action = some next) : Orderly next := by
  rcases step_cases taken with ⟨session,request,-,-,rfl⟩ | ⟨session,rfl⟩ |
    ⟨session,transaction,rest,-,found,-,rfl⟩ |
    ⟨session,transaction,taking,writes,program,-,found,proceeded,available,rfl⟩
  · refine orderly.replace (fun key value written => ?_) (fun _ _ _ _ key one two held => ?_)
    · simp [Transaction.fresh] at written
    · cases held
  · exact orderly.rollBack session
  · cases rest with
    | none => exact ⟨(orderly.rollBack session).locked,(orderly.rollBack session).apart⟩
    | some program =>
      refine orderly.replace (fun key value written => ?_) (fun _ _ _ _ key one two held => ?_)
      · simp [Transaction.fresh] at written
      · cases held
  · exact orderly.advanced found available

def quiet (committed : Table Key Row) : Database Key Row Program Session := ⟨committed,∅⟩

theorem quiet_orderly (committed : Table Key Row) :
    Orderly (quiet committed : Database Key Row Program Session) := by
  constructor
  · intro session transaction key value found
    simp [quiet] at found
  · intro first second left right _ found
    simp [quiet] at found

end Steps

/-! A good row survives when some row stays good in the eyes of every open
transaction, but for those pledged to leave a good row of their own. -/

section Survivor

variable (good : Key → Row → Prop) (pledged : Transaction Key Row Program → Prop)

def Shows (table : Table Key Row) (key : Key) : Prop :=
  ∃ row, table.lookup key = some row ∧ good key row

structure Kept (database : Database Key Row Program Session) (key : Key) : Prop where
  stored : Shows good database.committed key
  seen : ∀ session transaction, database.running.lookup session = some transaction →
    Shows good (database.view transaction) key ∨ pledged transaction

def Survives (database : Database Key Row Program Session) : Prop :=
  ∃ key, Kept good pledged database key

def Pledges (system : System Key Row Program Request) : Prop :=
  ∀ committed transaction rest, pledged transaction →
    system.statement transaction.program (overlay committed transaction.writes) = .commit rest →
    ∃ key row, transaction.writes.lookup key = some (some row) ∧ good key row

variable {good pledged} {system : System Key Row Program Request}
variable {database next : Database Key Row Program Session} {action : Action Request Session} {key : Key}

theorem shows_congr {first second : Table Key Row} (same : first.lookup key = second.lookup key) :
    Shows good first key ↔ Shows good second key := by
  rw [Shows,Shows,same]

theorem Kept.rollBack (kept : Kept good pledged database key) (session : Session) :
    Kept good pledged (database.rollBack session) key := by
  refine ⟨kept.stored,fun other transaction found => ?_⟩
  simp only [Database.rollBack,lookup_erase_eq] at found
  obtain ⟨-,found⟩ := of_unless found
  exact kept.seen other transaction found

theorem kept_progress
    (stored : Shows good database.committed key)
    (others : ∀ other right, other ≠ session → database.running.lookup other = some right →
      Shows good (database.view right) key ∨ pledged right)
    (here : Shows good (database.view transaction) key ∨ pledged transaction) :
    Kept good pledged (database.progress session transaction) key := by
  refine ⟨stored,fun other right found => ?_⟩
  simp only [Database.progress,lookup_insert_eq] at found
  split at found
  next => cases found; exact here
  next different => exact others other right different found

private theorem kept_settle
    {rest : Option Program} (stored : Shows good (database.view transaction) key)
    (others : ∀ other right, other ≠ session → database.running.lookup other = some right →
      Shows good (overlay (database.view transaction) right.writes) key ∨ pledged right) :
    Kept good pledged (database.settle session transaction rest) key := by
  refine ⟨stored,fun other right found => ?_⟩
  change Shows good (overlay (database.view transaction) right.writes) key ∨ _
  cases rest with
  | none =>
    simp only [Database.settle,lookup_erase_eq] at found
    obtain ⟨different,found⟩ := of_unless found
    exact others other right different found
  | some program =>
    simp only [Database.settle,lookup_insert_eq] at found
    split at found
    next =>
      cases found
      exact .inl ((shows_congr (lookup_overlay_empty _ _)).mpr stored)
    next different => exact others other right different found

theorem kept_written (orderly : Orderly database)
    {rest : Option Program} {row : Row}
    (found : database.running.lookup session = some transaction)
    (written : transaction.writes.lookup key = some (some row)) (fine : good key row) :
    Kept good pledged (database.settle session transaction rest) key := by
  have shown : Shows good (database.view transaction) key := ⟨row,lookup_overlay_some written,fine⟩
  refine kept_settle shown (fun other right different there => .inl ?_)
  have unwritten := orderly.disjoint (Ne.symm different) found there written
  exact (shows_congr (lookup_overlay_none unwritten)).mpr shown

theorem shows_after_commit {first second : Transaction Key Row Program}
    (before : Shows good (overlay committed second.writes) key)
    (after : second.writes.lookup key = none → Shows good (overlay committed first.writes) key) :
    Shows good (overlay (overlay committed first.writes) second.writes) key := by
  cases written : second.writes.lookup key with
  | some value =>
    refine (shows_congr ?_).mp before
    rw [lookup_overlay_some written,lookup_overlay_some written]
  | none => exact (shows_congr (lookup_overlay_none written)).mpr (after written)

theorem kept_step (orderly : Orderly database) (pledges : Pledges good pledged system)
    (kept : Kept good pledged database key) (taken : system.step database action = some next) :
    Survives good pledged next ∨
      ∃ session transaction locks writes program, action = .execute session ∧
        database.running.lookup session = some transaction ∧
        system.statement transaction.program (database.view transaction) = .proceed locks writes program ∧
        next = database.progress session (transaction.advance locks writes program) ∧
        ¬Shows good (database.view (transaction.advance locks writes program)) key ∧
        ¬pledged (transaction.advance locks writes program) := by
  rcases step_cases taken with ⟨session,request,-,-,rfl⟩ | ⟨session,rfl⟩ |
    ⟨session,transaction,rest,-,found,settled,rfl⟩ |
    ⟨session,transaction,locks,writes,program,same,found,proceeded,-,rfl⟩
  · refine .inl ⟨key,kept_progress kept.stored (fun other right _ found => kept.seen other right found) (.inl ?_)⟩
    exact (shows_congr (lookup_overlay_empty _ _)).mpr kept.stored
  · exact .inl ⟨key,kept.rollBack session⟩
  · rcases kept.seen session transaction found with here | pledge
    · refine .inl ⟨key,kept_settle here (fun other right _ there => ?_)⟩
      exact (kept.seen other right there).imp_left (fun seen => shows_after_commit seen (fun _ => here))
    · obtain ⟨fresh,row,written,good⟩ := pledges _ transaction rest pledge settled
      exact .inl ⟨fresh,kept_written orderly found written good⟩
  · by_cases pledge : pledged (transaction.advance locks writes program)
    · exact .inl ⟨key,kept_progress kept.stored (fun other right _ there => kept.seen other right there) (.inr pledge)⟩
    · by_cases shown : Shows good (database.view (transaction.advance locks writes program)) key
      · exact .inl ⟨key,kept_progress kept.stored (fun other right _ there => kept.seen other right there) (.inl shown)⟩
      · exact .inr ⟨session,transaction,locks,writes,program,same,found,proceeded,rfl,shown,pledge⟩

theorem quiet_kept (stored : Shows good committed key) :
    Kept good pledged (quiet committed : Database Key Row Program Session) key := by
  refine ⟨stored,fun session transaction found => ?_⟩
  simp [quiet] at found

/-- One step keeps a good row, if the statements that spoil one are answered for.
What else the answer needs of the database is an invariant of its own. -/
theorem survives_step {steady : Database Key Row Program Session → Prop}
    {admits : Database Key Row Program Session → Action Request Session → Prop}
    (pledges : Pledges good pledged system)
    (rescued : ∀ database session transaction locks writes program key, steady database →
      Kept good pledged database key → admits database (.execute session) →
      database.running.lookup session = some transaction →
      system.statement transaction.program (database.view transaction) = .proceed locks writes program →
      ¬Shows good (database.view (transaction.advance locks writes program)) key →
      ¬pledged (transaction.advance locks writes program) →
      Survives good pledged (database.progress session (transaction.advance locks writes program)))
    (orderly : Orderly database) (held : steady database) (survives : Survives good pledged database)
    (admitted : admits database action) (taken : system.step database action = some next) :
    Survives good pledged next := by
  obtain ⟨key,kept⟩ := survives
  rcases kept_step orderly pledges kept taken with safe |
    ⟨session,transaction,locks,writes,program,rfl,found,proceeded,rfl,after,unpledged⟩
  · exact safe
  · exact rescued database session transaction locks writes program key held kept admitted found proceeded
      after unpledged

end Survivor

end Depsis.Foundation.ReadCommitted

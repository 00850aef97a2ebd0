import Depsis.Jobs.Safety

/-! Reporting a failed attempt. The wait before the next one is a power of two that
has to fit a four-byte integer before it is capped.
-/
namespace Depsis.Jobs

open Depsis.Foundation AList

/-- What the report of a failure leaves behind, by the answer to it: a row that runs
again within five minutes, or a row of the history. -/
inductive Recorded (now : Instant) (id : JobId) (error : Option String) (next : Queue) : Option Outcome → Prop where
  | requeued {row : Row} (stored : next.queue.lookup id = some row) (queued : row.val.status = .queued)
    (told : row.val.lastError = error) (waits : now + makeInterval 1 ≤ row.val.runAfter)
    (capped : row.val.runAfter ≤ now + makeInterval 300) : Recorded now id error next (some .requeued)
  | settled {status : Status} {past : Past} (gone : next.queue.lookup id = none)
    (kept : next.history.lookup id = some past) (marked : past.row.val.status = status)
    (final : status = .dead ∨ status = .failed) (stamped : past.finishedAt = now) :
    Recorded now id error next (some (.finished status))

def Records (queue : Queue) (now : Instant) (id : JobId) (workerId : String) (error : Option String) : Prop :=
  ∃ answer next, finishJob queue now id workerId (some "failed") error = .ok (answer,next) ∧
    Recorded now id error next answer

variable {queue : Queue} {now : Instant} {id : JobId} {workerId : String} {error : Option String} {row : Row}

theorem backoff_ok {attempt delay : Int} (power : backoff attempt = .ok delay) : 1 ≤ delay := by
  unfold backoff at power
  split at power
  · cases power
    exact Int.ofNat_le.mpr (Nat.one_le_two_pow)
  · cases power

theorem backoff_raises {attempt : Int} (large : 31 ≤ attempt) : backoff attempt = .error .numericValueOutOfRange :=
  if_neg (by omega)

theorem retry_within {delay : Int} (least : 1 ≤ delay) :
    makeInterval 1 ≤ makeInterval (min 300 delay) ∧ makeInterval (min 300 delay) ≤ makeInterval 300 := by
  unfold makeInterval
  omega

private theorem checked_sane {job : Job} (sane : job.Sane) : checked job = .ok ⟨job,sane⟩ := dif_pos sane

theorem conclude_records (found : queue.queue.lookup id = some row) (unarchived : queue.history.lookup id = none)
    {status : Status} (final : status = .dead ∨ status = .failed) :
    ∃ answer next, conclude queue now id status error = .ok (answer,next) ∧ Recorded now id error next answer := by
  have sane : (Job.finished now status error row.val).Sane := by
    refine ⟨row.property.attemptsSane,row.property.progressRange,row.property.kindNotBlank,?_⟩
    apply Or.inl
    rcases final with rfl | rfl <;> exact nofun
  unfold conclude archive
  rw [found]
  simp only [unarchived,Option.isSome_none,Bool.false_eq_true,if_false]
  rw [checked_sane sane]
  refine ⟨_,_,rfl,?_⟩
  exact .settled (lookup_erase _ _) (lookup_insert _) rfl final rfl

theorem retried_updates (delay : Int) :
    (∃ next, queue.update id (row.val.retried now error delay) = .ok next ∧ ∃ stored : Row,
      next.queue.lookup id = some stored ∧ stored.val = row.val.retried now error delay) ∨
    ∃ index, queue.update id (row.val.retried now error delay) = .error (.uniqueViolation index) := by
  have sane : (row.val.retried now error delay).Sane :=
    ⟨row.property.attemptsSane,row.property.progressRange,row.property.kindNotBlank,.inl nofun⟩
  unfold Queue.update
  rw [checked_sane sane]
  simp only []
  cases queue.conflict id (row.val.retried now error delay) with
  | some index => exact .inr ⟨index,rfl⟩
  | none => exact .inl ⟨_,rfl,_,lookup_insert _,rfl⟩

/-- A failure reported under a live lease is recorded, except where a further attempt is due
and the power of two to wait for leaves the four-byte integers. -/
theorem failure_recorded (found : queue.queue.lookup id = some row) (held : row.val.heldBy workerId now = true)
    (unarchived : queue.history.lookup id = none) :
    Records queue now id workerId error ↔ row.val.attempt ≤ 30 ∨ row.val.maxAttempts ≤ row.val.attempt := by
  have known : outcomeKnown (some "failed") = true := rfl
  have failed : ¬(some "failed" : Option String) = some "succeeded" := by decide
  unfold Records finishJob
  simp only [known,found,held,failed,Bool.not_true,Bool.false_eq_true,if_false]
  by_cases spent : row.val.maxAttempts ≤ row.val.attempt
  · simp only [spent,if_true,or_true,iff_true]
    exact conclude_records found unarchived (.inl rfl)
  · simp only [spent,if_false,or_false]
    constructor
    · rintro ⟨answer,next,finished,-⟩
      by_contra large
      rw [backoff_raises (by omega)] at finished
      cases finished
    · intro small
      have power : backoff row.val.attempt = .ok (Nat.pow 2 row.val.attempt.toNat) := if_pos (by omega)
      rw [power]
      simp only []
      rcases @retried_updates queue now id error row (Nat.pow 2 row.val.attempt.toNat) with
        ⟨next,updated,stored,lookup,value⟩ | ⟨index,violated⟩
      · rw [updated]
        have least := backoff_ok power
        refine ⟨_,_,rfl,.requeued lookup ?_ ?_ ?_ ?_⟩
        · rw [value]; rfl
        · rw [value]; rfl
        · rw [value]
          exact Int.add_le_add_left (retry_within least).1 now
        · rw [value]
          exact Int.add_le_add_left (retry_within least).2 now
      · rw [violated]
        exact conclude_records found unarchived (.inr rfl)

def patient : Row := ⟨⟨some "o","share.reconcile",none,.running,0,0,31,40,some 60,some "w",0,none,0⟩,by decide⟩

def patience (attempt : Int) (sane : { patient.val with attempt := attempt }.Sane) : Queue :=
  ⟨(∅ : Table JobId Row).insert 7 ⟨_,sane⟩,∅,8⟩

theorem failure_recorded_fifth : Records (patience 5 (by decide)) 50 7 "w" (some "no") :=
  (@failure_recorded (patience 5 (by decide)) 50 7 "w" (some "no") ⟨{ patient.val with attempt := 5 },by decide⟩
    (lookup_insert _) (by decide) rfl).mpr (.inl (by decide))

theorem failure_unrecorded : ¬∀ (queue : Queue) (now : Instant) (id : JobId) (workerId : String) (error : Option String)
    (row : Row), queue.queue.lookup id = some row → row.val.heldBy workerId now = true →
    queue.history.lookup id = none → Records queue now id workerId error := by
  intro records
  obtain ⟨answer,next,finished,-⟩ := records (patience 31 (by decide)) 50 7 "w" none patient
    (lookup_insert _) (by decide) rfl
  have raised : finishJob (patience 31 (by decide)) 50 7 "w" (some "failed") none = .error .numericValueOutOfRange := by
    unfold finishJob
    have found : (patience 31 (by decide)).queue.lookup 7 = some patient := lookup_insert _
    rw [found]
    rfl
  rw [raised] at finished
  cases finished

end Depsis.Jobs

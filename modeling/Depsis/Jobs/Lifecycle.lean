import Mathlib.Data.List.Basic
import Mathlib.Order.Basic

/-! What the queue is for, seen from one job: it is enqueued once, claimed at
most as often as it may be attempted, held by one worker at a time, and settled
for good. The tables and the clock do not appear here.
-/
namespace Depsis.Jobs

open List

inductive Event where
  | enqueued (maxAttempts : Int)
  | claimed (workerId : String)

def Event.isClaim : Event → Bool
  | .enqueued _ => false
  | .claimed _ => true

inductive Life where
  | absent
  | waiting (attempt maxAttempts : Int)
  | held (workerId : String) (attempt maxAttempts : Int)
  | settled (attempt maxAttempts : Int)

namespace Life

def holder : Life → Option String
  | .held workerId _ _ => some workerId
  | _ => none

def Pending (life : Life) (attempt maxAttempts : Int) : Prop :=
  life = .waiting attempt maxAttempts ∨ ∃ workerId, life = .held workerId attempt maxAttempts

end Life

/-- The events of a job with so many attempts spent: one enqueueing, then a claim for each. -/
def Spent (past : List Event) (attempt maxAttempts : Int) : Prop :=
  ∃ claims : List Event, past = .enqueued maxAttempts::claims ∧
    (∀ event ∈ claims, event.isClaim = true) ∧ (claims.length : Int) = attempt ∧ attempt ≤ maxAttempts

def Life.Balanced (past : List Event) : Life → Prop
  | .absent => past = []
  | .waiting attempt maxAttempts | .held _ attempt maxAttempts | .settled attempt maxAttempts =>
    Spent past attempt maxAttempts

inductive Lives : Life → List Event → Life → Prop where
  | rest (life : Life) : Lives life [] life
  | enqueue {maxAttempts : Int} (positive : 0 < maxAttempts) :
      Lives .absent [.enqueued maxAttempts] (.waiting 0 maxAttempts)
  | claim {before : Life} {attempt maxAttempts : Int} (workerId : String)
      (pending : before.Pending attempt maxAttempts) (allowed : attempt < maxAttempts) :
      Lives before [.claimed workerId] (.held workerId (attempt + 1) maxAttempts)
  | retry (workerId : String) (attempt maxAttempts : Int) :
      Lives (.held workerId attempt maxAttempts) [] (.waiting attempt maxAttempts)
  | settle {before : Life} {attempt maxAttempts : Int} (pending : before.Pending attempt maxAttempts) :
      Lives before [] (.settled attempt maxAttempts)
  | follow {before middle after : Life} {first second : List Event}
      (left : Lives before first middle) (right : Lives middle second after) :
      Lives before (first++second) after

namespace Lives

variable {before after : Life} {events past : List Event}

theorem pending_balanced {life : Life} {attempt maxAttempts : Int}
    (pending : life.Pending attempt maxAttempts) (held : life.Balanced past) :
    Spent past attempt maxAttempts := by
  obtain rfl | ⟨workerId,rfl⟩ := pending <;> exact held

theorem spent_claim {attempt maxAttempts : Int} (workerId : String)
    (spent : Spent past attempt maxAttempts) (allowed : attempt < maxAttempts) :
    Spent (past++[.claimed workerId]) (attempt + 1) maxAttempts := by
  obtain ⟨claims,rfl,only,count,bound⟩ := spent
  refine ⟨claims++[.claimed workerId],by simp,?_,by simp [count],by omega⟩
  intro event member
  rcases mem_append.mp member with earlier | last
  · exact only event earlier
  · cases mem_singleton.mp last
    rfl

section

variable (lives : Lives before events after)
include lives

theorem balanced :
    ∀ {past : List Event}, before.Balanced past → after.Balanced (past++events) := by
  induction lives with
  | rest life => intro past held; rwa [append_nil]
  | enqueue positive =>
    rintro past rfl
    exact ⟨[],rfl,by simp,rfl,by omega⟩
  | claim workerId pending allowed =>
    intro past held
    exact spent_claim workerId (pending_balanced pending held) allowed
  | retry workerId attempt maxAttempts => intro past held; rwa [append_nil]
  | settle pending =>
    intro past held
    rw [append_nil]
    exact pending_balanced pending held
  | follow left right leftKept rightKept =>
    intro past held
    rw [← append_assoc]
    exact rightKept (leftKept held)

theorem settled_final :
    ∀ {attempt maxAttempts : Int}, before = .settled attempt maxAttempts → after = before ∧ events = [] := by
  induction lives with
  | rest life => exact fun _ => ⟨rfl,rfl⟩
  | enqueue positive => nofun
  | claim workerId pending allowed =>
    rintro _ _ rfl
    obtain absurd | ⟨_,absurd⟩ := pending <;> cases absurd
  | retry workerId attempt maxAttempts => nofun
  | settle pending =>
    rintro _ _ rfl
    obtain absurd | ⟨_,absurd⟩ := pending <;> cases absurd
  | follow left right leftFinal rightFinal =>
    intro attempt maxAttempts same
    obtain ⟨stays,quiet⟩ := leftFinal same
    obtain ⟨ends,silent⟩ := rightFinal (stays.trans same)
    exact ⟨ends.trans stays,by rw [quiet,silent,append_nil]⟩

theorem holder_claimed {workerId : String} :
    after.holder = some workerId → before.holder = some workerId ∨ .claimed workerId ∈ events := by
  induction lives with
  | rest life => exact Or.inl
  | enqueue positive => nofun
  | claim taker pending allowed =>
    intro held
    cases Option.some.inj held
    exact .inr (by simp)
  | retry workerId attempt maxAttempts => nofun
  | settle pending => nofun
  | follow left right leftClaimed rightClaimed =>
    intro held
    rcases rightClaimed held with middle | claimed
    · exact (leftClaimed middle).imp_right (mem_append_left _)
    · exact .inr (mem_append_right _ claimed)

end

end Lives

namespace Life.Balanced

variable {life : Life} {past : List Event}

theorem spent (held : life.Balanced past) :
    life = .absent ∧ past = [] ∨ life ≠ .absent ∧ ∃ attempt maxAttempts, Spent past attempt maxAttempts := by
  cases life with
  | absent => exact .inl ⟨rfl,held⟩
  | waiting attempt limit | held workerId attempt limit | settled attempt limit => exact .inr ⟨nofun,attempt,limit,held⟩

theorem claims_le {maxAttempts : Int} (held : life.Balanced past) (enqueued : .enqueued maxAttempts ∈ past) :
    (past.countP Event.isClaim : Int) ≤ maxAttempts := by
  rcases held.spent with ⟨-,rfl⟩ | ⟨-,attempt,limit,claims,rfl,only,count,bound⟩
  · cases enqueued
  have all := countP_eq_length.mpr only
  rcases mem_cons.mp enqueued with same | later
  · cases same
    rw [countP_cons_of_neg (by simp [Event.isClaim]),all]
    omega
  · exact absurd (only _ later) (by simp [Event.isClaim])

theorem present_iff (held : life.Balanced past) :
    (∃ maxAttempts, .enqueued maxAttempts ∈ past) ↔ life ≠ .absent := by
  rcases held.spent with ⟨absent,rfl⟩ | ⟨present,attempt,limit,claims,rfl,-⟩
  · simp [absent]
  · exact ⟨fun _ => present,fun _ => ⟨limit,mem_cons_self⟩⟩

end Life.Balanced

end Depsis.Jobs

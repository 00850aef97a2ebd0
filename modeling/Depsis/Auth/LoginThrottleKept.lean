import Depsis.Auth.LoginThrottle

/-! What whole runs of the login throttle keep: no more wrong passwords in a window than the limit
while calls leave room for one another, and waits that end when they say.
-/
namespace Depsis.Auth.Throttle
open Depsis.Foundation List AList Bool Machine

def waitOf (times : List Int) (now : Int) : Int :=
  match (Ranks.descending (times.filter (inWindow now)))[REFUSE_AFTER - 1]? with
  | none => atLeastOne 0
  | some attemptedAt => atLeastOne (ceilSeconds (attemptedAt + WINDOW - now))

theorem retryAfterSeconds_eq (rows : List Row) (pair : Pair) (now : Int) :
    retryAfterSeconds rows pair now = waitOf (failures rows pair) now := rfl

theorem refused_iff (times : List Int) {now later : Int} (order : now ≤ later) :
    REFUSE_AFTER ≤ times.countP (inWindow later) ↔
      ∃ attemptedAt, (Ranks.descending (times.filter (inWindow now)))[REFUSE_AFTER - 1]? = some attemptedAt ∧
        later - WINDOW < attemptedAt := by
  have counted : ∀ above : Int → Bool, (∀ time, above time = true ↔ later - WINDOW < time) →
      (times.filter (inWindow now)).countP above = times.countP (inWindow later) := by
    intro above holds
    rw [countP_filter]
    apply countP_congr
    intro time _
    simp only [inWindow,and_eq_true,decide_eq_true_eq,holds]
    omega
  rw [← Ranks.descending_rank,counted _ (fun time => decide_eq_true_iff)]
  exact Iff.rfl

theorem ceilSeconds_range (duration : Int) :
    duration ≤ ceilSeconds duration * SECOND ∧ ceilSeconds duration * SECOND < duration + SECOND := by
  unfold ceilSeconds SECOND
  omega

theorem waitOf_true (times : List Int) {now later : Int} (order : now ≤ later) :
    (later < now + waitOf times now * SECOND - SECOND → REFUSE_AFTER ≤ times.countP (inWindow later)) ∧
    (now + waitOf times now * SECOND ≤ later → ¬REFUSE_AFTER ≤ times.countP (inWindow later)) := by
  rw [refused_iff times order,waitOf]
  split
  · next none' =>
    have seconds : atLeastOne 0 * SECOND = SECOND := rfl
    rw [seconds,none']
    constructor
    · intro soon
      omega
    · intro _ refused
      obtain ⟨attemptedAt,found,-⟩ := refused
      cases found
  · next attemptedAt found =>
    have inside : now - WINDOW < attemptedAt := by
      have member := (Ranks.descending_perm _).mem_iff.mp (mem_of_getElem? found)
      exact of_decide_eq_true (mem_filter.mp member).2
    obtain ⟨reached,close⟩ := ceilSeconds_range (attemptedAt + WINDOW - now)
    have positive : ¬ceilSeconds (attemptedAt + WINDOW - now) < 1 := by
      unfold ceilSeconds SECOND
      omega
    rw [atLeastOne,if_neg positive,found]
    constructor
    · intro soon
      exact ⟨attemptedAt,rfl,by omega⟩
    · intro over' refused
      obtain ⟨other,same,still⟩ := refused
      cases same
      omega

def Call.comparing : Call → Bool
  | .compare _ => true
  | _ => false

def Call.failing : Call → Bool
  | .record _ succeeded => !succeeded
  | _ => false

def wrongs (state : State) (pair : Pair) (bound : Int) : Nat :=
  state.compared.countP (fun wrong => wrong.1 = pair && decide (bound < wrong.2))

def recorded (state : State) (pair : Pair) (bound : Int) : Nat :=
  (failures state.rows pair).countP (fun time => decide (bound < time))

theorem wrongs_mono (state : State) (pair : Pair) {low high : Int} (order : low ≤ high) :
    wrongs state pair high ≤ wrongs state pair low := by
  apply countP_mono_left
  intro wrong _ counted
  simp only [and_eq_true,decide_eq_true_eq] at counted ⊢
  exact ⟨counted.1,by omega⟩

theorem recentFailures_eq (state : State) (pair : Pair) :
    recentFailures state.rows pair state.now = recorded state pair (state.now - WINDOW) := rfl

structure Kept (pair : Pair) (state : State) : Prop where
  past : ∀ wrong ∈ state.compared, wrong.2 ≤ state.now
  settled : ∀ bound, state.now - WINDOW ≤ bound →
    wrongs state pair bound ≤ recorded state pair bound + state.calls.tallyOf Call.pair Call.failing pair
  room : wrongs state pair (state.now - WINDOW) + state.calls.tallyOf Call.pair Call.comparing pair ≤ REFUSE_AFTER
  guesses : ∀ start : Int,
    state.compared.countP (fun wrong => wrong.1 = pair && decide (start < wrong.2 ∧ wrong.2 ≤ start + WINDOW)) ≤ REFUSE_AFTER

def Told (state : State) : Prop := ∀ refusal ∈ state.refused, refusal.seconds = waitOf refusal.failures refusal.answeredAt

variable {pair : Pair} {state next : State} {call : Nat} {asked later : Call}

theorem first_kept (pair : Pair) (now : Int) : Kept pair (State.first now) := by
  constructor
  · nofun
  · intro bound _
    exact Nat.zero_le _
  · exact Nat.zero_le _
  · intro start
    exact Nat.zero_le _

section

variable (kept : Kept pair state)
include kept

theorem Kept.passes (time : Nat) : Kept pair { state with now := state.now + time } := by
  constructor
  · intro wrong member
    have before := kept.past wrong member
    change wrong.2 ≤ state.now + time
    omega
  · intro bound after
    change state.now + time - WINDOW ≤ bound at after
    exact kept.settled bound (by omega)
  · have fewer := wrongs_mono state pair (show state.now - WINDOW ≤ state.now + time - WINDOW by omega)
    have room := kept.room
    change wrongs state pair (state.now + time - WINDOW) + state.calls.tallyOf Call.pair Call.comparing pair ≤ REFUSE_AFTER
    omega
  · exact kept.guesses

theorem Kept.idles (later : Call) (quiet : later.comparing = false)
    (still : state.calls.tallyOf Call.pair Call.failing pair ≤ (state.calls.insert call later).tallyOf Call.pair Call.failing pair) :
    Kept pair (state.continues call later) := by
  constructor
  · exact kept.past
  · intro bound after
    exact Nat.le_trans (kept.settled bound after) (Nat.add_le_add_left still _)
  · have less : (state.calls.insert call later).tallyOf Call.pair Call.comparing pair ≤
        state.calls.tallyOf Call.pair Call.comparing pair := tallyOf_insert_le _ _ quiet _
    exact Nat.le_trans (Nat.add_le_add_left less _) kept.room
  · exact kept.guesses

theorem Kept.ends
    (still : state.calls.tallyOf Call.pair Call.failing pair ≤ (state.calls.erase call).tallyOf Call.pair Call.failing pair) :
    Kept pair (state.ends call) := by
  constructor
  · exact kept.past
  · intro bound after
    exact Nat.le_trans (kept.settled bound after) (Nat.add_le_add_left still _)
  · exact Nat.le_trans (Nat.add_le_add_left (tallyOf_erase_le _ _ _) _) kept.room
  · exact kept.guesses

theorem Kept.told {refused : List Refusal} : Kept pair { state with refused := refused } :=
  ⟨kept.past,kept.settled,kept.room,kept.guesses⟩

end

theorem failing_erase (other : ∀ found, state.calls.lookup call = some found → found ≠ .record pair false) :
    state.calls.tallyOf Call.pair Call.failing pair ≤ (state.calls.erase call).tallyOf Call.pair Call.failing pair := by
  cases found : state.calls.lookup call with
  | none =>
    rw [erase_missing found]
  | some asked =>
    have moved : (state.calls.erase call).tallyOf Call.pair Call.failing pair +
        (if asked.pair = pair then asked.failing.toNat else 0) = state.calls.tallyOf Call.pair Call.failing pair :=
      tallyOf_erase found pair
    split at moved
    · next same =>
      have quiet : asked.failing = false := by
        cases asked with
        | record subject succeeded =>
          cases succeeded with
          | true => rfl
          | false =>
            change subject = pair at same
            exact absurd (same ▸ rfl) (other _ found)
        | _ => rfl
      rw [quiet] at moved
      exact Nat.le_of_eq moved.symm
    · exact Nat.le_of_eq moved.symm

theorem tally_continues {subject : Pair} (found : state.calls.lookup call = some asked) (asks : asked.pair = subject)
    (later : Call) (goes : later.pair = subject) (test : Call → Bool) (pair : Pair) :
    (state.calls.insert call later).tallyOf Call.pair test pair + (if subject = pair then (test asked).toNat else 0) =
      state.calls.tallyOf Call.pair test pair + (if subject = pair then (test later).toNat else 0) := by
  rw [← asks] at goes ⊢
  exact tallyOf_update found goes pair

theorem failing_continues (found : state.calls.lookup call = some asked) (later : Call) (same : later.pair = asked.pair)
    (quiet : asked.failing = false) (pair : Pair) :
    state.calls.tallyOf Call.pair Call.failing pair ≤ (state.calls.insert call later).tallyOf Call.pair Call.failing pair := by
  have moved := tally_continues found rfl later same Call.failing pair
  rw [quiet] at moved
  split at moved
  · rw [toNat_false] at moved
    omega
  · omega

section

variable (kept : Kept pair state)
include kept

theorem Kept.admits {subject : Pair} (found : state.calls.lookup call = some (.count subject))
    (spared : subject = pair →
      recentFailures state.rows pair state.now + state.calls.tallyOf Call.pair Call.unsettled pair < REFUSE_AFTER) :
    Kept pair (state.continues call (.compare subject)) := by
  have moved := tally_continues found (show _ = subject from rfl) (.compare subject) rfl Call.comparing pair
  constructor
  · exact kept.past
  · intro bound after
    exact Nat.le_trans (kept.settled bound after)
      (Nat.add_le_add_left (failing_continues found (.compare subject) rfl rfl pair) _)
  · change wrongs state pair (state.now - WINDOW) + (state.calls.insert call (.compare subject)).tallyOf Call.pair Call.comparing pair ≤ _
    by_cases same : subject = pair
    · have owed := kept.settled (state.now - WINDOW) (Int.le_refl _)
      have apart : state.calls.tallyOf Call.pair Call.comparing pair + state.calls.tallyOf Call.pair Call.failing pair ≤
          state.calls.tallyOf Call.pair Call.unsettled pair := by
        apply tallyOf_add_le
        intro row
        cases row with
        | record subject succeeded => cases succeeded <;> exact Nat.le_refl _
        | _ => exact Nat.le_refl _
      have room := spared same
      rw [recentFailures_eq] at room
      split at moved
      · change _ + 0 = _ + 1 at moved
        omega
      · next other => exact absurd same other
    · have room := kept.room
      split at moved
      · next here => exact absurd here same
      · omega
  · exact kept.guesses

theorem Kept.compares {subject : Pair} (found : state.calls.lookup call = some (.compare subject))
    (right : Bool) : Kept pair (state.go call right (.compare subject)) := by
  have comparing := tally_continues found (show _ = subject from rfl) (.record subject right) rfl Call.comparing pair
  have failing := tally_continues found (show _ = subject from rfl) (.record subject right) rfl Call.failing pair
  cases right with
  | true =>
    have quiet : state.calls.tallyOf Call.pair Call.failing pair ≤
        (state.calls.insert call (.record subject true)).tallyOf Call.pair Call.failing pair :=
      failing_continues found (.record subject true) rfl rfl pair
    exact kept.idles (.record subject true) rfl quiet
  | false =>
    have more : ∀ bound, (state.compared ++ [(subject,state.now)]).countP (fun wrong => wrong.1 = pair && decide (bound < wrong.2)) =
        wrongs state pair bound + (if subject = pair ∧ bound < state.now then 1 else 0) := by
      intro bound
      rw [countP_append,countP_singleton]
      simp only [and_eq_true,decide_eq_true_eq]
      rfl
    constructor
    · intro wrong member
      rcases mem_append.mp member with before | now
      · exact kept.past wrong before
      · rw [mem_singleton.mp now]
        exact Int.le_refl _
    · intro bound after
      have before := kept.settled bound after
      change (state.compared ++ [(subject,state.now)]).countP (fun wrong => wrong.1 = pair && decide (bound < wrong.2)) ≤
        recorded state pair bound + (state.calls.insert call (.record subject false)).tallyOf Call.pair Call.failing pair
      rw [more]
      by_cases same : subject = pair
      · rw [if_pos same,if_pos same] at failing
        change _ + 0 = _ + 1 at failing
        split <;> omega
      · rw [if_neg same,if_neg same] at failing
        rw [if_neg (fun both => same both.1)]
        omega
    · have room := kept.room
      change (state.compared ++ [(subject,state.now)]).countP (fun wrong => wrong.1 = pair && decide (state.now - WINDOW < wrong.2)) +
        (state.calls.insert call (.record subject false)).tallyOf Call.pair Call.comparing pair ≤ REFUSE_AFTER
      rw [more]
      by_cases same : subject = pair
      · rw [if_pos same,if_pos same] at comparing
        change _ + 1 = _ + 0 at comparing
        split <;> omega
      · rw [if_neg same,if_neg same] at comparing
        rw [if_neg (fun both => same both.1)]
        omega
    · intro start
      change (state.compared ++ [(subject,state.now)]).countP
        (fun wrong => wrong.1 = pair && decide (start < wrong.2 ∧ wrong.2 ≤ start + WINDOW)) ≤ REFUSE_AFTER
      rw [countP_append,countP_singleton]
      have before := kept.guesses start
      by_cases counted : subject = pair ∧ start < state.now ∧ state.now ≤ start + WINDOW
      · obtain ⟨same,after,within⟩ := counted
        have fewer : state.compared.countP (fun wrong => wrong.1 = pair && decide (start < wrong.2 ∧ wrong.2 ≤ start + WINDOW)) ≤
            wrongs state pair (state.now - WINDOW) := by
          apply countP_mono_left
          intro wrong _ held
          simp only [and_eq_true,decide_eq_true_eq] at held ⊢
          exact ⟨held.1,by omega⟩
        have room := kept.room
        rw [if_pos same,if_pos same] at comparing
        change _ + 1 = _ + 0 at comparing
        split <;> omega
      · rw [if_neg]
        · exact before
        · simpa using counted

theorem Kept.records {subject : Pair} {succeeded : Bool}
    (found : state.calls.lookup call = some (.record subject succeeded)) (right : Bool) :
    Kept pair (state.go call right (.record subject succeeded)) := by
  have moved : (state.calls.erase call).tallyOf Call.pair Call.failing pair +
      (if subject = pair then (!succeeded).toNat else 0) = state.calls.tallyOf Call.pair Call.failing pair :=
    tallyOf_erase found pair
  have more : ∀ bound, (failures (state.rows ++ [⟨subject,succeeded,state.now⟩]) pair).countP (fun time => decide (bound < time)) =
      recorded state pair bound + (if subject = pair ∧ succeeded = false ∧ bound < state.now then 1 else 0) := by
    intro bound
    rw [failures,filter_append,map_append,countP_append]
    change recorded state pair bound + _ = _
    congr 1
    by_cases same : subject = pair
    · cases succeeded with
      | true => simp [same]
      | false =>
        by_cases late : bound < state.now
        all_goals simp [same,late]
    · simp [same]
  constructor
  · exact kept.past
  · intro bound after
    change wrongs state pair bound ≤ (failures (state.rows ++ [⟨subject,succeeded,state.now⟩]) pair).countP (fun time => decide (bound < time)) +
      (state.calls.erase call).tallyOf Call.pair Call.failing pair
    rw [more]
    have before := kept.settled bound after
    by_cases late : bound < state.now
    · by_cases same : subject = pair
      · rw [if_pos same] at moved
        cases succeeded with
        | true =>
          change _ + 0 = _ at moved
          split <;> omega
        | false =>
          change _ + 1 = _ at moved
          rw [if_pos ⟨same,rfl,late⟩]
          omega
      · rw [if_neg same] at moved
        rw [if_neg (fun both => same both.1)]
        omega
    · have none' : wrongs state pair bound = 0 := by
        rw [wrongs,countP_eq_zero]
        intro wrong member counted
        simp only [and_eq_true,decide_eq_true_eq] at counted
        have past := kept.past wrong member
        omega
      rw [none']
      exact Nat.zero_le _
  · have less : (state.calls.erase call).tallyOf Call.pair Call.comparing pair ≤
        state.calls.tallyOf Call.pair Call.comparing pair := tallyOf_erase_le _ _ _
    exact Nat.le_trans (Nat.add_le_add_left less _) kept.room
  · exact kept.guesses

theorem Kept.steps {event : Event} (spared : event.spares pair state = true)
    (taken : step state event = some next) : Kept pair next := by
  cases event with
  | passes time =>
    cases taken
    exact kept.passes time
  | asks call subject =>
    rw [step] at taken
    obtain ⟨fresh,taken⟩ := of_unless taken
    cases taken
    apply kept.idles (.count subject) rfl
    rw [AList.tallyOf,AList.tallyOf,tally_insert (Option.not_isSome_iff_eq_none.mp fresh)]
    exact Nat.le_add_right _ _
  | goes call right =>
    obtain ⟨asked,found,rfl⟩ := Option.map_eq_some_iff.mp taken
    cases asked with
    | count subject =>
      rw [Event.spares,found] at spared
      rw [State.go]
      split
      · exact kept.idles (.refuse subject) rfl (failing_continues found (.refuse subject) rfl rfl pair)
      · next open' =>
        apply kept.admits found
        intro same
        subst same
        simpa [open'] using spared
    | refuse subject =>
      apply kept.told.ends
      apply failing_erase
      intro other there same
      change state.calls.lookup call = some other at there
      rw [found,same] at there
      cases there
    | compare subject => exact kept.compares found right
    | record subject succeeded => exact kept.records found right
  | fails call =>
    cases taken
    apply kept.ends
    apply failing_erase
    intro other there same
    rw [Event.spares,there,same] at spared
    simp at spared

end

theorem told_steps (told : Told state) {event : Event} (taken : step state event = some next) : Told next := by
  cases event with
  | passes time =>
    cases taken
    exact told
  | asks call subject =>
    rw [step] at taken
    obtain ⟨-,taken⟩ := of_unless taken
    cases taken
    exact told
  | goes call right =>
    obtain ⟨asked,-,rfl⟩ := Option.map_eq_some_iff.mp taken
    cases asked with
    | count subject =>
      rw [State.go]
      split
      · exact told
      · exact told
    | refuse subject =>
      intro refusal member
      rcases mem_append.mp member with before | now
      · exact told refusal before
      · rw [mem_singleton.mp now]
        exact retryAfterSeconds_eq state.rows subject state.now
    | compare subject => exact told
    | record subject succeeded => exact told
  | fails call =>
    cases taken
    exact told

theorem run_told {events : List Event} {now : Int} {final : State} (ran : Machine.run step (State.first now) events = some final) :
    Told final := by
  have empty : Told (State.first now) := by
    nofun
  exact run_invariant_always step (fun _ _ _ told taken => told_steps told taken) empty ran

theorem run_kept {pair : Pair} {events : List Event} {now : Int} {final : State}
    (spared : Machine.Meets step (fun state event => event.spares pair state = true) (State.first now) events)
    (ran : Machine.run step (State.first now) events = some final) : Kept pair final :=
  run_invariant step (fun _ _ _ kept spared taken => kept.steps spared taken) (first_kept pair now) spared ran

theorem failures_address (rows : List Row) (pair : Pair) :
    failures (rows.filter (fun row => row.pair.address = pair.address)) pair = failures rows pair := by
  rw [failures,failures,filter_filter]
  congr 1
  apply filter_congr
  intro row _
  by_cases same : row.pair = pair
  · simp [same]
  · simp [same]

private theorem bounds_of {pair : Pair} {state : State} (kept : Kept pair state) (told : Told state) : Bounds pair state := by
  constructor
  · exact kept.guesses
  · intro refusal member _ unchanged later after
    rw [told refusal member,Refuses,recentFailures,unchanged]
    exact waitOf_true refusal.failures after
  · intro later
    rw [Refuses,Refuses,recentFailures,recentFailures,failures_address]

/-- In every run that leaves room for the calls under way and records the failures of a pair, its guesses are
bounded; waits are told truly and other addresses do not count.
-/
theorem throttle_bounds (pair : Pair) (now : Int) (events : List Event) (final : State)
    (spared : Machine.Meets step (fun state event => event.spares pair state = true) (State.first now) events)
    (ran : Machine.run step (State.first now) events = some final) : Bounds pair final :=
  bounds_of (run_kept spared ran) (run_told ran)

theorem throttle_bounds_twice :
    ∃ final, Bounds ⟨"ayse","10.0.0.5"⟩ final ∧ final.rows.length = 2 := by
  refine ⟨_,throttle_bounds ⟨"ayse","10.0.0.5"⟩ 0
    [.asks 0 ⟨"ayse","10.0.0.5"⟩,.goes 0 false,.goes 0 false,.goes 0 false,
      .asks 1 ⟨"ayse","10.0.0.5"⟩,.goes 1 true,.goes 1 true,.goes 1 true] _ (by decide +kernel) rfl,by decide +kernel⟩

def crowd : List Event :=
  (List.range 11).flatMap (fun call => [.asks call ⟨"ayse","10.0.0.5"⟩,.goes call false]) ++
    (List.range 11).map (fun call => .goes call false)

theorem crowd_guesses : ∃ final, Machine.run step (State.first 0) crowd = some final ∧ ¬Bounds ⟨"ayse","10.0.0.5"⟩ final := by
  have some' : (Machine.run step (State.first 0) crowd).isSome = true := by decide +kernel
  obtain ⟨final,ran⟩ := Option.isSome_iff_exists.mp some'
  have many : (Machine.run step (State.first 0) crowd).all (fun final => decide (REFUSE_AFTER < final.compared.countP
      (fun wrong => wrong.1 = ⟨"ayse","10.0.0.5"⟩ && decide (-1 < wrong.2 ∧ wrong.2 ≤ -1 + WINDOW)))) = true := by decide +kernel
  rw [ran] at many
  refine ⟨final,ran,?_⟩
  intro bounds
  exact absurd (bounds.guesses (-1)) (Nat.not_le.mpr (of_decide_eq_true many))

end Depsis.Auth.Throttle

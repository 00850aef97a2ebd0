import Depsis.Files.Drain

/-! What the index queue keeps: a row is not taken off before its directory was read after
every recorded change, and no directory waits for ever behind fewer failing ones than a
batch holds.
-/
namespace Depsis.Files.Drain

open Depsis.Foundation Indexer List AList Function Machine

variable {service : Service} {state next : State} {event : Event} {worker : String} {directory : Directory}

theorem jsDate_le (now : Int) : jsDate now ≤ now := by
  unfold jsDate
  omega

theorem lookup_dequeue (queue : IndexQueue) (taken other : Directory) (notNewerThan : Int) :
    (dequeue queue taken notNewerThan).lookup other =
      if other = taken ∧ (queue.lookup taken).any (fun row => row.seenAt ≤ notNewerThan) = true then none
      else queue.lookup other := by
  unfold dequeue
  split
  next old => rw [lookup_erase_eq]; simp [old]
  next young => simp [young]

theorem lookup_enqueuePath {queue after : IndexQueue} {now : Int} {actor client : Option String}
    (written : enqueuePath queue now directory actor client = some after) (other : Directory) :
    after.lookup other = if other = directory then some ⟨now,actor,client⟩ else queue.lookup other := by
  unfold enqueuePath at written
  obtain ⟨-,written⟩ := of_unless written
  cases written
  exact lookup_insert_eq _ _ _ _

theorem turn_self (state : State) (worker : String) (phase : Option Phase) :
    (state.turn worker phase).passes worker = phase := update_self _ _ _

theorem turn_other {other : String} (state : State) (phase : Option Phase) (apart : other ≠ worker) :
    (state.turn worker phase).passes other = state.passes other := update_of_ne apart _ _

structure Coherent (state : State) : Prop where
  past : ∀ directory changedAt, (directory,changedAt) ∈ state.changes → changedAt ≤ state.clock
  begun : ∀ report ∈ state.reporting, report.changedAt < report.beganAt ∧ report.beganAt ≤ state.clock
  seen : ∀ directory row, state.queue.lookup directory = some row → row.seenAt ≤ state.clock
  started : ∀ worker phase work, state.passes worker = some phase → phase.work = some work → work.startedAt ≤ state.clock
  read : ∀ worker work folderId askedAt entries,
    state.passes worker = some (.looked work folderId askedAt (.entries entries false)) →
    work.startedAt < askedAt ∧ (work.entry.directory,askedAt) ∈ state.readings
  returned : ∀ worker work askedAt, state.passes worker = some (.returned work (.read askedAt false)) →
    work.startedAt < askedAt ∧ (work.entry.directory,askedAt) ∈ state.readings

theorem Coherent.moved (coherent : Coherent state) {phase : Option Phase} (later : state.clock ≤ next.clock)
    (passes : next.passes = Function.update state.passes worker phase) (changes : next.changes = state.changes)
    (reporting : next.reporting = state.reporting)
    (queue : ∀ directory row, next.queue.lookup directory = some row → state.queue.lookup directory = some row)
    (readings : ∀ reading ∈ state.readings, reading ∈ next.readings)
    (begun : ∀ reached work, phase = some reached → reached.work = some work → work.startedAt ≤ next.clock)
    (looked : ∀ work folderId askedAt entries, phase = some (.looked work folderId askedAt (.entries entries false)) →
      work.startedAt < askedAt ∧ (work.entry.directory,askedAt) ∈ next.readings)
    (returned : ∀ work askedAt, phase = some (.returned work (.read askedAt false)) →
      work.startedAt < askedAt ∧ (work.entry.directory,askedAt) ∈ next.readings) : Coherent next where
  past directory changedAt member := by
    rw [changes] at member
    exact (coherent.past directory changedAt member).trans later
  begun report member := by
    rw [reporting] at member
    obtain ⟨before,bound⟩ := coherent.begun report member
    exact ⟨before,bound.trans later⟩
  seen directory row found := (coherent.seen directory row (queue directory row found)).trans later
  started other reached work held doing := by
    rw [passes] at held
    by_cases same : other = worker
    · rw [same,update_self] at held
      exact begun reached work held doing
    · rw [update_of_ne same] at held
      exact (coherent.started other reached work held doing).trans later
  read other work folderId askedAt entries held := by
    rw [passes] at held
    by_cases same : other = worker
    · rw [same,update_self] at held
      exact looked work folderId askedAt entries held
    · rw [update_of_ne same] at held
      obtain ⟨after,listed⟩ := coherent.read other work folderId askedAt entries held
      exact ⟨after,readings _ listed⟩
  returned other work askedAt held := by
    rw [passes] at held
    by_cases same : other = worker
    · rw [same,update_self] at held
      exact returned work askedAt held
    · rw [update_of_ne same] at held
      obtain ⟨after,listed⟩ := coherent.returned other work askedAt held
      exact ⟨after,readings _ listed⟩

theorem step_coherent (coherent : Coherent state) (taken : step service state event = some next) : Coherent next := by
  cases event with simp only [step] at taken
  | changes now directory =>
    obtain ⟨later,taken⟩ := of_when taken
    cases taken
    refine ⟨fun other changedAt member => ?_,fun report member => ?_,fun other row found => ?_,
      fun worker phase work held doing => ?_,coherent.read,coherent.returned⟩
    · rcases mem_cons.mp member with same | earlier
      · cases same
        exact le_rfl
      · exact (coherent.past other changedAt earlier).trans later.le
    · exact ⟨(coherent.begun report member).1,(coherent.begun report member).2.trans later.le⟩
    · exact (coherent.seen other row found).trans later.le
    · exact (coherent.started worker phase work held doing).trans later.le
  | reports now directory changedAt actor client =>
    obtain ⟨⟨later,made⟩,taken⟩ := of_when taken
    cases taken
    refine ⟨fun other changedAt member => (coherent.past other changedAt member).trans later.le,fun report member => ?_,
      fun other row found => (coherent.seen other row found).trans later.le,
      fun worker phase work held doing => (coherent.started worker phase work held doing).trans later.le,
      coherent.read,coherent.returned⟩
    rcases mem_cons.mp member with rfl | earlier
    · exact ⟨(coherent.past directory changedAt made).trans_lt later,le_rfl⟩
    · exact ⟨(coherent.begun report earlier).1,(coherent.begun report earlier).2.trans later.le⟩
  | records report =>
    obtain ⟨member,stored⟩ := of_when taken
    obtain ⟨after,written,rfl⟩ := Option.map_eq_some_iff.mp stored
    refine ⟨coherent.past,fun other left => coherent.begun other (mem_of_mem_erase left),fun other row found => ?_,
      coherent.started,coherent.read,coherent.returned⟩
    rw [lookup_enqueuePath written] at found
    split at found
    next =>
      cases found
      exact (coherent.begun report member).2
    next => exact coherent.seen other row found
  | rollsBack report =>
    obtain ⟨member,taken⟩ := of_when taken
    cases taken
    exact ⟨coherent.past,fun other left => coherent.begun other (mem_of_mem_erase left),coherent.seen,
      coherent.started,coherent.read,coherent.returned⟩
  | indexes index drawn =>
    cases taken
    exact ⟨coherent.past,coherent.begun,coherent.seen,coherent.started,coherent.read,coherent.returned⟩
  | picks worker =>
    split at taken <;> cases taken
    exact coherent.moved le_rfl rfl rfl rfl (fun _ _ found => found) (fun _ listed => listed)
      (fun _ _ same doing => by cases same; cases doing) nofun nofun
  | begins now worker =>
    split at taken
    next entry rest held =>
      obtain ⟨later,taken⟩ := of_when taken
      cases taken
      exact coherent.moved later.le rfl rfl rfl (fun _ _ found => found) (fun _ listed => listed)
        (fun _ _ same doing => by cases same; cases doing; exact jsDate_le now) nofun
        nofun
    next => cases taken
  | resolves worker =>
    split at taken <;> cases taken
    next work held =>
      have bound := coherent.started worker _ work held rfl
      refine coherent.moved le_rfl rfl rfl rfl (fun _ _ found => found) (fun _ listed => listed) ?_ ?_ ?_
      · intro reached doing same is
        split at same <;> cases same <;> cases is <;> exact bound
      · intro doing folderId askedAt entries same
        split at same <;> cases same
      · intro doing askedAt same
        split at same <;> cases same
  | looks now worker agent =>
    split at taken
    next work folderId held =>
      have bound := coherent.started worker _ work held rfl
      obtain ⟨later,taken⟩ := of_when taken
      split at taken
      next =>
        cases taken
        exact coherent.moved later.le rfl rfl rfl (fun _ _ found => found) (fun _ listed => listed)
          (fun _ _ same doing => by cases same; cases doing; exact bound.trans later.le) nofun
          nofun
      next entries _ =>
        cases taken
        exact coherent.moved later.le rfl rfl rfl (fun _ _ found => found) (fun _ listed => mem_cons_of_mem _ listed)
          (fun _ _ same doing => by cases same; cases doing; exact bound.trans later.le)
          (fun _ _ _ _ same => by cases same; exact ⟨bound.trans_lt later,mem_cons_self⟩)
          nofun
      next answer whole _ =>
        cases taken
        refine coherent.moved later.le rfl rfl rfl (fun _ _ found => found) (fun _ listed => listed)
          (fun _ _ same doing => by cases same; cases doing; exact bound.trans later.le) ?_ nofun
        intro doing folder askedAt entries same
        cases same
        exact absurd rfl (whole entries)
    next => cases taken
  | settles worker stamp root bin =>
    split at taken
    next work folderId askedAt answer held =>
      have bound := coherent.started worker _ work held rfl
      split at taken
      next =>
        cases taken
        exact coherent.moved le_rfl rfl rfl rfl (fun _ _ found => found) (fun _ listed => listed)
          (fun _ _ same doing => by cases same; cases doing; exact bound) nofun
          nofun
      next =>
        cases taken
        refine coherent.moved le_rfl rfl rfl rfl (fun _ _ found => found) (fun _ listed => listed)
          (fun _ _ same doing => by cases same; cases doing; exact bound) nofun ?_
        intro doing when same
        cases answer with
        | gone => cases same
        | entries entries truncated =>
          cases same
          exact coherent.read worker work folderId askedAt entries held
    next => cases taken
  | throws worker =>
    obtain ⟨work,-,rfl⟩ := Option.map_eq_some_iff.mp taken
    exact coherent.moved le_rfl rfl rfl rfl (fun _ _ found => found) (fun _ listed => listed)
      (fun _ _ same doing => by cases same; cases doing) nofun nofun
  | dequeues worker =>
    split at taken <;> cases taken
    next work sighting held =>
      refine coherent.moved le_rfl rfl rfl rfl (fun other row found => ?_) (fun _ listed => listed)
        (fun _ _ same doing => by cases same; cases doing) nofun nofun
      rw [lookup_dequeue] at found
      obtain ⟨-,found⟩ := of_unless found
      exact found
  | ends worker =>
    split at taken <;> cases taken
    exact coherent.moved le_rfl rfl rfl rfl (fun _ _ found => found) (fun _ listed => listed)
      nofun nofun nofun
  | stops worker =>
    obtain ⟨phase,-,rfl⟩ := Option.map_eq_some_iff.mp taken
    exact coherent.moved le_rfl rfl rfl rfl (fun _ _ found => found) (fun _ listed => listed)
      nofun nofun nofun

inductive Reporting (state next : State) : Prop where
  | same (reporting : next.reporting = state.reporting)
  | more (report : Report) (reporting : next.reporting = report::state.reporting) (late : state.clock < report.beganAt)
  | less (report : Report) (reporting : next.reporting = state.reporting.erase report)

inductive Queueing (state next : State) : Event → Prop where
  | recorded (report : Report) (member : report ∈ state.reporting)
      (written : enqueuePath state.queue report.beganAt report.directory report.actor report.client = some next.queue)
      (reporting : next.reporting = state.reporting.erase report)
      (known : next.recorded = (report.directory,report.changedAt)::state.recorded) : Queueing state next (.records report)
  | dequeued (worker : String) (work : Work) (sighting : Sighting)
      (held : state.passes worker = some (.returned work sighting))
      (queue : next.queue = dequeue state.queue work.entry.directory work.startedAt)
      (reporting : next.reporting = state.reporting) (known : next.recorded = state.recorded) :
      Queueing state next (.dequeues worker)
  | left (event : Event) (queue : next.queue = state.queue) (reporting : Reporting state next)
      (known : next.recorded = state.recorded) : Queueing state next event

theorem step_effect (taken : step service state event = some next) :
    Queueing state next event ∧ state.clock ≤ next.clock := by
  cases event with simp only [step] at taken
  | changes now directory =>
    obtain ⟨later,taken⟩ := of_when taken
    cases taken
    exact ⟨.left _ rfl (.same rfl) rfl,later.le⟩
  | reports now directory changedAt actor client =>
    obtain ⟨⟨later,-⟩,taken⟩ := of_when taken
    cases taken
    exact ⟨.left _ rfl (.more _ rfl later) rfl,later.le⟩
  | records report =>
    obtain ⟨member,stored⟩ := of_when taken
    obtain ⟨after,written,rfl⟩ := Option.map_eq_some_iff.mp stored
    exact ⟨.recorded report member written rfl rfl,le_rfl⟩
  | rollsBack report =>
    obtain ⟨-,taken⟩ := of_when taken
    cases taken
    exact ⟨.left _ rfl (.less report rfl) rfl,le_rfl⟩
  | indexes index drawn =>
    cases taken
    exact ⟨.left _ rfl (.same rfl) rfl,le_rfl⟩
  | picks worker =>
    split at taken <;> cases taken
    exact ⟨.left _ rfl (.same rfl) rfl,le_rfl⟩
  | begins now worker =>
    split at taken
    next =>
      obtain ⟨later,taken⟩ := of_when taken
      cases taken
      exact ⟨.left _ rfl (.same rfl) rfl,later.le⟩
    next => cases taken
  | resolves worker =>
    split at taken <;> cases taken
    exact ⟨.left _ rfl (.same rfl) rfl,le_rfl⟩
  | looks now worker agent =>
    split at taken
    next =>
      obtain ⟨later,taken⟩ := of_when taken
      split at taken <;> cases taken <;> exact ⟨.left _ rfl (.same rfl) rfl,later.le⟩
    next => cases taken
  | settles worker stamp root bin =>
    split at taken
    next => split at taken <;> cases taken <;> exact ⟨.left _ rfl (.same rfl) rfl,le_rfl⟩
    next => cases taken
  | throws worker =>
    obtain ⟨work,-,rfl⟩ := Option.map_eq_some_iff.mp taken
    exact ⟨.left _ rfl (.same rfl) rfl,le_rfl⟩
  | dequeues worker =>
    split at taken <;> cases taken
    next work sighting held => exact ⟨.dequeued worker work sighting held rfl rfl rfl,le_rfl⟩
  | ends worker =>
    split at taken <;> cases taken
    exact ⟨.left _ rfl (.same rfl) rfl,le_rfl⟩
  | stops worker =>
    obtain ⟨phase,-,rfl⟩ := Option.map_eq_some_iff.mp taken
    exact ⟨.left _ rfl (.same rfl) rfl,le_rfl⟩

def Timed (state : State) : Prop :=
  ∀ directory row, state.queue.lookup directory = some row →
    ∀ changedAt, (directory,changedAt) ∈ state.recorded → changedAt < row.seenAt

theorem step_timed (coherent : Coherent state) (timed : Timed state) (careful : Careful service state event)
    (taken : step service state event = some next) : Timed next := by
  intro directory row found changedAt member
  cases (step_effect taken).1 with
  | recorded report reporting written _ known =>
    rw [lookup_enqueuePath written] at found
    rw [known] at member
    split at found
    next same =>
      cases found
      rcases mem_cons.mp member with here | earlier
      · cases here
        exact (coherent.begun report reporting).1
      · exact careful changedAt (same ▸ earlier)
    next apart =>
      rcases mem_cons.mp member with here | earlier
      · exact absurd (congrArg Prod.fst here) apart
      · exact timed directory row found changedAt earlier
  | dequeued worker work sighting held queue _ known =>
    rw [queue,lookup_dequeue] at found
    rw [known] at member
    obtain ⟨-,found⟩ := of_unless found
    exact timed directory row found changedAt member
  | left _ queue _ known =>
    rw [queue] at found
    rw [known] at member
    exact timed directory row found changedAt member

theorem step_keeps (coherent : Coherent state) (timed : Timed state) (careful : Careful service state event)
    (taken : step service state event = some next) : NothingLost service state next := by
  intro directory there gone indexed changedAt member
  obtain ⟨row,found⟩ := Option.isSome_iff_exists.mp there
  cases (step_effect taken).1 with
  | recorded report _ written _ _ =>
    rw [lookup_enqueuePath written] at gone
    split at gone
    next => cases gone
    next => rw [found] at gone; cases gone
  | dequeued worker work sighting held queue _ _ =>
    rw [queue,lookup_dequeue] at gone
    split at gone
    next taken =>
      obtain ⟨rfl,old⟩ := taken
      rw [found] at old
      simp only [Option.any_some,decide_eq_true_eq] at old
      obtain ⟨askedAt,rfl⟩ := careful work sighting held indexed
      obtain ⟨after,listed⟩ := coherent.returned worker work askedAt held
      exact ⟨askedAt,listed,((timed _ row found changedAt member).trans_le old).trans after⟩
    next => rw [found] at gone; cases gone
  | left _ queue _ _ =>
    rw [queue,found] at gone
    cases gone

section

variable {limit : Int} {test : Directory → Bool}

theorem reporting_le (late : limit ≤ state.clock) (reporting : Reporting state next) :
    (next.reporting.filter (fun report => report.beganAt ≤ limit && test report.directory)).length ≤
      (state.reporting.filter (fun report => report.beganAt ≤ limit && test report.directory)).length := by
  cases reporting with
  | same reporting => rw [reporting]
  | more report reporting after =>
    have young : ¬report.beganAt ≤ limit := by omega
    rw [reporting,filter_cons,if_neg (by simp [young])]
  | less report reporting =>
    rw [reporting]
    exact ((erase_sublist).filter _).length_le

theorem recorded_le {report : Report} {after : IndexQueue} (member : report ∈ state.reporting)
    (written : enqueuePath state.queue report.beganAt report.directory report.actor report.client = some after) :
    (after.retain (fun directory row => row.seenAt ≤ limit && test directory)).size +
        ((state.reporting.erase report).filter (fun report => report.beganAt ≤ limit && test report.directory)).length +
        (if (state.queue.lookup report.directory).any (fun row => row.seenAt ≤ limit && test report.directory) then 1 else 0) ≤
      ahead test limit state := by
  have split := (perm_cons_erase member).filter (fun report => report.beganAt ≤ limit && test report.directory)
  have count := split.length_eq
  unfold enqueuePath at written
  obtain ⟨-,written⟩ := of_unless written
  cases written
  rw [size_retain_insert]
  have smaller : ((state.queue.erase report.directory).retain (fun directory row => row.seenAt ≤ limit && test directory)).size +
      (if (state.queue.lookup report.directory).any (fun row => row.seenAt ≤ limit && test report.directory) then 1 else 0) ≤
        (state.queue.retain (fun directory row => row.seenAt ≤ limit && test directory)).size := by
    split
    next old =>
      obtain ⟨row,found,passes⟩ := (Option.any_eq_true _ _).mp old
      exact (size_retain_erase found passes).le
    next => exact size_retain_erase_le _ _ _
  unfold ahead
  rw [count,filter_cons]
  split <;> simp_all <;> omega

theorem dequeue_retain_le (queue : IndexQueue) (taken : Directory) (notNewerThan : Int)
    (keeps : Directory → QueueRow → Bool) : ((dequeue queue taken notNewerThan).retain keeps).size ≤ (queue.retain keeps).size := by
  unfold dequeue
  split
  next => exact size_retain_erase_le _ _ _
  next => exact le_rfl

theorem ahead_le (late : limit ≤ state.clock) (taken : step service state event = some next) :
    ahead test limit next ≤ ahead test limit state := by
  cases (step_effect taken).1 with
  | recorded report member written reporting _ =>
    have bound := @recorded_le state limit test report next.queue member written
    unfold ahead at bound ⊢
    rw [reporting]
    omega
  | dequeued worker work sighting held queue reporting _ =>
    unfold ahead
    rw [queue,reporting]
    exact Nat.add_le_add_right (dequeue_retain_le _ _ _ _) _
  | left _ queue reporting _ =>
    unfold ahead
    rw [queue]
    exact Nat.add_le_add_left (reporting_le late reporting) _

theorem ahead_row {row : QueueRow} (taken : step service state event = some next)
    (found : state.queue.lookup directory = some row) (old : row.seenAt ≤ limit) (counted : test directory = true) :
    (∃ later, next.queue.lookup directory = some later ∧ later.seenAt ≤ limit) ∨
      ahead test limit next < ahead test limit state := by
  cases (step_effect taken).1 with
  | recorded report member written reporting _ =>
    have there := lookup_enqueuePath written directory
    have bound := @recorded_le state limit test report next.queue member written
    split at there
    next same =>
      subst same
      by_cases early : report.beganAt ≤ limit
      · exact .inl ⟨_,there,early⟩
      · right
        simp only [found,Option.any_some,old,counted,decide_true,Bool.and_self,if_true] at bound
        unfold ahead at bound ⊢
        rw [reporting]
        omega
    next => exact .inl ⟨row,there.trans found,old⟩
  | dequeued worker work sighting held queue reporting _ =>
    by_cases gone : directory = work.entry.directory ∧
        (state.queue.lookup work.entry.directory).any (fun row => row.seenAt ≤ work.startedAt) = true
    · right
      obtain ⟨rfl,due⟩ := gone
      have fewer : ((state.queue.erase work.entry.directory).retain (fun directory row => row.seenAt ≤ limit && test directory)).size + 1 =
          (state.queue.retain (fun directory row => row.seenAt ≤ limit && test directory)).size :=
        size_retain_erase found (by simp [old,counted])
      unfold ahead
      rw [queue,reporting,dequeue,if_pos due]
      omega
    · left
      exact ⟨row,by rw [queue,lookup_dequeue,if_neg gone]; exact found,old⟩
  | left _ queue _ _ => exact .inl ⟨row,by rw [queue]; exact found,old⟩

end

def Phase.pending : Phase → List QueuedPath
  | .between rest => rest
  | .started work | .resolved work _ | .looked work _ _ _ | .failing work | .returned work _ => work.entry::work.rest

inductive Passing (state next : State) (worker : String) (phase : Phase) : Event → Prop where
  | idle (event : Event) (held : next.passes worker = some phase) (others : event ≠ .dequeues worker) :
      Passing state next worker phase event
  | begun (now : Int) (entry : QueuedPath) (rest : List QueuedPath) (was : phase = .between (entry::rest))
      (held : next.passes worker = some (.started ⟨entry,jsDate now,rest⟩)) (later : state.clock < now) (clock : next.clock = now) :
      Passing state next worker phase (.begins now worker)
  | further (event : Event) (work : Work) (reached : Phase) (was : phase.work = some work) (is : reached.work = some work)
      (held : next.passes worker = some reached) : Passing state next worker phase event
  | threw (work : Work) (was : phase.work = some work) (held : next.passes worker = some (.between work.rest)) :
      Passing state next worker phase (.throws worker)
  | dequeued (work : Work) (sighting : Sighting) (was : phase = .returned work sighting)
      (held : next.passes worker = some (.between work.rest))
      (queue : next.queue = dequeue state.queue work.entry.directory work.startedAt) : Passing state next worker phase (.dequeues worker)
  | ended (was : phase = .between []) (held : next.passes worker = none) : Passing state next worker phase (.ends worker)

theorem step_passing {phase : Phase} (held : state.passes worker = some phase) (going : event ≠ .stops worker)
    (taken : step service state event = some next) : Passing state next worker phase event := by
  have others {actor : String} {reached : Option Phase} (apart : ¬worker = actor) :
      (state.turn actor reached).passes worker = some phase := (turn_other state reached apart).trans held
  cases event with simp only [step] at taken
  | changes now directory | reports now directory changedAt actor client =>
    obtain ⟨-,taken⟩ := of_when taken
    cases taken
    exact .idle _ held nofun
  | records report =>
    obtain ⟨-,stored⟩ := of_when taken
    obtain ⟨after,-,rfl⟩ := Option.map_eq_some_iff.mp stored
    exact .idle _ held nofun
  | rollsBack report =>
    obtain ⟨-,taken⟩ := of_when taken
    cases taken
    exact .idle _ held nofun
  | indexes index drawn =>
    cases taken
    exact .idle _ held nofun
  | picks actor =>
    split at taken <;> cases taken
    next free =>
      by_cases same : worker = actor
      · rw [← same,held] at free
        cases free
      · exact .idle _ (others same) nofun
  | begins now actor =>
    split at taken
    next entry rest was =>
      obtain ⟨later,taken⟩ := of_when taken
      cases taken
      by_cases same : worker = actor
      · subst same
        rw [held] at was
        cases was
        exact .begun now entry rest rfl (turn_self _ _ _) later rfl
      · exact .idle _ (others same) nofun
    next => cases taken
  | resolves actor =>
    split at taken <;> cases taken
    next work was =>
      by_cases same : worker = actor
      · subst same
        rw [held] at was
        cases was
        refine .further _ work _ rfl ?_ (turn_self _ _ _)
        split <;> rfl
      · exact .idle _ (others same) nofun
  | looks now actor agent =>
    split at taken
    next work folderId was =>
      obtain ⟨later,taken⟩ := of_when taken
      by_cases same : worker = actor
      · subst same
        rw [held] at was
        cases was
        split at taken <;> cases taken <;> exact .further _ work _ rfl rfl (turn_self _ _ _)
      · split at taken <;> cases taken <;> exact .idle _ (others same) nofun
    next => cases taken
  | settles actor stamp root bin =>
    split at taken
    next work folderId askedAt answer was =>
      by_cases same : worker = actor
      · subst same
        rw [held] at was
        cases was
        split at taken <;> cases taken <;> exact .further _ work _ rfl rfl (turn_self _ _ _)
      · split at taken <;> cases taken <;> exact .idle _ (others same) nofun
    next => cases taken
  | throws actor =>
    obtain ⟨work,was,rfl⟩ := Option.map_eq_some_iff.mp taken
    by_cases same : worker = actor
    · subst same
      rw [held] at was
      exact .threw work was (turn_self _ _ _)
    · exact .idle _ (others same) nofun
  | dequeues actor =>
    split at taken <;> cases taken
    next work sighting was =>
      by_cases same : worker = actor
      · subst same
        rw [held] at was
        cases was
        exact .dequeued work sighting rfl (turn_self _ _ _) rfl
      · exact .idle _ (others same) (fun is => same (Event.dequeues.inj is).symm)
  | ends actor =>
    split at taken <;> cases taken
    next was =>
      by_cases same : worker = actor
      · subst same
        rw [held] at was
        cases was
        exact .ended rfl (turn_self _ _ _)
      · exact .idle _ (others same) nofun
  | stops actor =>
    obtain ⟨phase,-,rfl⟩ := Option.map_eq_some_iff.mp taken
    by_cases same : worker = actor
    · exact absurd (congrArg Event.stops same.symm) going
    · exact .idle _ (others same) nofun

section

variable {failing : Directory → Bool} {row : QueueRow} {events : List Event} {final : State}

theorem waits_step (untroubled : Untroubled failing directory state event) (taken : step service state event = some next) :
    next.queue.lookup directory = state.queue.lookup directory ∨ next.queue.lookup directory = none := by
  cases (step_effect taken).1 with
  | recorded report _ written _ _ =>
    rw [lookup_enqueuePath written,if_neg (Ne.symm untroubled)]
    exact .inl rfl
  | dequeued worker work sighting held queue _ _ =>
    rw [queue,lookup_dequeue]
    split
    next => exact .inr rfl
    next => exact .inl rfl
  | left _ queue _ _ => exact .inl (by rw [queue])

theorem run_waits (untroubled : Machine.Meets (step service) (Untroubled failing directory) state events)
    (ran : Machine.run (step service) state events = some final) : state.clock ≤ final.clock ∧
      (final.queue.lookup directory = state.queue.lookup directory ∨ final.queue.lookup directory = none) ∧
      ∀ test limit, limit ≤ state.clock → ahead test limit final ≤ ahead test limit state := by
  refine run_invariant (step service)
    (fun middle event next (held : state.clock ≤ middle.clock ∧
        (middle.queue.lookup directory = state.queue.lookup directory ∨ middle.queue.lookup directory = none) ∧
        ∀ test limit, limit ≤ state.clock → ahead test limit middle ≤ ahead test limit state) admitted taken => ?_)
    ⟨le_rfl,.inl rfl,fun _ _ _ => le_rfl⟩ untroubled ran
  obtain ⟨clock,waits,fewer⟩ := held
  refine ⟨clock.trans (step_effect taken).2,?_,fun test limit late =>
    (ahead_le (late.trans clock) taken).trans (fewer test limit late)⟩
  rcases waits_step admitted taken with same | gone
  · rw [same]
    exact waits
  · exact .inr gone

def Early (directory : Directory) (limit : Int) (state : State) : Prop :=
  ∃ row, state.queue.lookup directory = some row ∧ row.seenAt ≤ limit

def Chased (worker : String) (target : Directory) (limit : Int) (state : State) : Prop :=
  Early target limit state ∧ ∃ phase, state.passes worker = some phase ∧
    target ∈ phase.pending.map QueuedPath.directory ∧ ∀ work, phase.work = some work → limit ≤ work.startedAt

theorem pending_of_work {phase : Phase} {work : Work} (is : phase.work = some work) : phase.pending = work.entry::work.rest := by
  cases phase <;> cases is <;> rfl

theorem target_step {target : Directory} {limit : Int} (chased : Chased worker target limit state)
    (healthy : failing target = false) (late : limit + 1000 ≤ state.clock)
    (untroubled : Untroubled failing directory state event) (going : event ≠ .stops worker)
    (taken : step service state event = some next) : Chased worker target limit next ∨ ¬Early target limit next := by
  obtain ⟨⟨row,found,old⟩,phase,held,member,timely⟩ := chased
  by_cases early : Early target limit next
  · left
    refine ⟨early,?_⟩
    cases step_passing held going taken with
    | idle _ same _ => exact ⟨phase,same,member,timely⟩
    | begun now entry rest was reached later _ =>
      subst was
      refine ⟨_,reached,member,fun work is => ?_⟩
      cases is
      simp only [jsDate]
      omega
    | further _ work reached was is held =>
      refine ⟨reached,held,?_,fun doing same => ?_⟩
      · rw [pending_of_work is,← pending_of_work was]
        exact member
      · rw [is] at same
        cases same
        exact timely work was
    | threw work was reached =>
      refine ⟨_,reached,?_,nofun⟩
      rw [pending_of_work was] at member
      rcases mem_cons.mp member with here | later
      · have fails := untroubled phase work held was
        rw [← here,healthy] at fails
        cases fails
      · exact later
    | dequeued work sighting was reached queue =>
      subst was
      refine ⟨_,reached,?_,nofun⟩
      rcases mem_cons.mp member with here | later
      · have due := timely work rfl
        obtain ⟨later,there,-⟩ := early
        rw [queue,lookup_dequeue,if_pos] at there
        · cases there
        · refine ⟨here,?_⟩
          change target = work.entry.directory at here
          rw [← here,found]
          simp only [Option.any_some,decide_eq_true_eq]
          omega
      · exact later
    | ended was _ =>
      subst was
      cases member
  · exact .inr early

theorem chase_run {target : Directory} {limit : Int} (chased : Chased worker target limit state) (healthy : failing target = false)
    (late : limit + 1000 ≤ state.clock) (untroubled : Machine.Meets (step service) (Untroubled failing directory) state events)
    (going : .stops worker ∉ events) (ran : Machine.run (step service) state events = some final) :
    Chased worker target limit final ∨ final.queue.lookup directory = none ∨
      ahead (fun other => other ≠ directory) limit final < ahead (fun other => other ≠ directory) limit state := by
  induction events generalizing state with
  | nil =>
    cases ran
    exact .inl chased
  | cons event rest ih =>
    obtain ⟨middle,taken,tail⟩ := run_cons_some (step service) ran
    obtain ⟨here,later⟩ := meets_cons_some (step service) untroubled taken
    obtain ⟨going,steady⟩ := not_or.mp (mem_cons.not.mp going)
    have clock := (step_effect taken).2
    have fewer := @ahead_le service state middle event limit (fun other => other ≠ directory) (by omega) taken
    rcases target_step chased healthy late here (Ne.symm going) taken with onward | gone
    · rcases ih onward (late.trans clock) later steady tail with still | left | less
      · exact .inl still
      · exact .inr (.inl left)
      · exact .inr (.inr (by omega))
    · obtain ⟨row,found,old⟩ := chased.1
      have after := run_waits later tail
      by_cases same : target = directory
      · subst same
        have none : middle.queue.lookup target = none := by
          rcases waits_step here taken with kept | none
          · exact absurd ⟨row,kept.trans found,old⟩ gone
          · exact none
        rcases after.2.1 with kept | lost
        · exact .inr (.inl (kept.trans none))
        · exact .inr (.inl lost)
      · have less := @ahead_row service state middle event target limit (fun other => other ≠ directory) row taken found old
          (by simp [same])
        rcases less with stays | less
        · exact absurd stays gone
        · have rest := after.2.2 (fun other => other ≠ directory) limit (by omega)
          exact .inr (.inr (by omega))

theorem tick_run {entry : QueuedPath} {rest : List QueuedPath} (held : state.passes worker = some (.between (entry::rest)))
    (going : .stops worker ∉ events) (ran : Machine.run (step service) state events = some final) :
    final.passes worker = some (.between (entry::rest)) ∨ state.clock < final.clock := by
  induction events generalizing state with
  | nil =>
    cases ran
    exact .inl held
  | cons event others ih =>
    obtain ⟨middle,taken,tail⟩ := run_cons_some (step service) ran
    obtain ⟨going,steady⟩ := not_or.mp (mem_cons.not.mp going)
    have clock := (step_effect taken).2
    have beyond : middle.clock ≤ final.clock := run_invariant_always (step service)
      (fun one event next (held : middle.clock ≤ one.clock) taken => held.trans (step_effect taken).2) le_rfl tail
    cases step_passing held (Ne.symm going) taken with
    | idle _ same _ => exact (ih same steady tail).imp_right (fun later => clock.trans_lt later)
    | begun now _ _ _ _ later same => exact .inr (by omega)
    | further _ work reached was _ _ | threw work was _ | dequeued work sighting was _ _ | ended was _ => cases was

end

theorem olderFirst_trans (first second third : Directory × QueueRow) (left : olderFirst first second = true)
    (right : olderFirst second third = true) : olderFirst first third = true := by
  simp only [olderFirst,decide_eq_true_eq] at left right ⊢
  exact left.trans right

theorem olderFirst_total (first second : Directory × QueueRow) : (olderFirst first second || olderFirst second first) = true := by
  simp only [olderFirst,Bool.or_eq_true,decide_eq_true_eq]
  exact le_total _ _

def inOrder (service : Service) (queue : IndexQueue) : List (Directory × QueueRow) :=
  (service.arrange queue.rows).mergeSort olderFirst

theorem inOrder_perm (service : Service) (queue : IndexQueue) : (inOrder service queue).Perm queue.rows :=
  (mergeSort_perm _ _).trans (service.arranged _)

theorem queued_eq (service : Service) (queue : IndexQueue) : queued service queue =
    ((inOrder service queue).take service.batch).map (fun (directory,row) => ⟨directory,row.actor⟩) := rfl

theorem queued_front {queue : IndexQueue} {row : QueueRow} (found : queue.lookup directory = some row) :
    directory ∈ (queued service queue).map QueuedPath.directory ∨
      service.batch ≤ ((inOrder service queue).take service.batch).length ∧
        ∀ entry ∈ (inOrder service queue).take service.batch, entry.1 ≠ directory ∧ entry.2.seenAt ≤ row.seenAt := by
  have listed : (directory,row) ∈ inOrder service queue :=
    (inOrder_perm service queue).mem_iff.mpr (mem_rows.mpr found)
  have sorted : (inOrder service queue).Pairwise (fun first second => olderFirst first second = true) :=
    pairwise_mergeSort olderFirst_trans olderFirst_total _
  rw [← take_append_drop service.batch (inOrder service queue)] at listed
  rcases mem_append.mp listed with front | back
  · left
    rw [queued_eq,map_map]
    exact mem_map.mpr ⟨_,front,rfl⟩
  · right
    have longer : service.batch < (inOrder service queue).length := by
      have positive := length_pos_of_mem back
      rw [length_drop] at positive
      omega
    refine ⟨by rw [length_take]; omega,fun entry member => ⟨fun same => ?_,?_⟩⟩
    · have distinct : ((inOrder service queue).map Prod.fst).Nodup :=
        ((inOrder_perm service queue).map _).nodup_iff.mpr queue.rows_nodup
      rw [← take_append_drop service.batch (inOrder service queue),map_append] at distinct
      exact (disjoint_of_nodup_append distinct) (mem_map.mpr ⟨entry,member,same⟩) (mem_map.mpr ⟨_,back,rfl⟩)
    · rw [← take_append_drop service.batch (inOrder service queue)] at sorted
      have before := (pairwise_append.mp sorted).2.2 entry member _ back
      simpa [olderFirst] using before

variable {failing : Directory → Bool} {row : QueueRow} {events : List Event} {final : State}

theorem exists_target (found : state.queue.lookup directory = some row) (healthy : failing directory = false)
    (few : ahead (fun other => other ≠ directory && failing other) row.seenAt state < service.batch) :
    ∃ target, target ∈ (queued service state.queue).map QueuedPath.directory ∧ Early target row.seenAt state ∧
      failing target = false := by
  rcases @queued_front service directory state.queue row found with mine | ⟨full,before⟩
  · exact ⟨directory,mine,⟨row,found,le_rfl⟩,healthy⟩
  · have stored (entry : Directory × QueueRow) (member : entry ∈ (inOrder service state.queue).take service.batch) :
        state.queue.lookup entry.1 = some entry.2 :=
      mem_rows.mp ((inOrder_perm service state.queue).mem_iff.mp (mem_of_mem_take member))
    have one : ∃ entry ∈ (inOrder service state.queue).take service.batch, failing entry.1 = false := by
      by_contra all
      have each (entry : Directory × QueueRow) (member : entry ∈ (inOrder service state.queue).take service.batch) :
          failing entry.1 = true := by
        cases fails : failing entry.1 with
        | true => rfl
        | false => exact absurd ⟨entry,member,fails⟩ all
      have distinct : (((inOrder service state.queue).take service.batch).map Prod.fst).Nodup := by
        have whole : ((inOrder service state.queue).map Prod.fst).Nodup :=
          ((inOrder_perm service state.queue).map _).nodup_iff.mpr state.queue.rows_nodup
        exact ((take_sublist _ _).map _).nodup whole
      have count : (((inOrder service state.queue).take service.batch).map Prod.fst).length ≤
          (state.queue.retain (fun other seen => seen.seenAt ≤ row.seenAt && (other ≠ directory && failing other))).size := by
        refine length_le_size distinct (fun key member => ?_)
        obtain ⟨entry,inside,rfl⟩ := mem_map.mp member
        obtain ⟨apart,old⟩ := before entry inside
        rw [lookup_retain,stored entry inside]
        simp [old,apart,each entry inside]
      rw [length_map] at count
      unfold ahead at few
      simp only [decide_not] at few count
      omega
    obtain ⟨entry,member,works⟩ := one
    refine ⟨entry.1,?_,⟨entry.2,stored entry member,(before entry member).2⟩,works⟩
    rw [queued_eq,map_map]
    exact mem_map.mpr ⟨entry,member,rfl⟩

def waiting (directory : Directory) (limit : Int) (state : State) : Nat :=
  (limit + 1000 - state.clock).toNat + ahead (fun other => other ≠ directory) limit state

theorem picks_batch (taken : step service state (.picks worker) = some next) :
    next = state.turn worker (some (.between (queued service state.queue))) := by
  simp only [step] at taken
  split at taken <;> cases taken
  rfl

theorem ends_batch (taken : step service state (.ends worker) = some next) :
    state.passes worker = some (.between []) ∧ next = state.turn worker none := by
  simp only [step] at taken
  split at taken <;> cases taken
  next idle => exact ⟨idle,rfl⟩

theorem middle_gains (late : row.seenAt ≤ state.clock) (found : state.queue.lookup directory = some row)
    (healthy : failing directory = false)
    (few : ahead (fun other => other ≠ directory && failing other) row.seenAt state < service.batch)
    (untroubled : Machine.Meets (step service) (Untroubled failing directory)
      (state.turn worker (some (.between (queued service state.queue)))) events) (going : .stops worker ∉ events)
    (ran : Machine.run (step service) (state.turn worker (some (.between (queued service state.queue)))) events = some final)
    (idle : final.passes worker = some (.between [])) :
    final.queue.lookup directory = none ∨ waiting directory row.seenAt final < waiting directory row.seenAt state := by
  obtain ⟨target,member,early,works⟩ := exists_target found healthy few
  obtain ⟨clock,-,fewer⟩ := run_waits untroubled ran
  have less := fewer (fun other => other ≠ directory) row.seenAt late
  change state.clock ≤ final.clock at clock
  change ahead _ _ final ≤ ahead _ _ state at less
  unfold waiting
  by_cases passed : row.seenAt + 1000 ≤ state.clock
  · have chased : Chased worker target row.seenAt (state.turn worker (some (.between (queued service state.queue)))) :=
      ⟨early,_,turn_self _ _ _,member,nofun⟩
    rcases chase_run chased works passed untroubled going ran with ⟨-,phase,held,inside,-⟩ | lost | gained
    · rw [idle] at held
      cases held
      cases inside
    · exact .inl lost
    · change ahead _ _ final < ahead _ _ state at gained
      exact .inr (by omega)
  · cases batch : queued service state.queue with
    | nil => rw [batch] at member; cases member
    | cons entry rest =>
      rw [batch] at ran
      rcases tick_run (turn_self _ _ _) going ran with still | later
      · rw [idle] at still
        cases still
      · change state.clock < final.clock at later
        exact .inr (by omega)

theorem round_gains (late : row.seenAt ≤ state.clock) (found : state.queue.lookup directory = some row)
    (healthy : failing directory = false)
    (few : ahead (fun other => other ≠ directory && failing other) row.seenAt state < service.batch) (round : Round events)
    (untroubled : Machine.Meets (step service) (Untroubled failing directory) state events)
    (ran : Machine.run (step service) state events = some final) :
    final.queue.lookup directory = none ∨ waiting directory row.seenAt final < waiting directory row.seenAt state := by
  obtain ⟨worker,before,middle,rfl,going⟩ := round
  obtain ⟨picking,start,rest⟩ := Option.bind_eq_some_iff.mp ((run_append (step service) _ _ _).symm.trans ran)
  obtain ⟨first,later⟩ := meets_append (step service) untroubled start
  obtain ⟨picked,taken,rest⟩ := run_cons_some (step service) rest
  obtain ⟨-,later⟩ := meets_cons_some (step service) later taken
  obtain ⟨ending,ran,last⟩ := Option.bind_eq_some_iff.mp ((run_append (step service) _ _ _).symm.trans rest)
  obtain ⟨steady,-⟩ := meets_append (step service) later ran
  obtain ⟨finished,closing,same⟩ := run_cons_some (step service) last
  cases same
  obtain ⟨idle,rfl⟩ := ends_batch closing
  cases picks_batch taken
  obtain ⟨clock,waits,fewer⟩ := run_waits first start
  have less := fewer (fun other => other ≠ directory) row.seenAt late
  rcases waits with kept | gone
  · rcases middle_gains (late.trans clock) (kept.trans found) healthy ((fewer _ _ late).trans_lt few) steady going ran idle with
      lost | gained
    · exact .inl lost
    · right
      change waiting _ _ ending < _
      unfold waiting at gained ⊢
      omega
  · left
    rcases (run_waits steady ran).2.1 with kept | lost
    · exact kept.trans gone
    · exact lost

theorem rounds_gone {segments : List (List Event)} (late : row.seenAt ≤ state.clock)
    (found : state.queue.lookup directory = some row) (healthy : failing directory = false)
    (few : ahead (fun other => other ≠ directory && failing other) row.seenAt state < service.batch)
    (rounds : ∀ segment ∈ segments, Round segment) (many : waiting directory row.seenAt state < segments.length)
    (untroubled : Machine.Meets (step service) (Untroubled failing directory) state segments.flatten)
    (ran : Machine.run (step service) state segments.flatten = some final) : final.queue.lookup directory = none := by
  induction segments generalizing state with
  | nil => cases many
  | cons segment rest ih =>
    rw [flatten_cons] at untroubled ran
    obtain ⟨middle,first,others⟩ := Option.bind_eq_some_iff.mp ((run_append (step service) _ _ _).symm.trans ran)
    obtain ⟨here,later⟩ := meets_append (step service) untroubled first
    obtain ⟨clock,waits,fewer⟩ := run_waits here first
    have gone (lost : middle.queue.lookup directory = none) : final.queue.lookup directory = none := by
      rcases (run_waits later others).2.1 with kept | none
      · exact kept.trans lost
      · exact none
    rcases waits with kept | lost
    · rcases round_gains late found healthy few (rounds segment mem_cons_self) here first with lost | nearer
      · exact gone lost
      · refine ih (late.trans clock) (kept.trans found) ((fewer _ _ late).trans_lt few)
          (fun other member => rounds other (mem_cons_of_mem _ member)) ?_ later others
        rw [length_cons] at many
        omega
    · exact gone lost

def State.start (clock : Int) (index : Index) (drawn : Nat) : State :=
  ⟨clock,index,drawn,∅,[],fun _ => none,[],[],[]⟩

theorem start_coherent (clock : Int) (index : Index) (drawn : Nat) : Coherent (.start clock index drawn) := by
  constructor
  all_goals nofun

/-- Where events are recorded after what is recorded already, and rows in the index are taken off only
after their directory was read to the end, no row is taken off before that was done after every
recorded change; and a directory in front of which fewer failing ones wait than a batch holds is
dealt with after as many passes as there are rows and events before it, and a millisecond's worth.
-/
theorem drain_exact (service : Service) (clock : Int) (index : Index) (drawn : Nat) {events : List Event} {state : State}
    (ran : Machine.run (step service) (.start clock index drawn) events = some state) :
    (Machine.Meets (step service) (Careful service) (.start clock index drawn) events →
      ∀ event next, Careful service state event → step service state event = some next → NothingLost service state next) ∧
    ∀ (failing : Directory → Bool) directory row, state.queue.lookup directory = some row → failing directory = false →
      ahead (fun other => other ≠ directory && failing other) row.seenAt state < service.batch →
      ∀ (segments : List (List Event)) final, (∀ segment ∈ segments, Round segment) →
        ahead (fun other => other ≠ directory) row.seenAt state + 1000 < segments.length →
        Machine.Meets (step service) (Untroubled failing directory) state segments.flatten →
        Machine.run (step service) state segments.flatten = some final → final.queue.lookup directory = none := by
  have coherent : Coherent state := run_invariant_always (step service)
    (fun _ _ _ held taken => step_coherent held taken) (start_coherent clock index drawn) ran
  constructor
  · intro careful event next admitted taken
    have each (one : State) (event : Event) (next : State) (held : Coherent one ∧ Timed one) (admitted : Careful service one event)
        (taken : step service one event = some next) : Coherent next ∧ Timed next :=
      ⟨step_coherent held.1 taken,step_timed held.1 held.2 admitted taken⟩
    obtain ⟨coherent,timed⟩ := run_invariant (step service) each
      ⟨start_coherent clock index drawn,nofun⟩ careful ran
    exact step_keeps coherent timed admitted taken
  · intro failing directory row found healthy few segments final rounds many untroubled ran
    have late := coherent.seen directory row found
    refine rounds_gone late found healthy few rounds ?_ untroubled ran
    unfold waiting
    omega

/-! Where as many failing directories as a batch holds are older, the turn never comes. -/

theorem not_queued {queue : IndexQueue} {keys : List Directory} (found : queue.lookup directory = some row)
    (distinct : keys.Nodup) (full : service.batch ≤ keys.length)
    (older : ∀ key ∈ keys, ∃ seen, queue.lookup key = some seen ∧ seen.seenAt < row.seenAt) :
    directory ∉ (queued service queue).map QueuedPath.directory := by
  intro member
  rw [queued_eq,map_map] at member
  obtain ⟨entry,inside,same⟩ := mem_map.mp member
  change entry.1 = directory at same
  have listed {other : Directory × QueueRow} (there : other ∈ inOrder service queue) : queue.lookup other.1 = some other.2 :=
    mem_rows.mp ((inOrder_perm service queue).mem_iff.mp there)
  have mine : entry.2 = row := by
    have there := listed (mem_of_mem_take inside)
    rw [same,found] at there
    exact (Option.some.inj there).symm
  obtain ⟨front,back,cut⟩ := append_of_mem inside
  have whole : inOrder service queue = front++(entry::(back++(inOrder service queue).drop service.batch)) := by
    conv_lhs => rw [← take_append_drop service.batch (inOrder service queue),cut]
    simp
  have sorted : (inOrder service queue).Pairwise (fun first second => olderFirst first second = true) :=
    pairwise_mergeSort olderFirst_trans olderFirst_total _
  rw [whole] at sorted
  have after := (pairwise_cons.mp (pairwise_append.mp sorted).2.1).1
  have ahead : keys ⊆ front.map Prod.fst := by
    intro key there
    obtain ⟨seen,stored,before⟩ := older key there
    have placed : (key,seen) ∈ inOrder service queue :=
      (inOrder_perm service queue).mem_iff.mpr (mem_rows.mpr stored)
    rw [whole] at placed
    rcases mem_append.mp placed with early | later
    · exact mem_map.mpr ⟨_,early,rfl⟩
    · exfalso
      rcases mem_cons.mp later with here | later
      · rw [← here] at mine
        simp only at mine
        rw [mine] at before
        omega
      · have sooner := after _ later
        simp only [olderFirst,decide_eq_true_eq,mine] at sooner
        omega
  have count := (subperm_of_subset distinct ahead).length_le
  have short : ((inOrder service queue).take service.batch).length ≤ service.batch := by
    rw [length_take]
    omega
  rw [cut,length_append,length_cons] at short
  rw [length_map] at count
  omega

def failures (worker : String) : Int → List QueuedPath → List Event
  | _,[] => []
  | clock,_::rest => .begins (clock + 1) worker::.throws worker::failures worker (clock + 1) rest

theorem failures_run {rest : List QueuedPath} (held : state.passes worker = some (.between rest))
    (all : ∀ entry ∈ rest, failing entry.directory = true) :
    ∃ final, Machine.run (step service) state (failures worker state.clock rest) = some final ∧
      final.queue = state.queue ∧ final.passes worker = some (.between []) ∧
      Machine.Meets (step service) (Untroubled failing directory) state (failures worker state.clock rest) := by
  induction rest generalizing state with
  | nil => exact ⟨state,rfl,rfl,held,trivial⟩
  | cons entry rest ih =>
    let begun : State :=
      { state.turn worker (some (.started ⟨entry,jsDate (state.clock + 1),rest⟩)) with clock := state.clock + 1 }
    have first : step service state (.begins (state.clock + 1) worker) = some begun := by
      simp only [step,held]
      rw [if_pos (by omega)]
    have there : begun.passes worker = some (.started ⟨entry,jsDate (state.clock + 1),rest⟩) := turn_self _ _ _
    have second : step service begun (.throws worker) = some (begun.turn worker (some (.between rest))) := by
      simp only [step,there,Option.bind_some,Phase.work,Option.map_some]
    obtain ⟨final,ran,queue,idle,met⟩ := @ih (begun.turn worker (some (.between rest))) (turn_self _ _ _)
      (fun other member => all other (mem_cons_of_mem _ member))
    refine ⟨final,?_,queue,idle,?_⟩
    · simp only [failures,run_cons,first,Option.bind_some,second]
      exact ran
    · refine ⟨trivial,?_⟩
      rw [first]
      refine ⟨fun phase work held' is => ?_,?_⟩
      · rw [there] at held'
        cases held'
        cases is
        exact all entry mem_cons_self
      · rw [second]
        exact met

theorem failures_steady {clock : Int} {rest : List QueuedPath} : .stops worker ∉ failures worker clock rest := by
  induction rest generalizing clock with
  | nil => nofun
  | cons entry rest ih => simp [failures,ih]

theorem starved_round (idle : state.passes worker = none)
    (all : ∀ entry ∈ queued service state.queue, failing entry.directory = true) :
    ∃ segment final, Round segment ∧ Machine.run (step service) state segment = some final ∧ final.queue = state.queue ∧
      final.passes worker = none ∧ Machine.Meets (step service) (Untroubled failing directory) state segment := by
  let picked := state.turn worker (some (.between (queued service state.queue)))
  have first : step service state (.picks worker) = some picked := by simp only [step,idle]; rfl
  obtain ⟨final,ran,queue,done,met⟩ := @failures_run service picked worker directory failing _ (turn_self _ _ _) all
  have last : step service final (.ends worker) = some (final.turn worker none) := by simp only [step,done]
  refine ⟨.picks worker::(failures worker picked.clock (queued service state.queue)++[.ends worker]),final.turn worker none,
    ⟨worker,[],_,rfl,failures_steady⟩,?_,queue,turn_self _ _ _,?_⟩
  · rw [run_cons,first,Option.bind_some,run_append,ran,Option.bind_some]
    simp only [run_cons,last,Option.bind_some,run_nil]
  · refine ⟨trivial,?_⟩
    rw [first]
    refine meets_append_of (step service) met ran ?_
    refine ⟨trivial,?_⟩
    rw [last]
    trivial

theorem starved_rounds (idle : state.passes worker = none)
    (all : ∀ entry ∈ queued service state.queue, failing entry.directory = true) (rounds : Nat) :
    ∃ (segments : List (List Event)) (final : State), segments.length = rounds ∧ (∀ segment ∈ segments, Round segment) ∧
      Machine.run (step service) state segments.flatten = some final ∧ final.queue = state.queue ∧
      Machine.Meets (step service) (Untroubled failing directory) state segments.flatten := by
  induction rounds generalizing state with
  | zero => exact ⟨[],state,rfl,by simp,rfl,rfl,trivial⟩
  | succ rounds ih =>
    obtain ⟨segment,middle,round,first,queue,free,met⟩ := @starved_round service state worker directory failing idle all
    obtain ⟨segments,final,count,each,rest,same,later⟩ := @ih middle free (by rw [queue]; exact all)
    refine ⟨segment::segments,final,by simp [count],?_,?_,same.trans queue,?_⟩
    · intro other member
      rcases mem_cons.mp member with rfl | others
      · exact round
      · exact each other others
    · rw [flatten_cons]
      exact run_append_some (step service) first rest
    · rw [flatten_cons]
      exact meets_append_of (step service) met first later

def arrivals : Int → List Directory → List Event
  | _,[] => []
  | clock,directory::rest => .changes (clock + 1) directory::.reports (clock + 2) directory (clock + 1) none none::
      .records ⟨directory,clock + 1,clock + 2,none,none⟩::arrivals (clock + 2) rest

theorem arrivals_run {directories : List Directory} (quiet : state.reporting = [])
    (short : ∀ directory ∈ directories, directory.path.length ≤ 4096) :
    ∃ final, Machine.run (step service) state (arrivals state.clock directories) = some final ∧ final.reporting = [] ∧
      final.passes = state.passes ∧ state.clock ≤ final.clock ∧
      ∀ directory, if directory ∈ directories then
          ∃ row, final.queue.lookup directory = some row ∧ state.clock < row.seenAt ∧ row.seenAt ≤ final.clock
        else final.queue.lookup directory = state.queue.lookup directory := by
  induction directories generalizing state with
  | nil => exact ⟨state,rfl,quiet,rfl,le_rfl,fun _ => rfl⟩
  | cons directory rest ih =>
    let reported : Report := ⟨directory,state.clock + 1,state.clock + 2,none,none⟩
    let told : State :=
      { state with
        clock := state.clock + 2
        changes := (directory,state.clock + 1)::state.changes
        reporting := [reported] }
    let after : State :=
      { told with
        queue := state.queue.insert directory ⟨state.clock + 2,none,none⟩
        reporting := []
        recorded := (directory,state.clock + 1)::state.recorded }
    have room := short directory mem_cons_self
    have ran : Machine.run (step service) state [.changes (state.clock + 1) directory,
        .reports (state.clock + 2) directory (state.clock + 1) none none,.records reported] = some after := by
      simp only [run_cons,run_nil,step]
      rw [if_pos (by omega),Option.bind_some,if_pos ⟨by change state.clock + 1 < state.clock + 2; omega,mem_cons_self⟩,Option.bind_some,quiet]
      rw [if_pos (mem_singleton.mpr rfl)]
      simp only [enqueuePath]
      rw [if_neg (Nat.not_lt.mpr room)]
      simp [after,told,reported]
    obtain ⟨final,others,silent,same,later,rows⟩ := @ih after rfl (fun other member => short other (mem_cons_of_mem _ member))
    refine ⟨final,?_,silent,same,by change state.clock + 2 ≤ final.clock at later; omega,fun other => ?_⟩
    · exact run_append_some (step service) ran others
    · have there := rows other
      change state.clock + 2 ≤ final.clock at later
      by_cases among : other ∈ rest
      · rw [if_pos among] at there
        rw [if_pos (mem_cons_of_mem _ among)]
        obtain ⟨row,found,young,old⟩ := there
        change state.clock + 2 < row.seenAt at young
        exact ⟨row,found,by omega,old⟩
      · rw [if_neg among] at there
        by_cases here : other = directory
        · subst here
          rw [if_pos mem_cons_self]
          exact ⟨⟨state.clock + 2,none,none⟩,there.trans (lookup_insert _),by simp only; omega,later⟩
        · rw [if_neg (by simp [here,among])]
          exact there.trans (lookup_insert_ne here)

private theorem replicated_injective : Function.Injective (fun next : Nat => String.ofList (List.replicate next 'n')) := by
  intro first second same
  have long := congrArg String.length same
  simpa using long

private theorem identity_perm (rows : List (String × IndexRow)) : rows.Perm rows := .refl rows

private theorem untouched_perm (rows : List (Directory × QueueRow)) : rows.Perm rows := .refl rows

private def site (batch : Nat) : Service where
  organizationId := "org"
  fold := id
  server := ⟨id,identity_perm,fun next => String.ofList (List.replicate next 'n'),replicated_injective,fun _ => 0⟩
  arrange := id
  arranged := untouched_perm
  batch := batch

private def docs : Directory := ⟨"docs",""⟩

private def refusing : List Directory :=
  (List.range 200).map (fun next => ⟨"docs",String.ofList (List.replicate (next + 1) 'n')⟩)

private theorem refusing_distinct : refusing.Nodup := by
  refine nodup_range.map (fun first second same => ?_)
  exact Nat.succ_injective (replicated_injective (congrArg Directory.path same))

private theorem refusing_long {directory : Directory} (member : directory ∈ refusing) :
    0 < directory.path.length ∧ directory.path.length ≤ 200 := by
  obtain ⟨next,bound,rfl⟩ := mem_map.mp member
  have bound := mem_range.mp bound
  simp only [String.length_ofList,length_replicate]
  omega

private theorem refusing_short : ∀ directory ∈ refusing++[docs], directory.path.length ≤ 4096 := by
  intro directory member
  rcases mem_append.mp member with among | last
  · exact (refusing_long among).2.trans (by decide)
  · rw [mem_singleton.mp last]
    decide

private theorem docs_apart : docs ∉ refusing := fun member => absurd (refusing_long member).1 (by decide)

/-- Two hundred folders that cannot be read, and the change of a third after them: it is never looked at,
however many passes there are.
-/
theorem drain_starves : ∃ events state row, Machine.run (step (site 200)) (.start 0 ∅ 0) events = some state ∧
    state.queue.lookup docs = some row ∧ ∀ rounds, ∃ (segments : List (List Event)) (final : State),
      segments.length = rounds ∧ (∀ segment ∈ segments, Round segment) ∧
      Machine.Meets (step (site 200)) (Untroubled (fun directory => decide (directory ≠ docs)) docs) state segments.flatten ∧
      Machine.run (step (site 200)) state segments.flatten = some final ∧ final.queue.lookup docs = some row := by
  obtain ⟨middle,first,quiet,free,-,before⟩ := @arrivals_run (site 200) (.start 0 ∅ 0) refusing rfl
    (fun directory member => refusing_short directory (mem_append_left _ member))
  obtain ⟨state,second,-,same,-,after⟩ := @arrivals_run (site 200) middle [docs] quiet
    (fun directory member => refusing_short directory (mem_append_right _ member))
  have mine := after docs
  rw [if_pos (mem_singleton.mpr rfl)] at mine
  obtain ⟨row,found,late,-⟩ := mine
  have others (directory : Directory) (apart : directory ≠ docs) :
      state.queue.lookup directory = middle.queue.lookup directory := by
    have there := after directory
    rwa [if_neg (by simpa using apart)] at there
  have stored (directory : Directory) (member : directory ∈ refusing) :
      ∃ seen, state.queue.lookup directory = some seen ∧ seen.seenAt < row.seenAt := by
    have there := before directory
    rw [if_pos member] at there
    obtain ⟨seen,read,-,old⟩ := there
    exact ⟨seen,(others directory (fun same => docs_apart (same ▸ member))).trans read,old.trans_lt late⟩
  have outside : docs ∉ (queued (site 200) state.queue).map QueuedPath.directory :=
    not_queued found refusing_distinct (by simp [refusing,site]) stored
  refine ⟨_,state,row,run_append_some (step (site 200)) first second,found,fun rounds => ?_⟩
  obtain ⟨segments,final,count,each,ran,kept,met⟩ := @starved_rounds (site 200) state "worker" docs
    (fun directory => decide (directory ≠ docs)) (by rw [same,free]; rfl) (fun entry member => by
      have apart : entry.directory ≠ docs := fun here => outside (mem_map.mpr ⟨entry,member,here⟩)
      simpa using apart) rounds
  exact ⟨segments,final,count,each,met,ran,by rw [kept]; exact found⟩

private def arrived : State :=
  ⟨2,∅,0,AList.insert docs ⟨2,none,none⟩ ∅,[],fun _ => none,[(docs,1)],[(docs,1)],[]⟩

private theorem arrives : Machine.run (step (site 200)) (.start 0 ∅ 0) (arrivals 0 [docs]) = some arrived := by
  rfl

private theorem arrives_careful :
    Machine.Meets (step (site 200)) (Careful (site 200)) (.start 0 ∅ 0) (arrivals 0 [docs]) := by
  simp [arrivals,Machine.Meets,step,Careful,State.start,enqueuePath,docs]

private theorem arrived_queued : queued (site 200) arrived.queue = [⟨docs,none⟩] := by
  have rows : (site 200).arrange arrived.queue.rows = [(docs,⟨2,none,none⟩)] := rfl
  rw [queued,rows,mergeSort_singleton]
  rfl

private def reading : List Event :=
  [.begins 2000 "worker",.resolves "worker",.looks 2001 "worker" (fun _ _ => .listing [] false),
    .settles "worker" (fun _ => 0) none none]

private def atIt : State := arrived.turn "worker" (some (.between [⟨docs,none⟩]))

private theorem arrived_picks : step (site 200) arrived (.picks "worker") = some atIt := by
  have free : arrived.passes "worker" = none := rfl
  simp only [step,free,arrived_queued]
  rfl

private theorem reading_done : ∃ done, Machine.run (step (site 200)) atIt reading = some done ∧
    done.passes "worker" = some (.returned ⟨⟨docs,none⟩,2000,[]⟩ (.read 2001 false)) ∧ done.queue = arrived.queue ∧
    done.recorded = arrived.recorded ∧ done.index = ∅ :=
  ⟨_,rfl,rfl,rfl,rfl,rfl⟩

private theorem reading_ends {done : State} (held : done.passes "worker" = some (.returned ⟨⟨docs,none⟩,2000,[]⟩ (.read 2001 false)))
    (same : done.queue = arrived.queue) : ∃ taken, step (site 200) done (.dequeues "worker") = some taken ∧
      step (site 200) taken (.ends "worker") = some (taken.turn "worker" none) ∧ taken.queue = ∅ := by
  refine ⟨{ done.turn "worker" (some (.between [])) with queue := dequeue done.queue docs 2000 },by simp only [step,held],?_,?_⟩
  · rfl
  · rw [same]
    rfl

private def pass : List Event := .picks "worker"::(reading++[.dequeues "worker"]++[.ends "worker"])

theorem drain_exact_root : ∃ state before next final, ∃ segments : List (List Event),
    Machine.run (step (site 200)) (.start 0 ∅ 0) (arrivals 0 [docs]) = some state ∧
    Machine.run (step (site 200)) (.start 0 ∅ 0) (arrivals 0 [docs]++.picks "worker"::reading) = some before ∧
    step (site 200) before (.dequeues "worker") = some next ∧ NothingLost (site 200) before next ∧
    (state.queue.lookup docs).isSome = true ∧ Machine.run (step (site 200)) state segments.flatten = some final ∧
    final.queue.lookup docs = none := by
  obtain ⟨done,read,held,same,known,-⟩ := reading_done
  obtain ⟨taken,dequeued,ended,bare⟩ := reading_ends held same
  have before : Machine.run (step (site 200)) arrived (.picks "worker"::reading) = some done := by
    rw [run_cons,arrived_picks,Option.bind_some,read]
  have whole : Machine.run (step (site 200)) (.start 0 ∅ 0) (arrivals 0 [docs]++.picks "worker"::reading) = some done :=
    run_append_some (step (site 200)) arrives before
  have passed : Machine.run (step (site 200)) arrived pass = some (taken.turn "worker" none) := by
    rw [pass,run_cons,arrived_picks,Option.bind_some,append_assoc]
    refine run_append_some (step (site 200)) read ?_
    simp only [singleton_append,run_cons,dequeued,Option.bind_some,ended,run_nil]
  obtain ⟨idle,final,count,rounds,rest,-,calm⟩ := @starved_rounds (site 200) (taken.turn "worker" none) "worker" docs
    (fun _ => false) (turn_self _ _ _) (by
      intro entry member
      change entry ∈ queued (site 200) taken.queue at member
      rw [bare,queued] at member
      simp [site,AList.rows] at member) 1001
  have ran : Machine.run (step (site 200)) arrived (pass::idle).flatten = some final := by
    rw [flatten_cons]
    exact run_append_some (step (site 200)) passed rest
  refine ⟨arrived,done,taken,final,pass::idle,arrives,whole,dequeued,?_,rfl,ran,?_⟩
  · refine (drain_exact (site 200) 0 ∅ 0 whole).1 ?_ (.dequeues "worker") taken ?_ dequeued
    · refine meets_append_of (step (site 200)) arrives_careful arrives ?_
      exact meets_of_mem (step (site 200)) (fun state label member => by
        simp only [reading,mem_cons,not_mem_nil,or_false] at member
        rcases member with rfl | rfl | rfl | rfl | rfl <;> trivial) arrived
    · intro work sighting there _
      rw [held] at there
      cases there
      exact ⟨2001,rfl⟩
  · refine (drain_exact (site 200) 0 ∅ 0 arrives).2 (fun _ => false) docs ⟨2,none,none⟩ rfl rfl (by decide) (pass::idle) final
      ?_ ?_ ?_ ran
    · intro segment member
      rcases mem_cons.mp member with rfl | later
      · exact ⟨"worker",[],_,rfl,by simp [reading]⟩
      · exact rounds segment later
    · rw [length_cons,count]
      decide
    · rw [flatten_cons]
      refine meets_append_of (step (site 200)) (meets_of_mem (step (site 200)) (fun state label member => ?_) arrived)
        passed calm
      simp only [pass,reading,mem_cons,mem_append,not_mem_nil,or_false] at member
      rcases member with rfl | ((rfl | rfl | rfl | rfl) | rfl) | rfl <;> trivial

end Depsis.Files.Drain

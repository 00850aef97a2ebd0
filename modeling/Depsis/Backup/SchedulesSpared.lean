import Depsis.Backup.Schedules

/-! What scheduled pruning leaves: whenever each snapshot a replication is still to find is among
those the schedule keeps, every replication finds it, and pruning takes exactly the rest.
-/
namespace Depsis.Backup.Schedules

open Depsis.Foundation List Function Machine

variable {collation : Collation} {schedule : Schedule} {state next : State} {event : Event} {name : String}

theorem newer_total (collation : Collation) (first second : Snapshot) :
    Newer collation first second ∨ Newer collation second first := by
  rcases Int.lt_trichotomy first.createdAt second.createdAt with earlier | level | later
  · exact Or.inr (Or.inl earlier)
  · rcases collation.total second.name first.name with before | after
    · exact Or.inl (Or.inr ⟨level,before⟩)
    · exact Or.inr (Or.inr ⟨level.symm,after⟩)
  · exact Or.inl (Or.inl later)

theorem newer_trans (collation : Collation) {first second third : Snapshot}
    (left : Newer collation first second) (right : Newer collation second third) : Newer collation first third := by
  rcases left with later | ⟨level,before⟩
  · rcases right with later' | ⟨level',_⟩
    · exact Or.inl (Int.lt_trans later' later)
    · exact Or.inl (level' ▸ later)
  · rcases right with later' | ⟨level',before'⟩
    · exact Or.inl (level ▸ later')
    · exact Or.inr ⟨level.trans level',collation.trans _ _ _ before' before⟩

instance (collation : Collation) : Std.Total (Newer collation) := ⟨newer_total collation⟩

instance (collation : Collation) : IsTrans Snapshot (Newer collation) := ⟨fun _ _ _ => newer_trans collation⟩

theorem isMine_snapshotNameFor (cadence : Cadence) (now : Instant) : isMine cadence (snapshotNameFor cadence now) = true := by
  simp [isMine,snapshotNameFor,String.toList_append]

theorem isMine_other {cadence other : Cadence} (own : isMine cadence name = true) (apart : other ≠ cadence) :
    isMine other name = false := by
  rw [Bool.eq_false_iff]
  intro theirs
  have first : (prefixFor cadence).toList <+: name.toList := isPrefixOf_iff_prefix.mp own
  have second : (prefixFor other).toList <+: name.toList := isPrefixOf_iff_prefix.mp theirs
  have crossed := List.prefix_or_prefix_of_prefix first second
  revert crossed apart
  cases cadence <;> cases other <;> decide +kernel

theorem mem_names_add (pool : Pool) (snapshot : Snapshot) (fresh : snapshot.name ∉ pool.names) :
    name ∈ (pool.add snapshot fresh).names ↔ name ∈ pool.names ∨ name = snapshot.name := by
  simp [Pool.add,Pool.names]

theorem mem_names_remove (pool : Pool) (gone : String) : name ∈ (pool.remove gone).names ↔ name ∈ pool.names ∧ name ≠ gone := by
  simp only [Pool.remove,Pool.names,mem_map,mem_filter,decide_eq_true_eq]
  constructor
  · rintro ⟨snapshot,⟨member,apart⟩,rfl⟩
    exact ⟨⟨snapshot,member,rfl⟩,apart⟩
  · rintro ⟨⟨snapshot,member,rfl⟩,apart⟩
    exact ⟨snapshot,⟨member,apart⟩,rfl⟩

theorem nodup_rows (pool : Pool) : pool.rows.Nodup := pool.distinct.of_map _

theorem nodup_mine (pool : Pool) (cadence : Cadence) : (mine cadence pool.rows).Nodup := (nodup_rows pool).filter _

/-! What a step needs, what it takes away and what it is about to destroy. -/

theorem needed_at {tick : Nat} {reached : Tick} (needed : Needed (state.at tick (some reached)) name) :
    Needed state name ∨ reached.Needs name := by
  rcases needed with job | recorded | ⟨id,other,found,needs⟩
  · exact Or.inl (Or.inl job)
  · exact Or.inl (Or.inr (Or.inl recorded))
  · simp only [State.at,update_apply] at found
    split at found
    · cases found
      exact Or.inr needs
    · exact Or.inl (Or.inr (Or.inr ⟨id,other,found,needs⟩))

theorem needed_ended {tick : Nat} (needed : Needed (state.at tick none) name) : Needed state name := by
  rcases needed with job | recorded | ⟨id,other,found,needs⟩
  · exact Or.inl job
  · exact Or.inr (Or.inl recorded)
  · simp only [State.at,update_apply] at found
    obtain ⟨-,found⟩ := of_unless found
    exact Or.inr (Or.inr ⟨id,other,found,needs⟩)

theorem needed_put {id : Nat} {job : Job} (needed : Needed (state.put id job) name) : Needed state name ∨ job.Needs name := by
  rcases needed with ⟨other,found,is,needs⟩ | recorded | tick
  · simp only [State.put,update_apply] at is
    split at is
    · cases is
      exact Or.inr needs
    · exact Or.inl (Or.inl ⟨other,found,is,needs⟩)
  · exact Or.inl (Or.inr (Or.inl recorded))
  · exact Or.inl (Or.inr (Or.inr tick))

theorem needed_recordReplicated {snapshot : Option String} (needed : Needed (state.recordReplicated snapshot) name) :
    Needed state name ∨ snapshot = some name := by
  rcases needed with job | recorded | tick
  · exact Or.inl (Or.inl job)
  · exact Or.inr recorded
  · exact Or.inl (Or.inr (Or.inr tick))

theorem enqueueReplication_names {row : Row} {taken : String} {payload : Payload}
    (enqueued : enqueueReplication schedule row taken = some payload) :
    payload.snapshot = taken ∧ payload.base = row.lastReplicatedSnapshot := by
  unfold enqueueReplication at enqueued
  split at enqueued
  · cases enqueued
    exact ⟨rfl,rfl⟩
  · split at enqueued
    · cases enqueued
      exact ⟨rfl,rfl⟩
    · cases enqueued

section

variable (taken : step collation schedule state event = some next)
include taken

theorem step_needs (needed : Needed next name) :
    Needed state name ∨ (∃ tick now createdAt, event = .takes tick now createdAt ∧ name = snapshotNameFor schedule.cadence now) ∧
      name ∈ next.pool.names := by
  cases event with simp only [step] at taken
  | reads tick settings =>
    split at taken
    · cases taken
      rcases needed_at needed with old | needs
      · exact Or.inl old
      · exact Or.inl (Or.inr (Or.inl needs))
    · cases taken
  | takes tick now createdAt =>
    split at taken
    · next row due =>
      split at taken
      · cases taken
      · next unused =>
        cases taken
        have needed : Needed (state.at tick (some (.taken row (snapshotNameFor schedule.cadence now)))) name := needed
        rcases needed_at needed with old | fresh | base
        · exact Or.inl old
        · exact Or.inr ⟨⟨tick,now,createdAt,rfl,fresh.symm⟩,(mem_names_add state.pool _ unused).mpr (Or.inr fresh.symm)⟩
        · exact Or.inl (Or.inr (Or.inr ⟨tick,_,due,base⟩))
    · cases taken
  | enqueues tick job =>
    split at taken
    · next row own holding =>
      split at taken
      · cases taken
        rcases needed_at needed with old | needs
        · exact Or.inl old
        · exact absurd needs id
      · next payload enqueued _ =>
        cases taken
        obtain ⟨snapshot,base⟩ := enqueueReplication_names enqueued
        rcases needed_put needed with before | ⟨_,sent⟩
        · rcases needed_at before with old | needs
          · exact Or.inl old
          · exact absurd needs id
        · refine Or.inl (Or.inr (Or.inr ⟨tick,_,holding,?_⟩))
          rwa [snapshot,base] at sent
      · cases taken
    · cases taken
  | lists tick answered =>
    split at taken
    · split at taken
      · cases taken
        rcases needed_at needed with old | needs
        · exact Or.inl old
        · exact absurd needs id
      · cases taken
        exact Or.inl (needed_ended needed)
    · cases taken
  | destroys tick gone =>
    split at taken
    · next own doomed pruning =>
      cases taken
      have needed : Needed (state.at tick (some (.pruning doomed))) name := needed
      rcases needed_at needed with old | needs
      · exact Or.inl old
      · exact absurd needs id
    · cases taken
  | ends tick =>
    obtain ⟨_,_,rfl⟩ := Option.map_eq_some_iff.mp taken
    exact Or.inl (needed_ended needed)
  | starts id =>
    split at taken
    · next payload knew found =>
      cases taken
      rcases needed_put needed with old | ⟨_,sent⟩
      · exact Or.inl old
      · exact Or.inl (Or.inl ⟨id,_,found,nofun,sent⟩)
    · cases taken
  | answers id replicated =>
    split at taken
    · next payload knew found =>
      obtain ⟨-,taken⟩ := of_when taken
      cases taken
      rcases needed_put needed with old | ⟨_,sent⟩
      · exact Or.inl old
      · exact Or.inl (Or.inl ⟨id,_,found,nofun,sent⟩)
    · cases taken
  | records id written =>
    split at taken
    · next payload replicated knew found =>
      have ended : Needed (state.put id ⟨payload,.finished,knew⟩) name → Needed state name := by
        intro needed
        rcases needed_put needed with old | ⟨live,_⟩
        · exact old
        · exact absurd rfl live
      cases taken
      split at needed
      · rcases needed_recordReplicated needed with old | recorded
        · exact Or.inl (ended old)
        · obtain ⟨-,recorded⟩ := of_when recorded
          cases recorded
          exact Or.inl (Or.inl ⟨id,_,found,nofun,Or.inl rfl⟩)
      · exact Or.inl (ended needed)
    · cases taken
  | stops id =>
    obtain ⟨job,_,rfl⟩ := Option.map_eq_some_iff.mp taken
    rcases needed_put needed with old | ⟨live,_⟩
    · exact Or.inl old
    · exact absurd rfl live
  | adds snapshot | removes gone =>
    split at taken
    · cases taken
    · cases taken
      exact Or.inl needed

theorem step_pool (there : name ∈ state.pool.names) :
    name ∈ next.pool.names ∨ (∃ tick doomed, state.ticks tick = some (.pruning (name::doomed))) ∨
      isMine schedule.cadence name = false := by
  cases event with simp only [step] at taken
  | takes tick now createdAt =>
    split at taken
    · split at taken
      · cases taken
      · next unused =>
        cases taken
        exact Or.inl ((mem_names_add state.pool _ unused).mpr (Or.inl there))
    · cases taken
  | destroys tick gone =>
    split at taken
    · next own doomed pruning =>
      cases taken
      by_cases same : name = own
      · subst same
        exact Or.inr (Or.inl ⟨tick,doomed,pruning⟩)
      · refine Or.inl ?_
        cases gone
        · exact there
        · exact (mem_names_remove _ _).mpr ⟨there,same⟩
    · cases taken
  | adds snapshot =>
    split at taken
    · cases taken
    · next unused =>
      cases taken
      exact Or.inl ((mem_names_add state.pool _ unused).mpr (Or.inl there))
  | removes gone =>
    obtain ⟨others,taken⟩ := of_unless taken
    cases taken
    by_cases same : name = gone
    · subst same
      exact Or.inr (Or.inr (by simpa using others))
    · exact Or.inl ((mem_names_remove _ _).mpr ⟨there,same⟩)
  | ends tick | stops id =>
    obtain ⟨_,_,rfl⟩ := Option.map_eq_some_iff.mp taken
    exact Or.inl there
  | reads | enqueues | lists | starts | answers =>
    repeat' split at taken
    all_goals
      cases taken
      try exact Or.inl there
  | records id written =>
    split at taken
    · cases taken
      split <;> exact Or.inl there
    · cases taken

theorem step_doomed {tick : Nat} {doomed : List String}
    (pruning : next.ticks tick = some (.pruning doomed)) (member : name ∈ doomed) :
    (∃ before, state.ticks tick = some (.pruning before) ∧ name ∈ before) ∨
      ∃ row, event = .lists tick true ∧ state.ticks tick = some (.enqueued row) ∧
        name ∈ prunable collation state.pool.rows schedule.cadence row.settings.keep := by
  have kept : next.ticks tick = state.ticks tick →
      ∃ before, state.ticks tick = some (.pruning before) ∧ name ∈ before :=
    fun same => ⟨doomed,same ▸ pruning,member⟩
  have moved : ∀ {other : Nat} {phase : Option Tick}, next.ticks = Function.update state.ticks other phase →
      (tick = other ∧ phase = some (.pruning doomed)) ∨ next.ticks tick = state.ticks tick := by
    intro other phase is
    rw [is,update_apply] at pruning ⊢
    split at pruning
    · next same => exact Or.inl ⟨same,pruning⟩
    · next apart => exact Or.inr (if_neg apart)
  cases event with simp only [step] at taken
  | reads own settings =>
    split at taken
    · cases taken
      rcases moved rfl with ⟨_,is⟩ | same
      · cases is
      · exact Or.inl (kept same)
    · cases taken
  | takes own now createdAt =>
    split at taken
    · split at taken
      · cases taken
      · cases taken
        rcases moved rfl with ⟨_,is⟩ | same
        · cases is
        · exact Or.inl (kept same)
    · cases taken
  | enqueues own job =>
    split at taken
    · split at taken
      · cases taken
        rcases moved rfl with ⟨_,is⟩ | same
        · cases is
        · exact Or.inl (kept same)
      · cases taken
        rcases moved rfl with ⟨_,is⟩ | same
        · cases is
        · exact Or.inl (kept same)
      · cases taken
    · cases taken
  | lists own answered =>
    split at taken
    · next row enqueued =>
      cases answered with
      | true =>
        cases taken
        rcases moved rfl with ⟨rfl,is⟩ | same
        · cases is
          exact Or.inr ⟨row,rfl,enqueued,member⟩
        · exact Or.inl (kept same)
      | false =>
        cases taken
        rcases moved rfl with ⟨_,is⟩ | same
        · cases is
        · exact Or.inl (kept same)
    · cases taken
  | destroys own gone =>
    split at taken
    · next first rest before =>
      cases taken
      rcases moved rfl with ⟨rfl,is⟩ | same
      · cases is
        exact Or.inl ⟨_,before,mem_cons_of_mem _ member⟩
      · exact Or.inl (kept same)
    · cases taken
  | ends own =>
    obtain ⟨_,_,rfl⟩ := Option.map_eq_some_iff.mp taken
    rcases moved rfl with ⟨_,is⟩ | same
    · cases is
    · exact Or.inl (kept same)
  | stops id =>
    obtain ⟨_,_,rfl⟩ := Option.map_eq_some_iff.mp taken
    exact Or.inl (kept rfl)
  | records id written =>
    split at taken
    · cases taken
      refine Or.inl (kept ?_)
      split <;> rfl
    · cases taken
  | starts | answers | adds | removes =>
    repeat' split at taken
    all_goals
      cases taken
      try exact Or.inl (kept rfl)

end

theorem mem_prunable {snapshots : List Snapshot} {keep : Nat}
    (doomed : name ∈ prunable collation snapshots schedule.cadence keep) :
    ∃ snapshot ∈ Retention.surplus (Newer collation) keep (mine schedule.cadence snapshots), snapshot.name = name :=
  mem_map.mp doomed

theorem isMine_of_mem_prunable {snapshots : List Snapshot} {keep : Nat}
    (doomed : name ∈ prunable collation snapshots schedule.cadence keep) : isMine schedule.cadence name = true := by
  obtain ⟨snapshot,surplusOne,rfl⟩ := mem_prunable doomed
  exact (mem_filter.mp (Retention.mem_of_mem_surplus _ surplusOne)).2

theorem name_injective (pool : Pool) {first second : Snapshot} (left : first ∈ pool.rows) (right : second ∈ pool.rows)
    (same : first.name = second.name) : first = second := inj_on_of_nodup_map pool.distinct left right same

theorem ahead_of_prunable (pool : Pool) {keep : Nat} {snapshot : Snapshot} (member : snapshot ∈ pool.rows)
    (doomed : snapshot.name ∈ prunable collation pool.rows schedule.cadence keep) :
    keep ≤ Retention.ahead (Newer collation) (mine schedule.cadence pool.rows) snapshot := by
  obtain ⟨other,surplusOne,same⟩ := mem_prunable doomed
  have listed := (mem_filter.mp (Retention.mem_of_mem_surplus _ surplusOne)).1
  rw [name_injective pool member listed same.symm]
  exact Retention.ahead_of_mem_surplus _ (nodup_mine pool schedule.cadence) surplusOne

structure Own (schedule : Schedule) (state : State) : Prop where
  needed : ∀ name, Needed state name → isMine schedule.cadence name = true
  doomed : ∀ tick doomed, state.ticks tick = some (.pruning doomed) → ∀ name ∈ doomed, isMine schedule.cadence name = true

theorem own_first (schedule : Schedule) (pool : Pool) : Own schedule (State.first pool) where
  needed name needed := by
    rcases needed with ⟨_,_,is,_⟩ | is | ⟨_,_,is,_⟩ <;> cases is
  doomed tick doomed is := by cases is

theorem step_own (own : Own schedule state) (taken : step collation schedule state event = some next) : Own schedule next where
  needed name needed := by
    rcases step_needs taken needed with old | ⟨⟨_,now,_,_,rfl⟩,_⟩
    · exact own.needed name old
    · exact isMine_snapshotNameFor schedule.cadence now
  doomed tick doomed pruning name member := by
    rcases step_doomed taken pruning member with ⟨before,was,there⟩ | ⟨row,_,_,listed⟩
    · exact own.doomed tick before was name there
    · exact isMine_of_mem_prunable listed

structure Safe (schedule : Schedule) (state : State) : Prop extends Own schedule state where
  exist : ∀ name, Needed state name → name ∈ state.pool.names
  spared : ∀ tick doomed, state.ticks tick = some (.pruning doomed) → ∀ name ∈ doomed, ¬Needed state name

theorem safe_first (schedule : Schedule) (pool : Pool) : Safe schedule (State.first pool) where
  toOwn := own_first schedule pool
  exist name needed := by
    rcases needed with ⟨_,_,is,_⟩ | is | ⟨_,_,is,_⟩ <;> cases is
  spared tick doomed is := by cases is

theorem step_safe (safe : Safe schedule state) (sparing : Sparing collation schedule state event)
    (taken : step collation schedule state event = some next) : Safe schedule next where
  toOwn := step_own safe.toOwn taken
  exist name needed := by
    rcases step_needs taken needed with old | ⟨_,there⟩
    · rcases step_pool taken (safe.exist name old) with there | ⟨tick,doomed,pruning⟩ | others
      · exact there
      · exact absurd old (safe.spared tick _ pruning name mem_cons_self)
      · rw [safe.needed name old] at others
        cases others
    · exact there
  spared tick doomed pruning name member needed := by
    rcases step_doomed taken pruning member with ⟨before,was,there⟩ | ⟨row,rfl,enqueued,listed⟩
    · rcases step_needs taken needed with old | ⟨⟨_,now,_,rfl,rfl⟩,_⟩
      · exact safe.spared tick before was name there old
      · exact sparing tick before was there
    · rcases step_needs taken needed with old | ⟨⟨_,_,_,is,_⟩,_⟩
      · obtain ⟨snapshot,there,rfl⟩ := mem_map.mp (safe.exist name old)
        exact Nat.lt_irrefl _ (Nat.lt_of_lt_of_le (sparing row enqueued snapshot there old)
          (ahead_of_prunable state.pool there listed))
      · cases is

theorem Safe.present (safe : Safe schedule state) : Present state := by
  refine ⟨fun id job is live => ⟨?_,fun base sent => ?_⟩,fun base recorded => ?_⟩
  · exact safe.exist _ (Or.inl ⟨id,job,is,live,Or.inl rfl⟩)
  · exact safe.exist _ (Or.inl ⟨id,job,is,live,Or.inr sent⟩)
  · exact safe.exist _ (Or.inr (Or.inl recorded))

def Tick.row : Tick → Option Row
  | .due row | .taken row _ | .enqueued row => some row
  | .pruning _ => none

structure Recorded (state : State) : Prop where
  now : state.lastReplicatedSnapshot = state.outcomes.head?.join
  rows : ∀ id tick row, state.ticks id = some tick → tick.row = some row → row.lastReplicatedSnapshot = row.knew.head?.join
  jobs : Incremental state

theorem recorded_first (pool : Pool) : Recorded (State.first pool) := by
  refine ⟨rfl,fun _ _ _ is => ?_,fun _ _ is => ?_⟩ <;> cases is

section

variable (recorded : Recorded state)
include recorded

theorem Recorded.at {id : Nat} {phase : Option Tick}
    (same : ∀ tick row, phase = some tick → tick.row = some row → row.lastReplicatedSnapshot = row.knew.head?.join) :
    Recorded (state.at id phase) where
  now := recorded.now
  rows other tick row is read := by
    simp only [State.at,update_apply] at is
    split at is
    · exact same tick row is read
    · exact recorded.rows other tick row is read
  jobs := recorded.jobs

theorem Recorded.put {id : Nat} {job : Job} (follows : job.payload.base = job.knew.head?.join) :
    Recorded (state.put id job) where
  now := recorded.now
  rows := recorded.rows
  jobs other found is := by
    simp only [State.put,update_apply] at is
    split at is
    · cases is
      exact follows
    · exact recorded.jobs other found is

theorem Recorded.pool (pool : Pool) : Recorded { state with pool := pool } :=
  ⟨recorded.now,recorded.rows,recorded.jobs⟩

theorem step_recorded (taken : step collation schedule state event = some next) : Recorded next := by
  cases event with simp only [step] at taken
  | reads tick settings =>
    split at taken
    · cases taken
      refine recorded.at (fun reached row is read => ?_)
      cases is
      cases read
      exact recorded.now
    · cases taken
  | takes tick now createdAt =>
    split at taken
    · next row due =>
      split at taken
      · cases taken
      · cases taken
        refine (recorded.at (fun reached read is of => ?_)).pool _
        cases is
        exact recorded.rows tick _ read due of
    · cases taken
  | enqueues tick job =>
    split at taken
    · next row own holding =>
      have moved : Recorded (state.at tick (some (.enqueued row))) := by
        refine recorded.at (fun reached read is of => ?_)
        cases is
        exact recorded.rows tick _ read holding of
      split at taken
      · cases taken
        exact moved
      · next payload enqueued _ =>
        cases taken
        refine moved.put ?_
        rw [(enqueueReplication_names enqueued).2]
        exact recorded.rows tick _ row holding rfl
      · cases taken
    · cases taken
  | lists tick answered =>
    split at taken
    · split at taken
      all_goals
        cases taken
        refine recorded.at (fun reached row is read => ?_)
        cases is
        try cases read
    · cases taken
  | destroys tick gone =>
    split at taken
    · cases taken
      refine (recorded.at (fun reached row is read => ?_)).pool _
      cases is
      cases read
    · cases taken
  | ends tick =>
    obtain ⟨_,_,rfl⟩ := Option.map_eq_some_iff.mp taken
    exact recorded.at (fun _ _ is => by cases is)
  | starts id =>
    split at taken
    · next payload knew found =>
      cases taken
      have follows : payload.base = knew.head?.join := recorded.jobs id _ found
      exact recorded.put follows
    · cases taken
  | answers id replicated =>
    split at taken
    · next payload knew found =>
      split at taken
      · cases taken
        have follows : payload.base = knew.head?.join := recorded.jobs id _ found
        exact recorded.put follows
      · cases taken
    · cases taken
  | records id written =>
    split at taken
    · next payload replicated knew found =>
      have follows : payload.base = knew.head?.join := recorded.jobs id _ found
      have ended : Recorded (state.put id ⟨payload,.finished,knew⟩) := recorded.put follows
      cases taken
      split
      · exact ⟨rfl,ended.rows,ended.jobs⟩
      · exact ended
    · cases taken
  | stops id =>
    obtain ⟨job,found,rfl⟩ := Option.map_eq_some_iff.mp taken
    exact recorded.put (recorded.jobs id job found)
  | adds | removes =>
    split at taken
    · cases taken
    · cases taken
      exact recorded.pool _

end

private theorem run_destroys {tick : Nat} {doomed : List String} (pruning : state.ticks tick = some (.pruning doomed)) :
    ∃ after, Machine.run (step collation schedule) state (List.replicate doomed.length (.destroys tick true)) = some after ∧
      after.pool.rows = state.pool.rows.filter (fun snapshot => snapshot.name ∉ doomed) := by
  induction doomed generalizing state with
  | nil => exact ⟨state,rfl,by simp⟩
  | cons first rest ih =>
    have taken : step collation schedule state (.destroys tick true) =
        some { state.at tick (some (.pruning rest)) with pool := state.pool.remove first } := by
      simp [step,pruning]
    obtain ⟨after,ran,rows⟩ := @ih { state.at tick (some (.pruning rest)) with pool := state.pool.remove first }
      (update_self _ _ _)
    refine ⟨after,?_,?_⟩
    · rw [length_cons,replicate_succ,run_cons,taken]
      exact ran
    · rw [rows]
      simp only [Pool.remove,filter_filter]
      refine filter_congr (fun snapshot _ => ?_)
      rw [Bool.eq_iff_iff]
      simp [and_comm]

theorem own_prunes (own : Own schedule state) : PrunesExactly collation schedule state := by
  refine ⟨fun tick doomed pruning name member => ?_,fun tick row enqueued => ⟨fun snapshot member => ?_,?_⟩⟩
  · have marked := own.doomed tick doomed pruning name member
    exact ⟨marked,fun other apart => isMine_other marked apart⟩
  · exact ahead_of_prunable state.pool member
  · generalize named : prunable collation state.pool.rows schedule.cadence row.settings.keep = doomed
    have taken : step collation schedule state (.lists tick true) = some (state.at tick (some (.pruning doomed))) := by
      simp [step,enqueued,named]
    obtain ⟨after,ran,rows⟩ := @run_destroys collation schedule (state.at tick (some (.pruning doomed))) tick doomed
      (update_self _ _ _)
    refine ⟨after,?_,?_,?_⟩
    · rw [run_cons,taken]
      exact ran
    · have left : mine schedule.cadence after.pool.rows = (mine schedule.cadence state.pool.rows).filter
          (fun snapshot => snapshot ∉ Retention.surplus (Newer collation) row.settings.keep (mine schedule.cadence state.pool.rows)) := by
        rw [rows]
        simp only [mine,State.at,filter_filter]
        refine filter_congr (fun snapshot member => ?_)
        rw [Bool.and_comm]
        congr 1
        refine decide_eq_decide.mpr (not_congr ?_)
        rw [← named]
        constructor
        · intro doomed
          obtain ⟨other,surplusOne,same⟩ := mem_prunable doomed
          have listed := (mem_filter.mp (Retention.mem_of_mem_surplus _ surplusOne)).1
          rw [← name_injective state.pool listed member same]
          exact surplusOne
        · exact fun surplusOne => mem_map.mpr ⟨snapshot,surplusOne,rfl⟩
      rw [left]
      exact Retention.length_kept _ (nodup_mine state.pool schedule.cadence)
    · rw [rows]
      simp only [State.at,filter_filter]
      refine filter_congr (fun snapshot _ => ?_)
      cases theirs : isMine schedule.cadence snapshot.name with
      | true => rfl
      | false =>
        have spared : snapshot.name ∉ doomed := by
          intro member
          rw [← named] at member
          rw [isMine_of_mem_prunable member] at theirs
          cases theirs
        simp [spared]

variable {pool : Pool} {events : List Event} {final : State}

/-- Every job sends from the snapshot of the last replication that was recorded, in full only before
the first one or after a failed one, and pruning takes exactly the schedule's own snapshots that are
too many. Where each prune finds what replication still needs among those the schedule keeps,
nothing a replication needs is ever missing. -/
theorem replication_spared (ran : Machine.run (step collation schedule) (State.first pool) events = some final) :
    (Machine.Meets (step collation schedule) (Sparing collation schedule) (State.first pool) events → Present final) ∧
      Incremental final ∧ PrunesExactly collation schedule final := by
  refine ⟨fun sparing => ?_,?_,?_⟩
  · have safe : Safe schedule final := run_invariant (step collation schedule)
      (fun _ _ _ => step_safe) (safe_first schedule pool) sparing ran
    exact safe.present
  · have recorded : Recorded final := run_invariant_always (step collation schedule)
      (fun _ _ _ => step_recorded) (recorded_first pool) ran
    exact recorded.jobs
  · have own : Own schedule final := run_invariant_always (step collation schedule)
      (fun _ _ _ => step_own) (own_first schedule pool) ran
    exact own_prunes own

def codePoints : Collation where
  le first second := decide (first ≤ second)
  total first second := by simpa using String.le_total first second
  trans first second third left right :=
    decide_eq_true (String.le_trans (of_decide_eq_true left) (of_decide_eq_true right))

def nightly : Schedule := ⟨"tank/depsis",.daily⟩

def keeping (keep : Nat) (checked : 1 ≤ keep ∧ keep ≤ 10000) : Settings := ⟨keep,some "tank/kopya",none,none,none,checked⟩

def night (settings : Settings) (day : Nat) : List Event :=
  [.reads 0 settings,.takes 0 ⟨2026,8,day,3,0,0⟩ day,.enqueues 0 day,.lists 0 true]

theorem replication_spared_first : ∃ final,
    Machine.run (step codePoints nightly) (State.first ⟨[],nodup_nil⟩) (night (keeping 2 (by decide)) 1) = some final ∧
      Present final ∧ Incremental final ∧ PrunesExactly codePoints nightly final := by
  have ends : (Machine.run (step codePoints nightly) (State.first ⟨[],nodup_nil⟩)
    (night (keeping 2 (by decide)) 1)).isSome = true := by decide +kernel
  obtain ⟨final,ran⟩ := Option.isSome_iff_exists.mp ends
  obtain ⟨present,rest⟩ := replication_spared ran
  refine ⟨final,ran,present ⟨trivial,?_,trivial,?_,trivial⟩,rest⟩
  · intro tick doomed pruning
    simp only [State.at,State.first,update_apply] at pruning
    split at pruning <;> cases pruning
  · intro row enqueued snapshot member needed
    cases enqueued
    exact Nat.lt_of_le_of_lt (length_filter_le _ _) (by decide +kernel)

def sent (job : Nat) (replicated : Bool) : List Event := [.ends 0,.starts job,.answers job replicated,.records job true]

/-- A schedule that keeps one snapshot destroys the base of the job it has just enqueued; and with any
number kept, the send after a failed one is full although an earlier one had succeeded. -/
theorem replication_not_spared :
    (∃ final, Machine.run (step codePoints nightly) (State.first ⟨[],nodup_nil⟩)
        (night (keeping 1 (by decide)) 1++sent 1 true++night (keeping 1 (by decide)) 2++[.destroys 0 true]) = some final ∧
      ¬Present final) ∧
    ∃ final, Machine.run (step codePoints nightly) (State.first ⟨[],nodup_nil⟩)
        (night (keeping 30 (by decide)) 1++sent 1 true++night (keeping 30 (by decide)) 2++sent 2 false++
          night (keeping 30 (by decide)) 3++sent 3 true) = some final ∧
      final.outcomes = [some "depsis-daily-20260803T030000Z",none,some "depsis-daily-20260801T030000Z"] ∧
      ∃ job, final.jobs 3 = some job ∧ job.payload.snapshot = "depsis-daily-20260803T030000Z" ∧ job.payload.base = none := by
  constructor
  · have starved : (Machine.run (step codePoints nightly) (State.first ⟨[],nodup_nil⟩)
        (night (keeping 1 (by decide)) 1++sent 1 true++night (keeping 1 (by decide)) 2++[.destroys 0 true])).any
        (fun final => (final.jobs 2).any (fun job => decide (job.progress ≠ .finished) &&
          job.payload.base.any (fun base => decide (base ∉ final.pool.names)))) = true := by decide +kernel
    obtain ⟨final,ran,broken⟩ := (Option.any_eq_true _ _).mp starved
    obtain ⟨job,found,broken⟩ := (Option.any_eq_true _ _).mp broken
    obtain ⟨live,broken⟩ := (Bool.and_eq_true _ _).mp broken
    obtain ⟨base,sends,absent⟩ := (Option.any_eq_true _ _).mp broken
    refine ⟨final,ran,fun present => ?_⟩
    exact of_decide_eq_true absent ((present.1 2 job found (of_decide_eq_true live)).2 base sends)
  · have full : (Machine.run (step codePoints nightly) (State.first ⟨[],nodup_nil⟩)
        (night (keeping 30 (by decide)) 1++sent 1 true++night (keeping 30 (by decide)) 2++sent 2 false++
          night (keeping 30 (by decide)) 3++sent 3 true)).any (fun final =>
        decide (final.outcomes = [some "depsis-daily-20260803T030000Z",none,some "depsis-daily-20260801T030000Z"]) &&
          (final.jobs 3).any (fun job => decide (job.payload.snapshot = "depsis-daily-20260803T030000Z") &&
            decide (job.payload.base = none))) = true := by decide +kernel
    obtain ⟨final,ran,sends⟩ := (Option.any_eq_true _ _).mp full
    obtain ⟨outcomes,sends⟩ := (Bool.and_eq_true _ _).mp sends
    obtain ⟨job,found,sends⟩ := (Option.any_eq_true _ _).mp sends
    obtain ⟨snapshot,base⟩ := (Bool.and_eq_true _ _).mp sends
    exact ⟨final,ran,of_decide_eq_true outcomes,job,found,of_decide_eq_true snapshot,of_decide_eq_true base⟩

end Depsis.Backup.Schedules

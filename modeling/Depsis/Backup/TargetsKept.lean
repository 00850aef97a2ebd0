import Depsis.Backup.Targets

/-! A recorded base belongs to the disk in use, as long as a disk is prepared only while no base is recorded
and the row there is, if any, is one that runs write to.
-/
namespace Depsis.Backup.Targets

open Depsis.Foundation List AList Option Function Bool

variable {state next final : State} {event : Event} {row : BackupTargetRow} {share path pool label : String} {version today : Nat}
variable {base live : Files} {disk : Disk} {turn : Turn} {turns : List Turn} {mounted : Bool}

def Event.spares (state : State) : Event → Bool
  | .prepares _ _ accepted => !accepted || state.bases.entries.isEmpty && state.row.all (fun row => row.enabled && !row.recoveryOnly)
  | _ => true

/-- The files of a base are on the disk of the row, but for those an unfinished run has found changed since. -/
def State.Placed (state : State) (row : BackupTargetRow) (share : String) (base : Files) : Prop :=
  ∀ path version, base path = some version → (state.disks row.pool).files share path = some version ∨
    state.replaced share path = true ∧ state.live share path ≠ some version

structure Kept (state : State) : Prop where
  placed : ∀ share base, state.bases.lookup share = some base →
    ∃ row, state.row = some row ∧ row.recoveryOnly = false ∧ state.Placed row share base
  recorded : ∀ share base path version, state.bases.lookup share = some base → base path = some version → version < state.clock
  current : ∀ share path version, state.live share path = some version → version < state.clock

theorem bring_elsewhere (base : Option Files) (other : share ≠ turn.share) :
    (disk.bring base live today turn).files share = disk.files share := by
  ext path
  simp [Disk.bring,other]

theorem bring_live (base : Option Files) (handled : turn.handles path = true) (there : live path = some version)
    (same : changes base live path = false → disk.files turn.share path = some version) :
    (disk.bring base live today turn).files turn.share path = some version := by
  simp only [Disk.bring,handled,Bool.and_true,decide_true,Bool.true_and,there]
  split
  next => rfl
  next unchanged => exact same (by simpa using unchanged)

theorem bring_unhandled (base : Option Files) (idle : (turn.handles path && changes base live path) = false) :
    (disk.bring base live today turn).files share path = disk.files share path := by
  simp only [Disk.bring,Bool.and_assoc,idle,Bool.and_false,Bool.false_eq_true,if_false]

theorem runShare_row (state : State) (pool : String) (today : Nat) (turn : Turn) :
    (state.runShare pool today turn).row = state.row ∧ (state.runShare pool today turn).live = state.live ∧
      (state.runShare pool today turn).clock = state.clock := by
  unfold State.runShare
  simp only []
  split <;> exact ⟨rfl,rfl,rfl⟩

theorem runShare_disks (state : State) (pool : String) (today : Nat) (turn : Turn) : (state.runShare pool today turn).disks =
    Function.update state.disks pool ((state.disks pool).bring (state.bases.lookup turn.share) (state.live turn.share) today turn) := by
  unfold State.runShare
  simp only []
  split <;> rfl

theorem runShare_elsewhere (state : State) (pool : String) (today : Nat) (other : share ≠ turn.share) :
    (state.runShare pool today turn).bases.lookup share = state.bases.lookup share ∧
      (state.runShare pool today turn).replaced share = state.replaced share := by
  unfold State.runShare
  simp only []
  split
  next => exact ⟨lookup_insert_ne other,update_of_ne other _ _⟩
  next => exact ⟨rfl,update_of_ne other _ _⟩
  next => exact ⟨lookup_erase_ne other,rfl⟩

theorem Kept.elsewhere (kept : Kept state) (stored : state.row = some row) (other : share ≠ turn.share)
    (found : (state.runShare row.pool today turn).bases.lookup share = some base) :
    (state.runShare row.pool today turn).Placed row share base := by
  obtain ⟨bases,replaced⟩ := @runShare_elsewhere share turn state row.pool today other
  obtain ⟨sameRow,there,-,placed⟩ := kept.placed share base (bases.symm.trans found)
  cases stored.symm.trans there
  intro path version recorded
  rw [runShare_disks,update_self,bring_elsewhere _ other,(runShare_row state row.pool today turn).2.1,replaced]
  exact placed path version recorded

theorem Kept.here (kept : Kept state) (stored : state.row = some row)
    (found : (state.runShare row.pool today turn).bases.lookup turn.share = some base) :
    (state.runShare row.pool today turn).Placed row turn.share base := by
  have placed : ∀ before, state.bases.lookup turn.share = some before → state.Placed row turn.share before := by
    intro before recorded
    obtain ⟨sameRow,there,-,placed⟩ := kept.placed turn.share before recorded
    cases stored.symm.trans there
    exact placed
  intro path version recorded
  rw [runShare_disks,update_self,(runShare_row state row.pool today turn).2.1]
  cases ending : turn.ending with
  | completes =>
    simp only [State.runShare,ending] at found
    cases (lookup_insert _).symm.trans found
    refine .inl (bring_live _ (by simp [Turn.handles,ending]) recorded (fun same => ?_))
    cases before : state.bases.lookup turn.share with
    | none =>
      rw [before] at same
      simp [changes,recorded] at same
    | some older =>
      rw [before] at same
      have equal : older path = state.live turn.share path := by simpa [changes] using same
      rcases placed older before path version (equal.trans recorded) with there | ⟨-,gone⟩
      · exact there
      · exact absurd recorded gone
  | stops =>
    have unfolded : (state.runShare row.pool today turn).replaced turn.share path = (state.replaced turn.share path ||
        turn.handles path && changes (state.bases.lookup turn.share) (state.live turn.share) path) := by
      simp [State.runShare,ending]
    simp only [State.runShare,ending] at found
    rw [unfolded]
    cases idle : turn.handles path && changes (state.bases.lookup turn.share) (state.live turn.share) path with
    | false =>
      rw [bring_unhandled _ idle,Bool.or_false]
      exact placed base found path version recorded
    | true =>
      refine .inr ⟨or_true _,fun same => ?_⟩
      have differs := (and_eq_true_iff.mp idle).2
      simp [found,changes,recorded,same] at differs
  | drops =>
    simp only [State.runShare,ending] at found
    cases (lookup_erase _ _).symm.trans found

theorem Kept.runShare (kept : Kept state) (stored : state.row = some row) (writable : row.recoveryOnly = false) (today : Nat) (turn : Turn) :
    Kept (state.runShare row.pool today turn) := by
  obtain ⟨sameRow,sameLive,sameClock⟩ := runShare_row state row.pool today turn
  refine ⟨fun share base found => ?_,fun share base path version found recorded => ?_,fun share path version there => ?_⟩
  · refine ⟨row,sameRow.trans stored,writable,?_⟩
    by_cases here : share = turn.share
    · subst here
      exact kept.here stored found
    · exact kept.elsewhere stored here found
  · rw [sameClock]
    by_cases here : share = turn.share
    · subst here
      unfold State.runShare at found
      simp only [] at found
      split at found
      next =>
        cases (lookup_insert _).symm.trans found
        exact kept.current _ path version recorded
      next => exact kept.recorded _ base path version found recorded
      next => cases (lookup_erase _ _).symm.trans found
    · exact kept.recorded share base path version ((runShare_elsewhere state row.pool today here).1.symm.trans found) recorded
  · rw [sameClock]
    rw [sameLive] at there
    exact kept.current share path version there

theorem runnable_some (ready : state.runnable mounted = some row) : state.row = some row ∧ row.recoveryOnly = false := by
  obtain ⟨stored,passes⟩ := filter_eq_some_iff.mp ready
  exact ⟨stored,by simpa using (and_eq_true_iff.mp passes).2⟩

theorem Kept.runShares (kept : Kept state) (stored : state.row = some row) (writable : row.recoveryOnly = false) (today : Nat) :
    ∀ turns : List Turn, Kept (turns.foldl (fun reached turn => reached.runShare row.pool today turn) state) ∧
      (turns.foldl (fun reached turn => reached.runShare row.pool today turn) state).row = some row ∧
      (turns.foldl (fun reached turn => reached.runShare row.pool today turn) state).live = state.live := by
  intro turns
  induction turns generalizing state with
  | nil => exact ⟨kept,stored,rfl⟩
  | cons turn rest ih =>
    obtain ⟨sameRow,sameLive,-⟩ := runShare_row state row.pool today turn
    obtain ⟨after,rowed,lived⟩ := ih (kept.runShare stored writable today turn) (sameRow.trans stored)
    exact ⟨after,rowed,lived.trans sameLive⟩

theorem Kept.runOnce (kept : Kept state) (mounted : Bool) (today : Nat) (turns : List Turn) : Kept (state.runOnce mounted today turns) := by
  unfold State.runOnce
  split
  next => exact kept
  next row ready =>
    obtain ⟨stored,writable⟩ := runnable_some ready
    exact (kept.runShares stored writable today turns).1

theorem turns_recorded (state : State) (pool : String) (today : Nat) : ∀ turns : List Turn, (∀ turn ∈ turns, turn.ending = .completes) →
    ∀ share ∈ turns.map Turn.share,
      (turns.foldl (fun reached turn => reached.runShare pool today turn) state).bases.lookup share = some (state.live share) := by
  have stays : ∀ (turns : List Turn) (state : State) share, (∀ turn ∈ turns, turn.ending = .completes) →
      state.bases.lookup share = some (state.live share) →
      (turns.foldl (fun reached turn => reached.runShare pool today turn) state).bases.lookup share = some (state.live share) := by
    intro turns
    induction turns with
    | nil => exact fun _ _ _ recorded => recorded
    | cons turn rest ih =>
      intro state share completed recorded
      have ending := completed turn mem_cons_self
      have sameLive := (runShare_row state pool today turn).2.1
      rw [foldl_cons,← sameLive]
      apply ih
      · exact fun other member => completed other (mem_cons_of_mem _ member)
      · rw [sameLive]
        simp only [State.runShare,ending,lookup_insert_eq]
        split
        next here => rw [here]
        next => exact recorded
  intro turns completed share member
  induction turns generalizing state with
  | nil => cases member
  | cons turn rest ih =>
    have ending := completed turn mem_cons_self
    have later : ∀ other ∈ rest, other.ending = .completes := fun other inside => completed other (mem_cons_of_mem _ inside)
    have sameLive := (runShare_row state pool today turn).2.1
    rw [foldl_cons,← sameLive]
    rcases mem_cons.mp member with rfl | inside
    · apply stays rest _ _ later
      rw [sameLive]
      simp [State.runShare,ending]
    · exact ih _ later inside

section

variable (kept : Kept state)
include kept

theorem Kept.unrecorded {disks : String → Disk} {changed : Option BackupTargetRow}
    (none : ∀ share, state.bases.lookup share = none) : Kept { state with row := changed, disks := disks } := by
  refine ⟨fun share base found => ?_,kept.recorded,kept.current⟩
  cases (none share).symm.trans found

theorem Kept.none (idle : ∀ row, state.row = some row → row.recoveryOnly = true) (share : String) :
    state.bases.lookup share = none := by
  cases found : state.bases.lookup share with
  | none => rfl
  | some base =>
    obtain ⟨row,stored,writable,-⟩ := kept.placed share base found
    cases writable.symm.trans (idle row stored)

theorem Kept.prepare {accepted : Bool} (spared : (Event.prepares pool label accepted).spares state = true) :
    Kept (state.prepare pool label accepted) := by
  unfold State.prepare
  split
  next => exact kept
  next taken =>
    have empty : state.bases.entries = [] := by
      have accepted : accepted = true := by simpa using taken
      simp only [Event.spares,accepted,Bool.not_true,Bool.false_or,Bool.and_eq_true] at spared
      exact isEmpty_iff.mp spared.1
    have same : state.bases = ∅ := AList.ext empty
    exact kept.unrecorded (fun share => by rw [same]; rfl)

theorem Kept.adopt (pool label : String) (deviceId : Option String) (imported : Bool) :
    Kept (state.adopt pool label deviceId imported) := by
  unfold State.adopt
  split
  next => exact kept
  next free =>
    refine kept.unrecorded (kept.none (fun row stored => ?_))
    simp [stored] at free

theorem Kept.claim (opened : Bool) : Kept (state.claim opened) := by
  unfold State.claim
  split
  next => exact kept
  next row stored =>
    split
    next => exact kept
    next recovery =>
      refine kept.unrecorded (kept.none (fun other there => ?_))
      cases stored.symm.trans there
      cases only : row.recoveryOnly with
      | true => rfl
      | false => simp [only] at recovery

theorem Kept.release (exported : Bool) : Kept (state.release exported) := by
  unfold State.release
  split
  next => exact kept
  next row stored =>
    split
    next => exact kept
    next recovery =>
      refine kept.unrecorded (kept.none (fun other there => ?_))
      cases stored.symm.trans there
      cases only : row.recoveryOnly with
      | true => rfl
      | false => simp [only] at recovery

theorem Kept.update (cadenceHours retainDays : Option Nat) (text : Option String) (enabled : Option Bool) :
    Kept (state.update cadenceHours retainDays text enabled) := by
  unfold State.update
  split
  next => exact kept
  next row stored =>
    split
    next => exact kept
    next =>
      split
      next => exact kept
      next =>
        refine ⟨fun share base found => ?_,kept.recorded,kept.current⟩
        obtain ⟨sameRow,there,writable,placed⟩ := kept.placed share base found
        cases stored.symm.trans there
        exact ⟨_,rfl,writable,placed⟩

theorem Kept.purge (mounted : Bool) (today : Nat) : Kept (state.purgeExpired mounted today) := by
  unfold State.purgeExpired
  split
  next => exact kept
  next row ready =>
    refine ⟨fun share base found => ?_,kept.recorded,kept.current⟩
    obtain ⟨sameRow,there,writable,placed⟩ := kept.placed share base found
    refine ⟨sameRow,there,writable,fun path version recorded => ?_⟩
    have files : ((Function.update state.disks row.pool ((state.disks row.pool).purge (today - row.retainDays))) sameRow.pool).files =
        (state.disks sameRow.pool).files := by
      by_cases same : sameRow.pool = row.pool
      · rw [same,update_self]
        rfl
      · rw [update_of_ne same]
    have before := placed path version recorded
    rw [← files] at before
    exact before

theorem Kept.changed (share path : String) (given : Option Nat) (fresh : ∀ version, given = some version → version = state.clock) :
    Kept (state.changed share path given) := by
  refine ⟨fun other base found => ?_,fun other base file version found recorded => ?_,fun other file version there => ?_⟩
  · obtain ⟨row,stored,writable,placed⟩ := kept.placed other base found
    refine ⟨row,stored,writable,fun file version recorded => ?_⟩
    rcases placed file version recorded with there | ⟨gone,differs⟩
    · exact .inl there
    · refine .inr ⟨gone,fun same => ?_⟩
      have less := kept.recorded other base file version found recorded
      by_cases here : other = share
      · subst here
        by_cases itself : file = path
        · subst itself
          simp only [State.changed,update_self] at same
          have newest := fresh version same
          omega
        · simp only [State.changed,update_self,update_of_ne itself] at same
          exact differs same
      · simp only [State.changed,update_of_ne here] at same
        exact differs same
  · exact Nat.lt_succ_of_lt (kept.recorded other base file version found recorded)
  · by_cases here : other = share
    · subst here
      by_cases itself : file = path
      · subst itself
        simp only [State.changed,update_self] at there
        rw [fresh version there]
        exact Nat.lt_succ_self _
      · simp only [State.changed,update_self,update_of_ne itself] at there
        exact Nat.lt_succ_of_lt (kept.current other file version there)
    · simp only [State.changed,update_of_ne here] at there
      exact Nat.lt_succ_of_lt (kept.current other file version there)

theorem step_kept (spared : event.spares state = true) (taken : step state event = some next) : Kept next := by
  cases event with
  | prepares pool label accepted =>
    cases taken
    exact kept.prepare spared
  | adopts pool label deviceId imported =>
    cases taken
    exact kept.adopt pool label deviceId imported
  | claims opened =>
    cases taken
    exact kept.claim opened
  | releases exported =>
    cases taken
    exact kept.release exported
  | updates cadenceHours retainDays label enabled =>
    cases taken
    exact kept.update cadenceHours retainDays label enabled
  | runs mounted today turns =>
    cases taken
    exact kept.runOnce mounted today turns
  | purges mounted today =>
    cases taken
    exact kept.purge mounted today
  | writes share path =>
    cases taken
    exact kept.changed share path _ (fun version same => (Option.some.inj same).symm)
  | deletes share path =>
    cases taken
    exact kept.changed share path _ nofun

end

theorem kept_first (disks : String → Disk) : Kept (State.first disks) :=
  ⟨nofun,nofun,nofun⟩

def everything (share : String) : Turn := ⟨share,fun _ => true,.completes⟩

end Depsis.Backup.Targets

import Depsis.Backup.RunSnapshots

/-! What becomes of snapshots: nothing but run snapshots is ever destroyed, and where runs do
not meet on a dataset every recorded base exists and little else is left over.
-/
namespace Depsis.Backup.RunSnapshots

open Depsis.Foundation List Option Function Machine

variable {catalog : Catalog} {state next : State} {event : Event} {run : String}

theorem isRunSnapshot_runSnapshot (now : Nat) : isRunSnapshot (runSnapshot now) = true := by
  simp [isRunSnapshot,runSnapshot,String.toList_append]

section

variable (phase : Option Phase)
include phase

@[simp] theorem at_runs (state : State) (run : String) :
    (state.at run phase).runs = Function.update state.runs run phase := rfl

@[simp] theorem at_snapshots (state : State) (run : String) :
    (state.at run phase).snapshots = state.snapshots := rfl

@[simp] theorem at_bases (state : State) (run : String) :
    (state.at run phase).bases = state.bases := rfl

@[simp] theorem at_spared (state : State) (run : String) :
    (state.at run phase).spared = state.spared := rfl

end

@[simp] theorem spare_runs (state : State) (dataset : String) (names : Finset String) :
    (state.spare dataset names).runs = state.runs := rfl

@[simp] theorem spare_snapshots (state : State) (dataset : String) (names : Finset String) :
    (state.spare dataset names).snapshots = state.snapshots := rfl

@[simp] theorem spare_bases (state : State) (dataset : String) (names : Finset String) :
    (state.spare dataset names).bases = state.bases := rfl

@[simp] theorem take_runs (state : State) (dataset snapshot : String) : (state.take dataset snapshot).runs = state.runs := rfl

theorem take_snapshots (state : State) (dataset snapshot : String) :
    (state.take dataset snapshot).snapshots dataset = insert snapshot (state.snapshots dataset) := update_self _ _ _

variable {dataset : String} {phase : Option Phase} {turn : Turn}

theorem take_other (state : State) {other : String} (snapshot : String) (apart : other ≠ dataset) :
    (state.take dataset snapshot).snapshots other = state.snapshots other := update_of_ne apart _ _

theorem take_subset (state : State) (dataset snapshot other : String) :
    state.snapshots other ⊆ (state.take dataset snapshot).snapshots other := by
  by_cases same : other = dataset
  · rw [same,take_snapshots]
    exact Finset.subset_insert _ _
  · rw [take_other state snapshot same]

@[simp] theorem setBase_runs (state : State) (shareId : String) (snapshot : Option String) :
    (state.setBase shareId snapshot).runs = state.runs := rfl

theorem spare_spared (state : State) (dataset : String) (names : Finset String) :
    (state.spare dataset names).spared dataset = state.spared dataset ∪ names := update_self _ _ _

theorem spare_other (state : State) {other : String} (names : Finset String) (apart : other ≠ dataset) :
    (state.spare dataset names).spared other = state.spared other := update_of_ne apart _ _

@[simp] theorem destroy_runs (state : State) (dataset snapshot : String) (gone : Bool) :
    (state.destroy dataset snapshot gone).runs = state.runs := by
  cases gone <;> rfl

@[simp] theorem destroy_bases (state : State) (dataset snapshot : String) (gone : Bool) :
    (state.destroy dataset snapshot gone).bases = state.bases := by
  cases gone <;> rfl

theorem destroy_keeps (state : State) (dataset snapshot : String) (gone : Bool) {other name : String}
    (member : name ∈ state.snapshots other) (apart : other = dataset → name ≠ snapshot) :
    name ∈ (state.destroy dataset snapshot gone).snapshots other := by
  cases gone with
  | false => exact member
  | true =>
    simp only [State.destroy,if_true]
    by_cases same : other = dataset
    · rw [same,update_self]
      exact Finset.mem_erase.mpr ⟨apart same,same ▸ member⟩
    · rwa [update_of_ne same]

theorem destroy_subset (state : State) (dataset snapshot : String) (gone : Bool) (other : String) :
    (state.destroy dataset snapshot gone).snapshots other ⊆ state.snapshots other := by
  cases gone with
  | false => exact fun _ member => member
  | true =>
    simp only [State.destroy,if_true]
    by_cases same : other = dataset
    · rw [same,update_self]
      exact Finset.erase_subset _ _
    · rw [update_of_ne same]

theorem destroy_settled (state : State) (dataset snapshot : String) (gone : Bool) :
    snapshot ∉ (state.destroy dataset snapshot gone).snapshots dataset ∨
      snapshot ∈ (state.destroy dataset snapshot gone).spared dataset := by
  cases gone with
  | false =>
    right
    change snapshot ∈ (state.spare dataset { snapshot }).spared dataset
    rw [spare_spared]
    exact Finset.mem_union_right _ (Finset.mem_singleton_self _)
  | true =>
    left
    simp [State.destroy]

theorem destroy_spares (state : State) (dataset snapshot : String) (gone : Bool) (other : String) :
    state.spared other ⊆ (state.destroy dataset snapshot gone).spared other := by
  cases gone with
  | true => exact fun _ member => member
  | false =>
    change state.spared other ⊆ (state.spare dataset { snapshot }).spared other
    by_cases same : other = dataset
    · rw [same,spare_spared]
      exact Finset.subset_union_left
    · rw [spare_other state _ same]

theorem destroy_elsewhere (state : State) (dataset snapshot : String) (gone : Bool) {other : String} (apart : other ≠ dataset) :
    (state.destroy dataset snapshot gone).snapshots other = state.snapshots other ∧
      (state.destroy dataset snapshot gone).spared other = state.spared other := by
  cases gone with
  | true => exact ⟨update_of_ne apart _ _,rfl⟩
  | false => exact ⟨rfl,spare_other state _ apart⟩

def Marked : Phase → Prop
  | .between _ => True
  | .sweeping turn _ todo => isRunSnapshot turn.snapshot = true ∧ ∀ name ∈ todo, isRunSnapshot name = true
  | .created turn | .based turn _ | .listed turn _ _ | .recording turn | .dropping turn | .undoing turn =>
    isRunSnapshot turn.snapshot = true

theorem Marked.own {phase : Phase} (marked : Marked phase) (is : phase.turn = some turn) :
    isRunSnapshot turn.snapshot = true := by
  cases phase <;> cases is
  case sweeping => exact marked.1
  all_goals exact marked

def AllMarked (state : State) : Prop := ∀ run phase, state.runs run = some phase → Marked phase

theorem AllMarked.moved (marked : AllMarked state)
    (runs : next.runs = Function.update state.runs run phase) (reached : ∀ is, phase = some is → Marked is) : AllMarked next := by
  intro other is held
  rw [runs] at held
  by_cases same : other = run
  · rw [same,update_self] at held
    exact reached is held
  · rw [update_of_ne same] at held
    exact marked other is held

theorem step_marked (marked : AllMarked state) (taken : step catalog state event = some next) :
    AllMarked next ∧ ∀ dataset name, isRunSnapshot name = false → name ∈ state.snapshots dataset →
      name ∈ next.snapshots dataset := by
  have leaves {next : State} {run : String} {phase : Option Phase} (runs : next.runs = Function.update state.runs run phase)
      (snapshots : next.snapshots = state.snapshots) (reached : ∀ is, phase = some is → Marked is) :
      AllMarked next ∧ ∀ dataset name, isRunSnapshot name = false → name ∈ state.snapshots dataset → name ∈ next.snapshots dataset :=
    ⟨marked.moved runs reached,fun _ _ _ member => snapshots ▸ member⟩
  have onto {next : State} {run : String} {is : Phase} (runs : next.runs = Function.update state.runs run (some is))
      (snapshots : next.snapshots = state.snapshots) (reached : Marked is) :
      AllMarked next ∧ ∀ dataset name, isRunSnapshot name = false → name ∈ state.snapshots dataset → name ∈ next.snapshots dataset :=
    leaves runs snapshots (fun _ same => Option.some.inj same ▸ reached)
  have destroys {run dataset snapshot : String} {is : Phase} {gone : Bool} (own : isRunSnapshot snapshot = true)
      (reached : Marked is) : AllMarked ((state.at run (some is)).destroy dataset snapshot gone) ∧
        ∀ other name, isRunSnapshot name = false → name ∈ state.snapshots other →
          name ∈ ((state.at run (some is)).destroy dataset snapshot gone).snapshots other := by
    refine ⟨marked.moved (destroy_runs _ _ _ _) (fun _ same => Option.some.inj same ▸ reached),fun other name plain member => ?_⟩
    refine destroy_keeps _ _ _ _ member (fun _ same => ?_)
    rw [same,own] at plain
    cases plain
  cases event with simp only [step] at taken
  | starts run =>
    split at taken <;> cases taken
    exact onto rfl rfl trivial
  | creates run now made =>
    split at taken
    next share rest held =>
      split at taken
      next =>
        cases taken
        exact onto rfl rfl trivial
      next =>
        obtain ⟨-,taken⟩ := ite_none_left_eq_some.mp taken
        cases taken
        refine ⟨marked.moved rfl (fun _ same => by cases same; exact isRunSnapshot_runSnapshot now),?_⟩
        exact fun dataset name _ member => take_subset _ _ _ _ member
    next => cases taken
  | reads run =>
    split at taken <;> cases taken
    next held => exact onto rfl rfl ((marked run _ held).own rfl)
  | lists run names =>
    split at taken
    next held =>
      cases taken
      exact onto rfl rfl ⟨(marked run _ held).own rfl,nofun⟩
    next held =>
      split at taken <;> cases taken
      exact onto rfl rfl ((marked run _ held).own rfl)
    next => cases taken
  | protects run =>
    split at taken <;> cases taken
    next held =>
      refine onto rfl rfl ⟨(marked run _ held).own rfl,fun name member => ?_⟩
      simp only [mem_filter,Bool.and_eq_true] at member
      exact member.2.1
  | destroys run gone =>
    split at taken <;> cases taken
    next name todo held =>
      obtain ⟨own,each⟩ := marked run _ held
      exact destroys (each name mem_cons_self) ⟨own,fun other member => each other (mem_cons_of_mem _ member)⟩
  | works run outcome =>
    split at taken
    next held => split at taken <;> cases taken <;> exact onto rfl rfl ((marked run _ held).own rfl)
    next => cases taken
  | records run =>
    split at taken <;> cases taken
    exact onto rfl rfl trivial
  | drops run =>
    split at taken <;> cases taken
    next held => exact onto rfl rfl ((marked run _ held).own rfl)
  | undoes run gone =>
    split at taken <;> cases taken
    next held => exact destroys ((marked run _ held).own rfl) trivial
  | throws run =>
    split at taken
    next => cases taken
    next => cases taken
    next => cases taken
    next =>
      cases taken
      exact onto rfl rfl trivial
    all_goals next held => cases taken; exact onto rfl rfl ((marked run _ held).own rfl)
  | ends run =>
    split at taken <;> cases taken
    exact leaves rfl rfl nofun
  | stops run =>
    obtain ⟨phase,-,rfl⟩ := map_eq_some_iff.mp taken
    split
    all_goals next => exact leaves rfl rfl nofun

def Roomy (state : State) (dataset : String) (bound : Nat) (these : Finset String) : Prop :=
  ∃ names : Finset String, names.card ≤ bound ∧ ∀ name ∈ state.snapshots dataset, isRunSnapshot name = true →
    name ∈ state.spared dataset ∨ name ∈ these ∨ name ∈ names

theorem Roomy.mono {bound larger : Nat} {these those : Finset String} (roomy : Roomy state dataset bound these)
    (snapshots : next.snapshots dataset ⊆ state.snapshots dataset) (spared : state.spared dataset ⊆ next.spared dataset)
    (less : bound ≤ larger) (among : ∀ name ∈ next.snapshots dataset, name ∈ these → name ∈ those ∨ name ∈ next.spared dataset) :
    Roomy next dataset larger those := by
  obtain ⟨names,small,each⟩ := roomy
  refine ⟨names,small.trans less,fun name member marked => ?_⟩
  rcases each name (snapshots member) marked with out | this | inside
  · exact .inl (spared out)
  · rcases among name member this with that | out
    · exact .inr (.inl that)
    · exact .inl out
  · exact .inr (.inr inside)

variable (catalog) in
structure Own (state : State) (turn : Turn) : Prop where
  listed : turn.share ∈ catalog.rows
  there : turn.snapshot ∈ state.snapshots turn.share.dataset
  unrecorded : ∀ share ∈ catalog.rows, share.dataset = turn.share.dataset → state.bases share.id ≠ some turn.snapshot

variable (catalog) in
def room (dataset : String) : Nat := (sharesOf catalog dataset).length

variable (catalog) in
def InSection (state : State) : Phase → Prop
  | .between _ => True
  | .created turn | .based turn _ | .undoing turn =>
    Own catalog state turn ∧ Roomy state turn.share.dataset (room catalog turn.share.dataset + 1) { turn.snapshot }
  | .listed turn _ names =>
    Own catalog state turn ∧ Roomy state turn.share.dataset (room catalog turn.share.dataset + 1) { turn.snapshot } ∧
      ∀ name ∈ state.snapshots turn.share.dataset, name ∈ names
  | .sweeping turn _ todo =>
    Own catalog state turn ∧ Roomy state turn.share.dataset (room catalog turn.share.dataset + 1) { turn.snapshot } ∧
      Roomy state turn.share.dataset (room catalog turn.share.dataset) (insert turn.snapshot todo.toFinset) ∧
      ∀ name ∈ todo, name ≠ turn.snapshot ∧
        ∀ share ∈ catalog.rows, share.dataset = turn.share.dataset → state.bases share.id ≠ some name
  | .recording turn | .dropping turn =>
    Own catalog state turn ∧ Roomy state turn.share.dataset (room catalog turn.share.dataset) { turn.snapshot }

def Phase.rest : Phase → List ShareRow
  | .between rest => rest
  | .created turn | .based turn _ | .listed turn _ _ | .sweeping turn _ _ | .recording turn | .dropping turn
  | .undoing turn => turn.rest

variable (catalog) in
structure Kept (state : State) : Prop where
  exist : BasesExist catalog state
  listed : ∀ run phase, state.runs run = some phase → ∀ share ∈ phase.rest, share ∈ catalog.rows
  inside : ∀ run phase, state.runs run = some phase → InSection catalog state phase
  apart : ∀ run other phase reached turn doing, state.runs run = some phase → state.runs other = some reached →
    phase.turn = some turn → reached.turn = some doing → turn.share.dataset = doing.share.dataset → run = other
  idle : ∀ dataset, (∀ run phase turn, state.runs run = some phase → phase.turn = some turn → turn.share.dataset ≠ dataset) →
    Roomy state dataset (room catalog dataset + 1) ∅

theorem InSection.own {phase : Phase} (inside : InSection catalog state phase) (is : phase.turn = some turn) :
    Own catalog state turn := by
  cases phase <;> cases is <;> exact inside.1

theorem InSection.roomy {phase : Phase} (inside : InSection catalog state phase) (is : phase.turn = some turn) :
    Roomy state turn.share.dataset (room catalog turn.share.dataset + 1) { turn.snapshot } := by
  cases phase <;> cases is
  case listed => exact inside.2.1
  case sweeping => exact inside.2.1
  case recording => exact inside.2.mono subset_rfl subset_rfl (Nat.le_succ _) (fun _ _ same => .inl same)
  case dropping => exact inside.2.mono subset_rfl subset_rfl (Nat.le_succ _) (fun _ _ same => .inl same)
  all_goals exact inside.2

theorem Own.onward (own : Own catalog state turn) : Own catalog (state.at run phase) turn :=
  ⟨own.listed,own.there,own.unrecorded⟩

theorem Own.spared {names : Finset String} (own : Own catalog state turn) :
    Own catalog (state.spare dataset names) turn :=
  ⟨own.listed,own.there,own.unrecorded⟩

structure Same (catalog : Catalog) (state next : State) (dataset : String) : Prop where
  snapshots : next.snapshots dataset = state.snapshots dataset
  spared : next.spared dataset = state.spared dataset
  bases : ∀ share ∈ catalog.rows, share.dataset = dataset → next.bases share.id = state.bases share.id

theorem Same.roomy {bound : Nat} {these : Finset String} (same : Same catalog state next dataset)
    (roomy : Roomy state dataset bound these) : Roomy next dataset bound these :=
  roomy.mono same.snapshots.subset same.spared.superset le_rfl (fun _ _ this => .inl this)

theorem Same.own (same : Same catalog state next turn.share.dataset) (own : Own catalog state turn) :
    Own catalog next turn :=
  ⟨own.listed,same.snapshots.symm ▸ own.there,fun share listed here => by
    rw [same.bases share listed here]
    exact own.unrecorded share listed here⟩

theorem Same.inSection {phase : Phase} (same : ∀ turn, phase.turn = some turn → Same catalog state next turn.share.dataset)
    (inside : InSection catalog state phase) : InSection catalog next phase := by
  cases phase with
  | between rest => trivial
  | created turn | based turn base | undoing turn | recording turn | dropping turn => exact ⟨(same turn rfl).own inside.1,(same turn rfl).roomy inside.2⟩
  | listed turn base names =>
    refine ⟨(same turn rfl).own inside.1,(same turn rfl).roomy inside.2.1,?_⟩
    rw [(same turn rfl).snapshots]
    exact inside.2.2
  | sweeping turn base todo =>
    obtain ⟨own,roomy,swept,spare⟩ := inside
    refine ⟨(same turn rfl).own own,(same turn rfl).roomy roomy,(same turn rfl).roomy swept,fun name member => ?_⟩
    obtain ⟨apart,unrecorded⟩ := spare name member
    refine ⟨apart,fun share listed here => ?_⟩
    rw [(same turn rfl).bases share listed here]
    exact unrecorded share listed here

section

variable (kept : Kept catalog state)
include kept

theorem Kept.moved (dataset : String)
    (runs : next.runs = Function.update state.runs run phase) (same : ∀ other, other ≠ dataset → Same catalog state next other)
    (alone : ∀ other reached turn, other ≠ run → state.runs other = some reached → reached.turn = some turn →
      turn.share.dataset ≠ dataset)
    (before : ∀ was turn, state.runs run = some was → was.turn = some turn → turn.share.dataset = dataset)
    (exist : ∀ share ∈ catalog.rows, share.dataset = dataset → ∀ name, next.bases share.id = some name →
      name ∈ next.snapshots dataset)
    (rest : ∀ is, phase = some is → ∀ share ∈ is.rest, share ∈ catalog.rows)
    (reached : ∀ is, phase = some is → InSection catalog next is ∧ ∀ turn, is.turn = some turn → turn.share.dataset = dataset)
    (idle : (∀ is, phase = some is → is.turn = none) → Roomy next dataset (room catalog dataset + 1) ∅) : Kept catalog next where
  exist share listed name recorded := by
    by_cases here : share.dataset = dataset
    · rw [here]
      exact exist share listed here name recorded
    · have untouched := same share.dataset here
      rw [untouched.bases share listed rfl] at recorded
      rw [untouched.snapshots]
      exact kept.exist share listed name recorded
  listed other is held := by
    rw [runs] at held
    by_cases own : other = run
    · rw [own,update_self] at held
      exact rest is held
    · rw [update_of_ne own] at held
      exact kept.listed other is held
  inside other is held := by
    rw [runs] at held
    by_cases own : other = run
    · rw [own,update_self] at held
      exact (reached is held).1
    · rw [update_of_ne own] at held
      exact Same.inSection (fun turn doing => same _ (alone other is turn own held doing)) (kept.inside other is held)
  apart first second is was turn doing held there mine its meet := by
    rw [runs] at held there
    by_cases one : first = run
    · by_cases two : second = run
      · exact one.trans two.symm
      · rw [one,update_self] at held
        rw [update_of_ne two] at there
        exact absurd (meet.symm.trans ((reached is held).2 turn mine)) (alone second was doing two there its)
    · rw [update_of_ne one] at held
      by_cases two : second = run
      · rw [two,update_self] at there
        exact absurd (meet.trans ((reached was there).2 doing its)) (alone first is turn one held mine)
      · rw [update_of_ne two] at there
        exact kept.apart first second is was turn doing held there mine its meet
  idle other free := by
    by_cases here : other = dataset
    · subst here
      refine idle (fun is held => ?_)
      cases mine : is.turn with
      | none => rfl
      | some turn =>
        exact absurd ((reached is held).2 turn mine) (free run is turn (by rw [runs,update_self]; exact held) mine)
    · refine (same other here).roomy (kept.idle other (fun one is turn held mine => ?_))
      by_cases own : one = run
      · intro meet
        exact here (meet.symm.trans (before is turn (own ▸ held) mine))
      · exact free one is turn (by rw [runs,update_of_ne own]; exact held) mine

theorem Kept.aside (free : ∀ was, state.runs run = some was → was.turn = none)
    (rest : ∀ is, phase = some is → is.turn = none ∧ ∀ share ∈ is.rest, share ∈ catalog.rows) :
    Kept catalog (state.at run phase) where
  exist := kept.exist
  listed other is held := by
    simp only [at_runs] at held
    by_cases own : other = run
    · rw [own,update_self] at held
      exact (rest is held).2
    · rw [update_of_ne own] at held
      exact kept.listed other is held
  inside other is held := by
    simp only [at_runs] at held
    by_cases own : other = run
    · rw [own,update_self] at held
      have none := (rest is held).1
      cases is <;> cases none
      trivial
    · rw [update_of_ne own] at held
      exact @Same.inSection catalog state (state.at run phase) is (fun _ _ => ⟨rfl,rfl,fun _ _ _ => rfl⟩) (kept.inside other is held)
  apart first second is was turn doing held there mine its meet := by
    simp only [at_runs] at held there
    by_cases one : first = run
    · rw [one,update_self] at held
      rw [(rest is held).1] at mine
      cases mine
    · by_cases two : second = run
      · rw [two,update_self] at there
        rw [(rest was there).1] at its
        cases its
      · rw [update_of_ne one] at held
        rw [update_of_ne two] at there
        exact kept.apart first second is was turn doing held there mine its meet
  idle dataset unused := by
    refine kept.idle dataset (fun one is turn held mine => ?_)
    by_cases own : one = run
    · rw [free is (own ▸ held)] at mine
      cases mine
    · exact unused one is turn (by simp only [at_runs]; rw [update_of_ne own]; exact held) mine

theorem Kept.onward {was : Phase}
    (held : state.runs run = some was) (mine : was.turn = some turn)
    (runs : next.runs = Function.update state.runs run phase)
    (same : ∀ other, other ≠ turn.share.dataset → Same catalog state next other)
    (exist : ∀ share ∈ catalog.rows, share.dataset = turn.share.dataset → ∀ name, next.bases share.id = some name →
      name ∈ next.snapshots turn.share.dataset)
    (rest : ∀ is, phase = some is → is.rest = was.rest)
    (reached : ∀ is, phase = some is → InSection catalog next is ∧ ∀ doing, is.turn = some doing → doing = turn)
    (idle : (∀ is, phase = some is → is.turn = none) →
      Roomy next turn.share.dataset (room catalog turn.share.dataset + 1) ∅) : Kept catalog next := by
  refine kept.moved turn.share.dataset runs same ?_ ?_ exist ?_ ?_ idle
  · intro other reached doing apart there its meet
    exact apart (kept.apart other run reached was doing turn there held its mine meet)
  · intro is doing there its
    rw [held] at there
    cases there
    rw [mine] at its
    cases its
    rfl
  · intro is here share member
    rw [rest is here] at member
    exact kept.listed run was held share member
  · intro is here
    refine ⟨(reached is here).1,fun doing its => ?_⟩
    rw [(reached is here).2 doing its]

theorem Kept.bases_there :
    ∀ share ∈ catalog.rows, share.dataset = dataset → ∀ name, state.bases share.id = some name →
      name ∈ state.snapshots dataset := by
  rintro share listed rfl name recorded
  exact kept.exist share listed name recorded

end

theorem update_other_share {share other : ShareRow} {base : Option String} (listed : share ∈ catalog.rows)
    (known : other ∈ catalog.rows) (apart : other.dataset ≠ share.dataset) :
    Function.update state.bases share.id base other.id = state.bases other.id := by
  refine update_of_ne (fun same => apart ?_) _ _
  rw [inj_on_of_nodup_map catalog.distinct known listed same]

theorem bases_room (dataset : String) :
    (((sharesOf catalog dataset).filterMap (fun row => state.bases row.id)).toFinset).card ≤ room catalog dataset :=
  (toFinset_card_le _).trans (length_filterMap_le _ _)

section

variable (kept : Kept catalog state)
include kept

theorem Kept.turns {was is : Phase} (held : state.runs run = some was)
    (mine : was.turn = some turn) (its : is.turn = some turn) (rest : is.rest = was.rest)
    (inside : InSection catalog state was → InSection catalog state is) : Kept catalog (state.at run (some is)) := by
  refine kept.onward held mine rfl (fun _ _ => ⟨rfl,rfl,fun _ _ _ => rfl⟩) kept.bases_there
    (fun _ same => Option.some.inj same ▸ rest) (fun other same => ?_) (fun none => ?_)
  · cases same
    refine ⟨@Same.inSection catalog state (state.at run (some is)) is (fun _ _ => ⟨rfl,rfl,fun _ _ _ => rfl⟩)
      (inside (kept.inside run _ held)),fun doing there => ?_⟩
    exact Option.some.inj (there.symm.trans its)
  · rw [none _ rfl] at its
    cases its

theorem Kept.leaves {was : Phase} (held : state.runs run = some was) (mine : was.turn = some turn)
    (out : ∀ is, phase = some is → is = .between was.rest) :
    Kept catalog ((state.at run phase).spare turn.share.dataset { turn.snapshot }) := by
  refine kept.onward held mine rfl (fun _ apart => ⟨rfl,spare_other _ _ apart,fun _ _ _ => rfl⟩) kept.bases_there
    (fun is same => by cases out is same; rfl) (fun is same => by cases out is same; exact ⟨trivial,nofun⟩) (fun _ => ?_)
  refine ((kept.inside run _ held).roomy mine).mono subset_rfl ?_ le_rfl (fun _ _ this => .inr ?_)
  · rw [spare_spared]
    exact Finset.subset_union_left
  · rw [spare_spared]
    exact Finset.mem_union_right _ this

theorem Kept.destroys {was : Phase} {name : String} {gone : Bool} (held : state.runs run = some was)
    (mine : was.turn = some turn)
    (unrecorded : ∀ share ∈ catalog.rows, share.dataset = turn.share.dataset → state.bases share.id ≠ some name)
    (rest : ∀ is, phase = some is → is.rest = was.rest)
    (reached : ∀ is, phase = some is → InSection catalog ((state.at run phase).destroy turn.share.dataset name gone) is ∧
      ∀ doing, is.turn = some doing → doing = turn)
    (idle : (∀ is, phase = some is → is.turn = none) →
      Roomy ((state.at run phase).destroy turn.share.dataset name gone) turn.share.dataset (room catalog turn.share.dataset + 1) ∅) :
    Kept catalog ((state.at run phase).destroy turn.share.dataset name gone) := by
  refine kept.onward held mine (destroy_runs _ _ _ _) ?_ ?_ rest reached idle
  · intro other elsewhere
    obtain ⟨snapshots,spared⟩ := destroy_elsewhere (state.at run phase) turn.share.dataset name gone elsewhere
    exact ⟨snapshots,spared,fun _ _ _ => by rw [destroy_bases]; rfl⟩
  · intro share listed here other recorded
    rw [destroy_bases] at recorded
    refine destroy_keeps _ _ _ _ (kept.bases_there share listed here other recorded) (fun _ same => ?_)
    exact unrecorded share listed here (same ▸ recorded)

theorem step_kept (exclusive : Exclusive state event)
    (taken : step catalog state event = some next) : Kept catalog next := by
  cases event with simp only [step] at taken
  | starts run =>
    split at taken <;> cases taken
    next free =>
      refine kept.aside (fun was held => ?_) (fun is same => ?_)
      · rw [free] at held
        cases held
      · cases same
        exact ⟨rfl,fun share member => member⟩
  | creates run now made =>
    split at taken
    next share rest held =>
      have rows := kept.listed run _ held
      have freed : ∀ was, state.runs run = some was → was.turn = none := by
        intro was there
        rw [held] at there
        cases there
        rfl
      split at taken
      next =>
        cases taken
        refine kept.aside freed (fun is same => ?_)
        cases same
        exact ⟨rfl,fun other member => rows other (mem_cons_of_mem _ member)⟩
      next =>
        obtain ⟨fresh,taken⟩ := of_unless taken
        cases taken
        have alone := exclusive share rest held
        have idle := kept.idle share.dataset (fun other is turn there mine => alone other is turn there mine)
        have grown := take_snapshots (state.at run (some (.created ⟨share,runSnapshot now,rest⟩))) share.dataset (runSnapshot now)
        refine kept.moved share.dataset rfl ?_ (fun other is turn _ there mine => alone other is turn there mine) ?_ ?_ ?_ ?_ ?_
        · intro other apart
          exact ⟨take_other _ _ apart,rfl,fun _ _ _ => rfl⟩
        · intro was turn there mine
          rw [freed was there] at mine
          cases mine
        · intro other listed here name recorded
          rw [grown]
          exact Finset.mem_insert_of_mem (here ▸ kept.exist other listed name recorded)
        · intro is same other member
          cases same
          exact rows other (mem_cons_of_mem _ member)
        · intro is same
          cases same
          refine ⟨⟨⟨rows share mem_cons_self,?_,?_⟩,?_⟩,fun turn mine => by cases mine; rfl⟩
          · rw [grown]
            exact Finset.mem_insert_self _ _
          · intro other listed here recorded
            exact fresh (here ▸ kept.exist other listed _ recorded)
          · obtain ⟨names,small,each⟩ := idle
            refine ⟨names,small,fun name member isRun => ?_⟩
            rw [grown] at member
            rcases Finset.mem_insert.mp member with here | before
            · exact .inr (.inl (Finset.mem_singleton.mpr here))
            · rcases each name before isRun with out | none | inside
              · exact .inl out
              · cases none
              · exact .inr (.inr inside)
        · intro none
          cases none _ rfl
    next => cases taken
  | reads run =>
    split at taken <;> cases taken
    next held => exact kept.turns held rfl rfl rfl (fun inside => inside)
  | lists run names =>
    split at taken
    next turn base held =>
      cases taken
      have inside := kept.inside run _ held
      have swept (bound : Nat) (these : Finset String) (own : turn.snapshot ∈ these) :
          Roomy ((state.at run (some (.sweeping turn base []))).spare turn.share.dataset
            (((state.snapshots turn.share.dataset).filter (fun name => isRunSnapshot name)).erase turn.snapshot))
              turn.share.dataset bound these := by
        refine ⟨∅,Nat.zero_le _,fun name member marked => ?_⟩
        by_cases here : name = turn.snapshot
        · exact .inr (.inl (here ▸ own))
        · left
          rw [spare_spared]
          exact Finset.mem_union_right _ (Finset.mem_erase.mpr ⟨here,Finset.mem_filter.mpr ⟨member,marked⟩⟩)
      refine kept.onward held rfl rfl (fun _ apart => ⟨rfl,spare_other _ _ apart,fun _ _ _ => rfl⟩) kept.bases_there
        (fun is same => by cases same; rfl) ?_ ?_
      · intro is same
        cases same
        exact ⟨⟨inside.1.onward.spared,swept _ _ (Finset.mem_singleton_self _),swept _ _ (Finset.mem_insert_self _ _),nofun⟩,
          fun _ mine => by cases mine; rfl⟩
      · intro none
        cases none _ rfl
    next turn base names held =>
      obtain ⟨whole,taken⟩ := ite_none_right_eq_some.mp taken
      cases taken
      exact kept.turns held rfl rfl rfl
        (fun inside => ⟨inside.1,inside.2,fun name member => mem_toFinset.mp (whole ▸ member)⟩)
    next => cases taken
  | protects run =>
    split at taken <;> cases taken
    next turn base names held =>
      obtain ⟨own,roomy,whole⟩ := kept.inside run _ held
      refine kept.onward held rfl rfl (fun _ apart => ⟨rfl,spare_other _ _ apart,fun _ _ _ => rfl⟩) kept.bases_there
        (fun is same => by cases same; rfl) ?_ ?_
      · intro is same
        cases same
        refine ⟨⟨own.onward.spared,?_,?_,?_⟩,fun _ mine => by cases mine; rfl⟩
        · refine roomy.mono subset_rfl ?_ le_rfl (fun _ _ this => .inl this)
          rw [spare_spared]
          exact Finset.subset_union_left
        · refine ⟨((sharesOf catalog turn.share.dataset).filterMap (fun row => state.bases row.id)).toFinset,bases_room _,
            fun name member isRun => ?_⟩
          by_cases used : name ∈ turn.snapshot::inUse catalog state
          · rcases mem_cons.mp used with here | used
            · exact .inr (.inl (Finset.mem_insert.mpr (.inl here)))
            · obtain ⟨row,listed,recorded⟩ := mem_filterMap.mp used
              by_cases mine : row.dataset = turn.share.dataset
              · refine .inr (.inr (mem_toFinset.mpr (mem_filterMap.mpr ⟨row,?_,recorded⟩)))
                exact mem_filter.mpr ⟨listed,by simpa using mine⟩
              · left
                rw [spare_spared]
                refine Finset.mem_union_right _ (mem_toFinset.mpr (mem_filterMap.mpr ⟨row,?_,recorded⟩))
                exact mem_filter.mpr ⟨listed,by simpa using mine⟩
          · refine .inr (.inl (Finset.mem_insert_of_mem (mem_toFinset.mpr (mem_filter.mpr ⟨whole name member,?_⟩))))
            simp [isRun,used]
        · intro name member
          simp only [mem_filter,Bool.and_eq_true,Bool.not_eq_true',contains_eq_mem,decide_eq_false_iff_not,
            mem_cons,not_or] at member
          refine ⟨member.2.2.1,fun share listed _ recorded => member.2.2.2 ?_⟩
          exact mem_filterMap.mpr ⟨share,listed,recorded⟩
      · intro none
        cases none _ rfl
  | destroys run gone =>
    split at taken <;> cases taken
    next turn base name todo held =>
      obtain ⟨own,roomy,swept,spare⟩ := kept.inside run _ held
      obtain ⟨apart,unrecorded⟩ := spare name mem_cons_self
      have settled := destroy_settled (state.at run (some (.sweeping turn base todo))) turn.share.dataset name gone
      refine kept.destroys held rfl unrecorded (fun is same => by cases same; rfl) ?_ (fun none => by cases none _ rfl)
      intro is same
      cases same
      refine ⟨⟨⟨own.listed,?_,?_⟩,?_,?_,?_⟩,fun _ mine => by cases mine; rfl⟩
      · exact destroy_keeps _ _ _ _ own.there (fun _ => Ne.symm apart)
      · rw [destroy_bases]
        exact own.unrecorded
      · exact roomy.mono (destroy_subset _ _ _ _ _) (destroy_spares (state.at run _) _ _ _ _) le_rfl (fun _ _ this => .inl this)
      · refine swept.mono (destroy_subset _ _ _ _ _) (destroy_spares (state.at run _) _ _ _ _) le_rfl (fun other there this => ?_)
        simp only [toFinset_cons,Finset.mem_insert] at this
        rcases this with here | rfl | later
        · exact .inl (Finset.mem_insert.mpr (.inl here))
        · rcases settled with absent | noted
          · exact absurd there absent
          · exact .inr noted
        · exact .inl (Finset.mem_insert_of_mem later)
      · rw [destroy_bases]
        exact fun other member => spare other (mem_cons_of_mem _ member)
  | works run outcome =>
    split at taken
    next turn base held =>
      have room (inside : InSection catalog state (.sweeping turn base [])) :
          Roomy state turn.share.dataset (room catalog turn.share.dataset) { turn.snapshot } :=
        inside.2.2.1.mono subset_rfl subset_rfl le_rfl (fun _ _ this => .inl (by simpa using this))
      split at taken <;> cases taken
      next => exact kept.turns held rfl rfl rfl (fun inside => ⟨inside.1,room inside⟩)
      next => exact kept.turns held rfl rfl rfl (fun inside => ⟨inside.1,inside.2.1⟩)
      next => exact kept.turns held rfl rfl rfl (fun inside => ⟨inside.1,room inside⟩)
    next => cases taken
  | records run =>
    split at taken <;> cases taken
    next turn held =>
      obtain ⟨own,names,small,each⟩ := kept.inside run _ held
      refine kept.onward held rfl rfl ?_ ?_ (fun is same => by cases same; rfl) ?_ ?_
      · exact fun other apart => ⟨rfl,rfl,fun share listed here => update_other_share own.listed listed (here ▸ apart)⟩
      · intro share listed here name recorded
        change Function.update state.bases turn.share.id (some turn.snapshot) share.id = some name at recorded
        by_cases same : share.id = turn.share.id
        · rw [same,update_self] at recorded
          cases recorded
          exact own.there
        · rw [update_of_ne same] at recorded
          exact kept.bases_there share listed here name recorded
      · intro is same
        cases same
        exact ⟨trivial,nofun⟩
      · intro _
        refine ⟨insert turn.snapshot names,(Finset.card_insert_le _ _).trans (Nat.succ_le_succ small),fun name member isRun => ?_⟩
        rcases each name member isRun with out | here | inside
        · exact .inl out
        · exact .inr (.inr (Finset.mem_insert.mpr (.inl (Finset.mem_singleton.mp here))))
        · exact .inr (.inr (Finset.mem_insert_of_mem inside))
  | drops run =>
    split at taken <;> cases taken
    next turn held =>
      obtain ⟨own,roomy⟩ := kept.inside run _ held
      have fewer (share : ShareRow) (name : String)
          (recorded : Function.update state.bases turn.share.id none share.id = some name) : state.bases share.id = some name := by
        by_cases same : share.id = turn.share.id
        · rw [same,update_self] at recorded
          cases recorded
        · rwa [update_of_ne same] at recorded
      refine kept.onward held rfl rfl ?_ ?_ (fun is same => by cases same; rfl) ?_ (fun none => by cases none _ rfl)
      · exact fun other apart => ⟨rfl,rfl,fun share listed here => update_other_share own.listed listed (here ▸ apart)⟩
      · exact fun share listed here name recorded => kept.bases_there share listed here name (fewer share name recorded)
      · intro is same
        cases same
        refine ⟨⟨⟨own.listed,own.there,fun share listed here recorded => ?_⟩,?_⟩,fun _ mine => by cases mine; rfl⟩
        · exact own.unrecorded share listed here (fewer share _ recorded)
        · exact roomy.mono subset_rfl subset_rfl (Nat.le_succ _) (fun _ _ this => .inl this)
  | undoes run gone =>
    split at taken <;> cases taken
    next turn held =>
      obtain ⟨own,roomy⟩ := kept.inside run _ held
      have settled := destroy_settled (state.at run (some (.between turn.rest))) turn.share.dataset turn.snapshot gone
      refine kept.destroys held rfl own.unrecorded (fun is same => by cases same; rfl)
        (fun is same => by cases same; exact ⟨trivial,nofun⟩) (fun _ => ?_)
      refine roomy.mono (destroy_subset _ _ _ _ _) (destroy_spares (state.at run _) _ _ _ _) le_rfl (fun other there this => ?_)
      right
      rw [Finset.mem_singleton.mp this] at there ⊢
      exact settled.resolve_left (fun absent => absent there)
  | throws run =>
    have back {was : Phase} {turn : Turn} (held : state.runs run = some was) (mine : was.turn = some turn)
        (rest : was.rest = turn.rest) : Kept catalog (state.at run (some (.undoing turn))) :=
      kept.turns held mine rfl rest.symm (fun inside => ⟨inside.own mine,inside.roomy mine⟩)
    split at taken
    next => cases taken
    next => cases taken
    next => cases taken
    next held => cases taken; exact kept.leaves held rfl (fun _ same => (Option.some.inj same).symm)
    all_goals next held => cases taken; exact back held rfl rfl
  | ends run =>
    split at taken <;> cases taken
    next held => exact kept.aside (fun was there => by cases held.symm.trans there; rfl) nofun
  | stops run =>
    obtain ⟨phase,held,rfl⟩ := map_eq_some_iff.mp taken
    split
    next idle => exact kept.aside (fun was there => by cases held.symm.trans there; exact idle) nofun
    next mine => exact kept.leaves held mine nofun

end

def State.start (held : String → Finset String) : State := ⟨held,fun _ => none,fun _ => none,fun _ => ∅⟩

theorem start_kept {held : String → Finset String} (clean : ∀ dataset, ∀ name ∈ held dataset, isRunSnapshot name = false) :
    Kept catalog (.start held) := by
  constructor
  · nofun
  · nofun
  · nofun
  · nofun
  · intro dataset _
    refine ⟨∅,Nat.zero_le _,fun name member marked => ?_⟩
    rw [clean dataset name member] at marked
    cases marked

def Event.actor : Event → String
  | .starts run | .creates run _ _ | .reads run | .lists run _ | .protects run | .destroys run _ | .works run _
  | .records run | .drops run | .undoes run _ | .throws run | .ends run | .stops run => run

theorem step_runs (taken : step catalog state event = some next) :
    ∃ phase, next.runs = Function.update state.runs event.actor phase := by
  cases event with simp only [step] at taken
  | starts run =>
    split at taken <;> cases taken
    exact ⟨_,rfl⟩
  | creates run now made =>
    split at taken
    next =>
      split at taken
      next => cases taken; exact ⟨_,rfl⟩
      next =>
        split at taken <;> cases taken
        exact ⟨_,rfl⟩
    next => cases taken
  | reads run =>
    split at taken <;> cases taken
    exact ⟨_,rfl⟩
  | lists run names =>
    split at taken
    next => cases taken; exact ⟨_,rfl⟩
    next =>
      split at taken <;> cases taken
      exact ⟨_,rfl⟩
    next => cases taken
  | protects run =>
    split at taken <;> cases taken
    exact ⟨_,rfl⟩
  | destroys run gone =>
    split at taken <;> cases taken
    exact ⟨_,destroy_runs _ _ _ _⟩
  | works run outcome =>
    split at taken
    next => split at taken <;> cases taken <;> exact ⟨_,rfl⟩
    next => cases taken
  | records run | drops run =>
    split at taken <;> cases taken
    exact ⟨_,rfl⟩
  | undoes run gone =>
    split at taken <;> cases taken
    exact ⟨_,destroy_runs _ _ _ _⟩
  | throws run =>
    split at taken <;> cases taken <;> exact ⟨_,rfl⟩
  | ends run =>
    split at taken <;> cases taken
    exact ⟨_,rfl⟩
  | stops run =>
    obtain ⟨phase,-,rfl⟩ := map_eq_some_iff.mp taken
    split <;> exact ⟨_,rfl⟩

theorem run_others {events : List Event} {final : State} {other : String} (apart : ∀ event ∈ events, event.actor ≠ other)
    (ran : Machine.run (step catalog) state events = some final) : final.runs other = state.runs other := by
  induction events generalizing state with
  | nil => cases ran; rfl
  | cons event rest ih =>
    obtain ⟨next,taken,tail⟩ := run_cons_some (step catalog) ran
    obtain ⟨phase,moved⟩ := step_runs taken
    rw [ih (fun one member => apart one (mem_cons_of_mem _ member)) tail,moved]
    exact update_of_ne (Ne.symm (apart event mem_cons_self)) _ _

theorem alone_exclusive {events : List Event} (own : ∀ event ∈ events, event.actor = run)
    (others : ∀ other, other ≠ run → state.runs other = none) : Machine.Meets (step catalog) Exclusive state events := by
  induction events generalizing state with
  | nil => trivial
  | cons event rest ih =>
    have mine := own event mem_cons_self
    refine ⟨?_,?_⟩
    · cases event with
      | creates actor now made =>
        change actor = run at mine
        subst mine
        intro share rest held other phase turn there doing
        by_cases same : other = actor
        · rw [same,held] at there
          cases there
          cases doing
        · rw [others other same] at there
          cases there
      | _ => trivial
    · cases taken : step catalog state event with
      | none => trivial
      | some next =>
        obtain ⟨phase,moved⟩ := step_runs taken
        refine ih (fun one member => own one (mem_cons_of_mem _ member)) (fun other apart => ?_)
        rw [moved,mine,update_of_ne apart]
        exact others other apart

private theorem photos_distinct : ([⟨"s1","Fotograflar","tank/fotograflar"⟩].map ShareRow.id).Nodup := nodup_singleton _

private def photos : Catalog := ⟨[⟨"s1","Fotograflar","tank/fotograflar"⟩],photos_distinct⟩

private def manual (dataset : String) : Finset String := if dataset = "tank/fotograflar" then { "elle-2026" } else ∅

private theorem manual_clean : ∀ dataset, ∀ name ∈ manual dataset, isRunSnapshot name = false := by
  intro dataset name member
  unfold manual at member
  split at member
  · rw [Finset.mem_singleton.mp member]
    decide
  · cases member

private def wholeTurn (now : Nat) (names : List String) : List Event :=
  [.starts "zamanli",.creates "zamanli" now true,.reads "zamanli",.lists "zamanli" (some names),.protects "zamanli",
    .works "zamanli" .done,.records "zamanli",.ends "zamanli"]

private def twice : List Event :=
  wholeTurn 1 ["elle-2026",runSnapshot 1]++wholeTurn 2 ["elle-2026",runSnapshot 1,runSnapshot 2]

private theorem twice_leaves : (Machine.run (step photos) (.start manual) twice).any (fun state =>
    decide ((leftOver state "tank/fotograflar").card = 2) && (state.runs "zamanli").isNone &&
      decide (state.spared "tank/fotograflar" = ∅)) = true := by
  decide +kernel

private theorem twice_own : ∀ event ∈ twice, event.actor = "zamanli" := by decide +kernel

private theorem twice_rests {state : State} (ran : Machine.run (step photos) (.start manual) twice = some state)
    (idle : (state.runs "zamanli").isNone = true) : ∀ run, state.runs run = none := by
  intro run
  by_cases same : run = "zamanli"
  · rw [same]
    exact isNone_iff_eq_none.mp idle
  · refine run_others (fun event member => ?_) ran
    rw [twice_own event member]
    exact Ne.symm same

private theorem twice_exclusive : Machine.Meets (step photos) Exclusive (.start manual) twice :=
  alone_exclusive twice_own (fun _ _ => rfl)

private def crossed : List Event :=
  [.starts "zamanli",.creates "zamanli" 1 true,.reads "zamanli",.lists "zamanli" (some ["elle-2026",runSnapshot 1]),.protects "zamanli",
    .starts "elle",.creates "elle" 2 true,.reads "elle",.lists "elle" (some ["elle-2026",runSnapshot 1,runSnapshot 2]),
    .protects "elle",.destroys "elle" true,.works "zamanli" .done,.records "zamanli"]

private theorem crossed_dangles : (Machine.run (step photos) (.start manual) crossed).any (fun state =>
    decide (state.bases "s1" = some (runSnapshot 1)) && decide (runSnapshot 1 ∉ state.snapshots "tank/fotograflar")) = true := by
  decide +kernel

end Depsis.Backup.RunSnapshots

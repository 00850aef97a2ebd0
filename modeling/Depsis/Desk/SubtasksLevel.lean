import Depsis.Desk.Subtasks

/-! Whether subtasks stay one level deep. The trigger looks at the parent and at the subtasks
without locking either, so the rule is kept by the transactions that meet nobody at work on them.
-/
namespace Depsis.Desk.Subtasks

open Depsis.Foundation Depsis.Foundation.ReadCommitted List AList Option Machine

variable {home : String → String} {tasks other : Table String TaskRow} {db next : Tasks} {session : Nat}
variable {transaction : Transaction String TaskRow Program} {action : Action Request Nat}

theorem oneLevelDeep_iff {organizationId id parentId : String} :
    oneLevelDeep organizationId tasks id (some parentId) = true ↔
      parentId ≠ id ∧
        (∀ row, tasks.lookup parentId = some row → row.organizationId = organizationId → row.parentId = none) ∧
          ∀ child row, tasks.lookup child = some row → row.organizationId = organizationId → row.parentId ≠ some id := by
  simp only [oneLevelDeep,Bool.and_eq_true,Bool.not_eq_true',decide_eq_true_eq]
  rw [← Bool.not_eq_true,← Bool.not_eq_true,any_iff,any_iff,and_assoc]
  refine and_congr Iff.rfl (and_congr ⟨fun none row stored same => ?_,?_⟩ ⟨fun none child row stored same under => ?_,?_⟩)
  · by_contra some
    exact none ⟨parentId,row,stored,by simpa [same] using isSome_iff_ne_none.mpr some⟩
  · rintro alone ⟨key,row,stored,test⟩
    simp only [Bool.and_eq_true,decide_eq_true_eq] at test
    obtain ⟨⟨same,rfl⟩,some⟩ := test
    rw [alone row stored same] at some
    cases some
  · exact none ⟨child,row,stored,by simp [same,under]⟩
  · rintro childless ⟨child,row,stored,test⟩
    simp only [Bool.and_eq_true,decide_eq_true_eq] at test
    exact childless child row stored test.1 test.2

theorem OneLevel.acyclic (level : OneLevel tasks) (id : String) : ¬Relation.TransGen (Under tasks) id id := by
  intro cycle
  -- what is above a task has no parent, so no path goes on from there
  obtain ⟨parent,⟨row,stored,under⟩,rest⟩ := Relation.TransGen.head'_iff.mp cycle
  obtain ⟨above,found,top,-⟩ := level id row parent stored under
  have stuck {last : String} (path : Relation.ReflTransGen (Under tasks) parent last) : last = parent := by
    rcases Relation.ReflTransGen.cases_head path with same | ⟨middle,⟨again,here,up⟩,-⟩
    · exact same.symm
    · cases found.symm.trans here
      cases top.symm.trans up
  cases stuck rest
  cases stored.symm.trans found
  cases top.symm.trans under

def Belongs (home : String → String) (organizationId : String) : Write → Prop
  | .insert id row => home id = organizationId ∧ row.organizationId = organizationId
  | .set _ _ _ _ _ => True

def Ready (home : String → String) : Program → Prop
  | .assertParent organizationId parentId write => write.parent = parentId ∧ Belongs home organizationId write
  | .apply organizationId write =>
    Belongs home organizationId write ∧ ∀ parentId, write.parent = some parentId → home parentId = organizationId
  | .remove _ _ _ _ => True
  | _ => False

structure Nested (home : String → String) (tasks : Table String TaskRow)
    (transaction : Transaction String TaskRow Program) (id parentId : String) : Prop where
  apart : parentId ≠ id
  kin : home parentId = home id
  top : ∀ row, tasks.lookup parentId = some row → row.parentId = none
  childless : ∀ child row, tasks.lookup child = some row → row.parentId ≠ some id
  held : transaction.program = .reference parentId ∨
    ((parentId,.keyShare) ∈ transaction.locks ∧ ∃ row, tasks.lookup parentId = some row) ∨
      ∃ row, tasks.lookup id = some row ∧ row.parentId = some parentId

structure Writing (home : String → String) (tasks : Table String TaskRow)
    (transaction : Transaction String TaskRow Program) (id : String) (row : TaskRow) : Prop where
  writes : ∀ key, transaction.writes.lookup key = if key = id then some (some row) else none
  homed : row.organizationId = home id
  program : transaction.program = .done ∨ ∃ parentId, transaction.program = .reference parentId ∧ row.parentId = some parentId
  nested : ∀ parentId, row.parentId = some parentId → Nested home tasks transaction id parentId

structure Deleting (tasks : Table String TaskRow) (transaction : Transaction String TaskRow Program)
    (gone : List String) : Prop where
  writes : ∀ id value, transaction.writes.lookup id = some value → value = none ∧ (id,.forUpdate) ∈ transaction.locks
  followed : ∀ id, id ∉ gone → transaction.writes.lookup id = some none →
    ∀ child row, tasks.lookup child = some row → row.parentId = some id → transaction.writes.lookup child = some none

inductive Stage (home : String → String) (tasks : Table String TaskRow)
    (transaction : Transaction String TaskRow Program) : Prop
  | opened (untouched : transaction.writes = ∅) (ready : Ready home transaction.program)
  | writing (id : String) (row : TaskRow) (written : Writing home tasks transaction id row)
  | deleting (gone : List String) (program : transaction.program = .cascade gone)
      (deleted : Deleting tasks transaction gone)

structure Steady (home : String → String) (db : Tasks) : Prop where
  orderly : Orderly db
  homed : Homed home db.committed
  level : OneLevel db.committed
  stages : ∀ session transaction, db.running.lookup session = some transaction → Stage home db.committed transaction
  cross : ∀ first second left right, first ≠ second → db.running.lookup first = some left →
    db.running.lookup second = some right → ∀ id row parentId above, left.writes.lookup id = some (some row) →
      row.parentId = some parentId → right.writes.lookup parentId = some (some above) → above.parentId = none

theorem writing_homed (homed : Homed home tasks) {id : String} {row : TaskRow} (written : Writing home tasks transaction id row) :
    Homed home (overlay tasks transaction.writes) := by
  intro key found stored
  rw [lookup_overlay,written.writes] at stored
  split at stored
  next same =>
    obtain ⟨here,same⟩ := of_when same
    cases same
    cases stored
    rw [written.homed,here]
  next => exact homed key found stored

theorem lookup_writing {id : String} {row : TaskRow} (written : Writing home tasks transaction id row) (key : String) :
    (overlay tasks transaction.writes).lookup key = if key = id then some row else tasks.lookup key := by
  rw [lookup_overlay,written.writes]
  by_cases same : key = id
  · rw [if_pos same,if_pos same]
  · rw [if_neg same,if_neg same]

theorem lookup_deleting {gone : List String} (deleted : Deleting tasks transaction gone) {id : String} {row : TaskRow} :
    (overlay tasks transaction.writes).lookup id = some row ↔
      tasks.lookup id = some row ∧ transaction.writes.lookup id = none := by
  rw [lookup_overlay]
  cases written : transaction.writes.lookup id with
  | none => simp
  | some value =>
    rw [(deleted.writes id value written).1]
    simp

theorem Nested.present (level : OneLevel tasks) {id parentId : String} (nested : Nested home tasks transaction id parentId)
    (done : transaction.program = .done) : ∃ row, tasks.lookup parentId = some row := by
  rcases nested.held with waiting | ⟨-,present⟩ | ⟨row,stored,under⟩
  · rw [done] at waiting
    cases waiting
  · exact present
  · obtain ⟨parent,found,-⟩ := level id row parentId stored under
    exact ⟨parent,found⟩

theorem writing_level (level : OneLevel tasks) (homed : Homed home tasks) {id : String} {row : TaskRow}
    (written : Writing home tasks transaction id row) (done : transaction.program = .done) :
    OneLevel (overlay tasks transaction.writes) := by
  intro key found parentId stored under
  simp only [lookup_writing written] at stored ⊢
  split at stored
  next here =>
    cases stored
    subst here
    have nested := written.nested parentId under
    obtain ⟨parent,present⟩ := nested.present level done
    refine ⟨parent,?_,nested.top parent present,?_⟩
    · rw [if_neg nested.apart,present]
    · rw [homed parentId parent present,nested.kin,written.homed]
  next =>
    obtain ⟨parent,present,top,kin⟩ := level key found parentId stored under
    by_cases same : parentId = id
    · subst same
      rw [if_pos rfl]
      refine ⟨row,rfl,?_,?_⟩
      · cases nested : row.parentId with
        | none => rfl
        | some parentId' => exact absurd under ((written.nested parentId' nested).childless key found stored)
      · rw [written.homed,← kin,homed parentId parent present]
    · rw [if_neg same]
      exact ⟨parent,present,top,kin⟩

theorem deleting_level (level : OneLevel tasks) {gone : List String} (deleted : Deleting tasks transaction gone)
    (followed : ∀ id row parentId, (overlay tasks transaction.writes).lookup id = some row →
      row.parentId = some parentId → parentId ∉ gone) : OneLevel (overlay tasks transaction.writes) := by
  intro id row parentId stored under
  obtain ⟨before,kept⟩ := (lookup_deleting deleted).mp stored
  obtain ⟨parent,present,top,kin⟩ := level id row parentId before under
  refine ⟨parent,(lookup_deleting deleted).mpr ⟨present,?_⟩,top,kin⟩
  cases removed : transaction.writes.lookup parentId with
  | none => rfl
  | some value =>
    rw [(deleted.writes parentId value removed).1] at removed
    have gone := deleted.followed parentId (followed id row parentId stored under) removed id row before under
    rw [kept] at gone
    cases gone

/-! What another transaction's commit leaves of an open one. -/

section

variable {right : Transaction String TaskRow Program}

structure Beside (left right : Transaction String TaskRow Program) : Prop where
  disjoint : ∀ id value, left.writes.lookup id = some value → right.writes.lookup id = none
  barred : ∀ id, (id,.forUpdate) ∈ left.locks → (id,.keyShare) ∉ right.locks
  referred : ∀ id, (id,.keyShare) ∈ left.locks → (id,.forUpdate) ∉ right.locks
  leftward : ∀ id row parentId above, left.writes.lookup id = some (some row) → row.parentId = some parentId →
    right.writes.lookup parentId = some (some above) → above.parentId = none
  rightward : ∀ id row parentId above, right.writes.lookup id = some (some row) → row.parentId = some parentId →
    left.writes.lookup parentId = some (some above) → above.parentId = none

theorem Beside.unwritten {left : Transaction String TaskRow Program} (beside : Beside left right) {id : String}
    {value : Option TaskRow} (written : right.writes.lookup id = some value) : left.writes.lookup id = none := by
  cases also : left.writes.lookup id with
  | none => rfl
  | some mine =>
    rw [beside.disjoint id mine also] at written
    cases written

theorem Steady.beside (steady : Steady home db) {first second : Nat} {left : Transaction String TaskRow Program}
    (different : first ≠ second) (here : db.running.lookup first = some left)
    (there : db.running.lookup second = some right) : Beside left right := by
  refine ⟨fun id value written => steady.orderly.disjoint different here there written,fun id locked shared => ?_,
    fun id shared locked => ?_,?_,?_⟩
  · have clash := steady.orderly.apart first second left right different here there id _ _ locked shared
    cases clash
  · have clash := steady.orderly.apart first second left right different here there id _ _ shared locked
    cases clash
  · exact steady.cross first second left right different here there
  · exact steady.cross second first right left (Ne.symm different) there here

theorem nested_after_writing {id child parentId : String} {row childRow : TaskRow}
    (written : Writing home tasks transaction id row) (beside : Beside transaction right)
    (theirs : right.writes.lookup child = some (some childRow)) (under : childRow.parentId = some parentId)
    (nested : Nested home tasks right child parentId) :
    Nested home (overlay tasks transaction.writes) right child parentId := by
  have mine : transaction.writes.lookup id = some (some row) := by rw [written.writes,if_pos rfl]
  refine ⟨nested.apart,nested.kin,fun above stored => ?_,fun grandchild found stored => ?_,?_⟩
  · rw [lookup_writing written] at stored
    split at stored
    next same =>
      cases stored
      subst same
      exact beside.rightward child childRow parentId row theirs under mine
    next => exact nested.top above stored
  · rw [lookup_writing written] at stored
    split at stored
    next same =>
      cases stored
      intro both
      have bare := beside.leftward id row child childRow mine both theirs
      rw [under] at bare
      cases bare
    next => exact nested.childless grandchild found stored
  · rcases nested.held with waiting | ⟨shared,above,present⟩ | ⟨before,stored,same⟩
    · exact .inl waiting
    · refine .inr (.inl ⟨shared,?_⟩)
      rw [lookup_writing written]
      split
      · exact ⟨row,rfl⟩
      · exact ⟨above,present⟩
    · refine .inr (.inr ⟨before,?_,same⟩)
      rw [lookup_overlay_none (beside.unwritten theirs),stored]

theorem stage_after_writing {id : String} {row : TaskRow} (written : Writing home tasks transaction id row)
    (done : transaction.program = .done) (beside : Beside transaction right) (stage : Stage home tasks right) :
    Stage home (overlay tasks transaction.writes) right := by
  have mine : transaction.writes.lookup id = some (some row) := by rw [written.writes,if_pos rfl]
  cases stage with
  | opened untouched ready => exact .opened untouched ready
  | writing child childRow theirs =>
    refine .writing child childRow ⟨theirs.writes,theirs.homed,theirs.program,fun parentId under => ?_⟩
    refine nested_after_writing written beside ?_ under (theirs.nested parentId under)
    rw [theirs.writes,if_pos rfl]
  | deleting gone program deleted =>
    refine .deleting gone program ⟨deleted.writes,fun parentId settled removed child found stored under => ?_⟩
    rw [lookup_writing written] at stored
    split at stored
    next same =>
      cases stored
      subst same
      exfalso
      -- the parent's row is locked against the reference, or the row was its subtask before
      rcases (written.nested parentId under).held with waiting | ⟨shared,-⟩ | ⟨before,stored,same⟩
      · rw [done] at waiting
        cases waiting
      · exact beside.referred parentId shared (deleted.writes parentId none removed).2
      · have also := deleted.followed parentId settled removed child before stored same
        rw [beside.disjoint child _ mine] at also
        cases also
    next => exact deleted.followed parentId settled removed child found stored under

theorem stage_after_deleting {gone : List String} (deleted : Deleting tasks transaction gone)
    (beside : Beside transaction right) (stage : Stage home tasks right) :
    Stage home (overlay tasks transaction.writes) right := by
  cases stage with
  | opened untouched ready => exact .opened untouched ready
  | writing child childRow theirs =>
    refine .writing child childRow ⟨theirs.writes,theirs.homed,theirs.program,fun parentId under => ?_⟩
    obtain ⟨apart,kin,top,childless,held⟩ := theirs.nested parentId under
    have written : right.writes.lookup child = some (some childRow) := by rw [theirs.writes,if_pos rfl]
    refine ⟨apart,kin,fun above stored => top above ((lookup_deleting deleted).mp stored).1,
      fun grandchild found stored => childless grandchild found ((lookup_deleting deleted).mp stored).1,?_⟩
    rcases held with waiting | ⟨shared,above,present⟩ | ⟨before,stored,same⟩
    · exact .inl waiting
    · refine .inr (.inl ⟨shared,above,(lookup_deleting deleted).mpr ⟨present,?_⟩⟩)
      cases removed : transaction.writes.lookup parentId with
      | none => rfl
      | some value => exact absurd shared (beside.barred parentId (deleted.writes parentId value removed).2)
    · exact .inr (.inr ⟨before,(lookup_deleting deleted).mpr ⟨stored,beside.unwritten written⟩,same⟩)
  | deleting others program theirs =>
    refine .deleting others program ⟨theirs.writes,fun parentId settled removed child found stored under => ?_⟩
    exact theirs.followed parentId settled removed child found ((lookup_deleting deleted).mp stored).1 under

end

inductive Applied (organizationId : String) (view : Table String TaskRow) (write : Write) (row : TaskRow) :
    Option String → Prop
  | inserted (absent : view.lookup write.id = none) (same : write = .insert write.id row)
      (deep : oneLevelDeep organizationId view write.id row.parentId = true) :
      Applied organizationId view write row none
  | moved (old : TaskRow) (stored : view.lookup write.id = some old) (owned : old.organizationId = organizationId)
      (kept : row.organizationId = organizationId) (asked : write.parent = row.parentId)
      (deep : oneLevelDeep organizationId view write.id row.parentId = true) :
      Applied organizationId view write row old.parentId
  | unmoved (old : TaskRow) (stored : view.lookup write.id = some old) (owned : old.organizationId = organizationId)
      (kept : row.organizationId = organizationId) (same : row.parentId = old.parentId) :
      Applied organizationId view write row old.parentId

theorem apply_proceeds {organizationId : String} {write : Write} {view : Table String TaskRow}
    {locks : List (String × Mode)} {writes : List (String × Option TaskRow)} {program : Program}
    (proceeded : statement (.apply organizationId write) view = .proceed locks writes program) :
    ∃ row before, Applied organizationId view write row before ∧ locks = [] ∧ writes = [(write.id,some row)] ∧
      program = afterWrite before row.parentId := by
  cases write with
  | insert id row =>
    simp only [statement] at proceeded
    split at proceeded
    next => cases proceeded
    next absent =>
      split at proceeded <;> cases proceeded
      next deep => exact ⟨row,none,.inserted (by simpa [Write.id] using absent) rfl deep,rfl,rfl,rfl⟩
  | set id changes status expected now =>
    simp only [statement] at proceeded
    split at proceeded
    next => cases proceeded
    next old stored =>
      split at proceeded
      next => cases proceeded
      next guarded =>
        simp only [Bool.or_eq_true,decide_eq_true_eq,not_or,not_not] at guarded
        split at proceeded <;> cases proceeded
        next passed =>
          refine ⟨_,old.parentId,?_,rfl,rfl,rfl⟩
          cases asked : changes.parentId with
          | none => exact .unmoved old stored guarded.1 guarded.1 (by simp [written,asked])
          | some parentId =>
            refine .moved old stored guarded.1 guarded.1 (by simp [written,Write.parent,asked]) ?_
            simpa [asked,written,Write.id] using passed

theorem commits {program : Program} {view : Table String TaskRow} {rest : Option Program}
    (settled : statement program view = .commit rest) :
    rest = none ∧ (∀ parentId, program ≠ .reference parentId) ∧
      ∀ gone, program = .cascade gone →
        ∀ id row parentId, view.lookup id = some row → row.parentId = some parentId → parentId ∉ gone := by
  cases program with
  | assertParent organizationId parentId write =>
    cases parentId with
    | none => cases settled
    | some parentId =>
      simp only [statement] at settled
      split at settled
      next => split at settled <;> cases settled
      next => cases settled
  | apply organizationId write =>
    refine ⟨?_,nofun,nofun⟩
    cases write with
    | insert id row =>
      simp only [statement] at settled
      split at settled
      next => cases settled
      next => split at settled <;> cases settled
    | set id changes status expected now =>
      simp only [statement] at settled
      split at settled
      next => cases settled; rfl
      next =>
        split at settled
        next => cases settled; rfl
        next => split at settled <;> cases settled
  | reference parentId =>
    simp only [statement] at settled
    split at settled <;> cases settled
  | remove organizationId id userId isOrganizationAdmin =>
    refine ⟨?_,nofun,nofun⟩
    simp only [statement] at settled
    split at settled
    next => cases settled; rfl
    next => split at settled <;> cases settled; rfl
  | cascade gone =>
    simp only [statement] at settled
    split at settled <;> cases settled
    next childless =>
      refine ⟨rfl,nofun,fun gone' same id row parentId stored under member => ?_⟩
      cases same
      have listed : id ∈ (view.rows.filter (fun task => task.2.parentId.any (fun parentId => gone.contains parentId))).map
          Prod.fst := by
        refine mem_map.mpr ⟨(id,row),mem_filter.mpr ⟨mem_rows.mpr stored,?_⟩,rfl⟩
        simpa [under] using member
      rw [childless] at listed
      cases listed
  | done =>
    cases settled
    exact ⟨rfl,nofun,nofun⟩

theorem cascade_proceeds {gone : List String} {view : Table String TaskRow} {locks : List (String × Mode)}
    {writes : List (String × Option TaskRow)} {program : Program}
    (proceeded : statement (.cascade gone) view = .proceed locks writes program) :
    ∃ children, program = .cascade children ∧ writes = children.map (fun child => (child,none)) ∧
      ∀ id row parentId, view.lookup id = some row → row.parentId = some parentId → parentId ∈ gone → id ∈ children := by
  simp only [statement] at proceeded
  split at proceeded <;> cases proceeded
  refine ⟨_,rfl,rfl,fun id row parentId stored under member => ?_⟩
  refine mem_map.mpr ⟨(id,row),mem_filter.mpr ⟨mem_rows.mpr stored,?_⟩,rfl⟩
  simpa [under] using member

theorem proceed_writes {program further : Program} {view : Table String TaskRow} {locks : List (String × Mode)}
    {writes : List (String × Option TaskRow)} (proceeded : statement program view = .proceed locks writes further)
    {id : String} {row : TaskRow} (member : (id,some row) ∈ writes) :
    ∃ organizationId write before, program = .apply organizationId write ∧ id = write.id ∧
      Applied organizationId view write row before := by
  cases program with
  | assertParent organizationId parentId write =>
    cases parentId with
    | none => cases proceeded; cases member
    | some parentId =>
      simp only [statement] at proceeded
      split at proceeded
      next =>
        split at proceeded <;> cases proceeded
        cases member
      next => cases proceeded
  | apply organizationId write =>
    obtain ⟨written,before,applied,rfl,rfl,rfl⟩ := apply_proceeds proceeded
    cases mem_singleton.mp member
    exact ⟨organizationId,write,before,rfl,rfl,applied⟩
  | reference parentId =>
    simp only [statement] at proceeded
    split at proceeded <;> cases proceeded
    cases member
  | remove organizationId key userId isOrganizationAdmin =>
    simp only [statement] at proceeded
    split at proceeded
    next => cases proceeded
    next =>
      split at proceeded <;> cases proceeded
      cases mem_singleton.mp member
  | cascade gone =>
    obtain ⟨children,rfl,rfl,-⟩ := cascade_proceeds proceeded
    obtain ⟨child,-,same⟩ := mem_map.mp member
    cases same
  | done => cases proceeded

theorem applied_nested (homed : Homed home tasks) (level : OneLevel tasks) {organizationId parentId : String}
    {write : Write} {row : TaskRow} {before : Option String} (applied : Applied organizationId tasks write row before)
    (belongs : Belongs home organizationId write)
    (kin : ∀ parentId, write.parent = some parentId → home parentId = organizationId)
    (under : row.parentId = some parentId) (proceeding : transaction.program = afterWrite before row.parentId) :
    Nested home tasks transaction write.id parentId := by
  have checked (deep : oneLevelDeep organizationId tasks write.id row.parentId = true)
      (same : home parentId = organizationId)
      (mine : ∀ child found, tasks.lookup child = some found → found.parentId = some write.id →
        found.organizationId = organizationId) :
      parentId ≠ write.id ∧ (∀ found, tasks.lookup parentId = some found → found.parentId = none) ∧
        ∀ child found, tasks.lookup child = some found → found.parentId ≠ some write.id := by
    rw [under,oneLevelDeep_iff] at deep
    obtain ⟨apart,top,childless⟩ := deep
    refine ⟨apart,fun found stored => top found stored ((homed parentId found stored).trans same),
      fun child found stored nested => ?_⟩
    exact childless child found stored (mine child found stored nested) nested
  cases applied with
  | inserted absent same deep =>
    have kin : home parentId = organizationId := kin parentId (by rw [same]; exact under)
    obtain ⟨apart,top,childless⟩ := checked deep kin (fun child found stored nested => by
      obtain ⟨parent,present,-⟩ := level child found write.id stored nested
      rw [absent] at present
      cases present)
    refine ⟨apart,?_,top,childless,.inl ?_⟩
    · rw [same] at belongs
      exact kin.trans belongs.1.symm
    · rw [proceeding,under]
      simp [afterWrite]
  | moved old stored owned kept asked deep =>
    have kin : home parentId = organizationId := kin parentId (asked.trans under)
    obtain ⟨apart,top,childless⟩ := checked deep kin (fun child found there nested => by
      obtain ⟨parent,present,-,same⟩ := level child found write.id there nested
      cases stored.symm.trans present
      rw [← same,owned])
    refine ⟨apart,?_,top,childless,?_⟩
    · rw [kin,← owned,homed write.id old stored]
    · rw [proceeding,under]
      by_cases same : old.parentId = some parentId
      · exact .inr (.inr ⟨old,stored,same⟩)
      · exact .inl (by simp [afterWrite,same])
  | unmoved old stored owned kept same =>
    rw [same] at under
    obtain ⟨parent,present,top,organization⟩ := level write.id old parentId stored under
    refine ⟨fun own => ?_,?_,fun found there => ?_,fun child found there nested => ?_,.inr (.inr ⟨old,stored,under⟩)⟩
    · subst own
      cases stored.symm.trans present
      rw [under] at top
      cases top
    · rw [← homed parentId parent present,organization,homed write.id old stored]
    · cases present.symm.trans there
      exact top
    · obtain ⟨again,here,bare,-⟩ := level child found write.id there nested
      cases stored.symm.trans here
      rw [under] at bare
      cases bare

theorem applied_homed (homed : Homed home tasks) {organizationId : String} {write : Write} {row : TaskRow}
    {before : Option String} (applied : Applied organizationId tasks write row before)
    (belongs : Belongs home organizationId write) : row.organizationId = home write.id := by
  cases applied with
  | inserted absent same deep =>
    rw [same] at belongs ⊢
    rw [belongs.2,← belongs.1]
    rfl
  | moved old stored owned kept asked deep | unmoved old stored owned kept same => rw [kept,← owned,homed write.id old stored]

theorem afterWrite_cases (before after : Option String) :
    afterWrite before after = .done ∨ ∃ parentId, afterWrite before after = .reference parentId ∧ after = some parentId := by
  unfold afterWrite
  split
  · exact .inl rfl
  · split
    · exact .inl rfl
    · exact .inr ⟨_,rfl,rfl⟩

theorem opening_ready (home : String → String) {request : Request} (minted : Minted home (.start session request)) :
    Ready home (opening request) := by
  cases request with
  | create organizationId createdBy id body assigneeId parentId => exact ⟨rfl,minted,rfl⟩
  | update organizationId id changes status expected now =>
    simp only [opening]
    split
    next parentId asked => exact ⟨by simp [Write.parent,asked],trivial⟩
    next asked => exact ⟨trivial,fun parentId same => by simp [Write.parent,asked] at same⟩
  | remove organizationId id userId isOrganizationAdmin => trivial

theorem view_untouched (untouched : transaction.writes = ∅) : db.view transaction = db.committed := by
  rw [Database.view,untouched]
  rfl

theorem stage_proceed (steady : Steady home db) {locks : List (String × Mode)} {writes : List (String × Option TaskRow)}
    {program : Program} (stage : Stage home db.committed transaction)
    (proceeded : statement transaction.program (db.view transaction) = .proceed locks writes program) :
    Stage home db.committed (transaction.advance locks writes program) := by
  cases stage with
  | opened untouched ready =>
    rw [view_untouched untouched] at proceeded
    cases running : transaction.program with
    | assertParent organizationId parentId write =>
      rw [running] at proceeded ready
      cases parentId with
      | none =>
        cases proceeded
        refine .opened ?_ ⟨ready.2,fun parentId same => ?_⟩
        · simp [Transaction.advance,untouched,AList.fill]
        · rw [ready.1] at same
          cases same
      | some parentId =>
        simp only [statement] at proceeded
        split at proceeded
        next parent present =>
          split at proceeded <;> cases proceeded
          next same =>
            refine .opened ?_ ⟨ready.2,fun other asked => ?_⟩
            · simp [Transaction.advance,untouched,AList.fill]
            · cases ready.1.symm.trans asked
              rw [← same,steady.homed parentId parent present]
        next => cases proceeded
    | apply organizationId write =>
      rw [running] at proceeded ready
      obtain ⟨row,before,applied,rfl,rfl,rfl⟩ := apply_proceeds proceeded
      refine .writing write.id row ⟨fun key => ?_,applied_homed steady.homed applied ready.1,?_,fun parentId under => ?_⟩
      · change (AList.fill transaction.writes [(write.id,some row)]).lookup key = _
        rw [untouched]
        exact (lookup_insert_eq _ _ _ _).trans (by rw [lookup_empty])
      · exact afterWrite_cases before row.parentId
      · exact applied_nested steady.homed steady.level applied ready.1 ready.2 under rfl
    | remove organizationId id userId isOrganizationAdmin =>
      rw [running] at proceeded
      simp only [statement] at proceeded
      split at proceeded
      next => cases proceeded
      next =>
        split at proceeded <;> cases proceeded
        have only {key : String} {value : Option TaskRow}
            (written : (AList.fill transaction.writes [(id,none)]).lookup key = some value) : key = id ∧ value = none := by
          rcases lookup_fill_some written with later | before
          · cases mem_singleton.mp later
            exact ⟨rfl,rfl⟩
          · rw [untouched] at before
            cases before
        refine .deleting [id] rfl ⟨fun key value written => ?_,fun key settled removed => ?_⟩
        · obtain ⟨rfl,rfl⟩ := only written
          exact ⟨rfl,mem_append_right _ mem_cons_self⟩
        · exact absurd (mem_singleton.mpr (only removed).1) settled
    | reference parentId | cascade gone | done => rw [running] at ready; cases ready
  | writing id row written =>
    rcases written.program with done | ⟨parentId,waiting,under⟩
    · rw [done] at proceeded
      cases proceeded
    · rw [waiting] at proceeded
      simp only [statement] at proceeded
      split at proceeded <;> cases proceeded
      next present =>
        refine .writing id row ⟨written.writes,written.homed,.inl rfl,fun above nested => ?_⟩
        cases under.symm.trans nested
        obtain ⟨apart,kin,top,childless,held⟩ := written.nested parentId under
        refine ⟨apart,kin,top,childless,.inr (.inl ⟨mem_append_right _ mem_cons_self,?_⟩)⟩
        rw [Database.view,lookup_writing written,if_neg apart] at present
        exact isSome_iff_exists.mp present
  | deleting gone program deleted =>
    rw [program] at proceeded
    obtain ⟨children,rfl,rfl,followed⟩ := cascade_proceeds proceeded
    have listed {id : String} {value : Option TaskRow}
        (member : (id,value) ∈ children.map (fun child => (child,(none : Option TaskRow)))) : id ∈ children ∧ value = none := by
      obtain ⟨child,inside,same⟩ := mem_map.mp member
      cases same
      exact ⟨inside,rfl⟩
    have taken {id : String} (gone : id ∈ children ∨ transaction.writes.lookup id = some none) :
        (AList.fill transaction.writes (children.map (fun child => (child,none)))).lookup id = some none := by
      by_cases inside : id ∈ children
      · exact lookup_fill_agree (by simpa using inside) (fun value member => (listed member).2)
      · exact (lookup_fill_of_notMem (by simpa using inside)).trans (gone.resolve_left inside)
    refine .deleting children rfl ⟨fun id value written => ?_,fun id settled removed child row stored under => taken ?_⟩
    · rcases lookup_fill_some written with later | before
      · obtain ⟨inside,rfl⟩ := listed later
        refine ⟨rfl,mem_append_right _ (mem_append_right _ ?_)⟩
        exact mem_map.mpr ⟨(id,none),later,rfl⟩
      · exact ⟨(deleted.writes id value before).1,mem_append_left _ (deleted.writes id value before).2⟩
    · have before : transaction.writes.lookup id = some none := by
        rcases lookup_fill_some removed with later | before
        · exact absurd (listed later).1 settled
        · exact before
      by_cases pending : id ∈ gone
      · cases written : transaction.writes.lookup child with
        | none => exact .inl (followed child row id ((lookup_deleting deleted).mpr ⟨stored,written⟩) under pending)
        | some value => exact .inr (congrArg some (deleted.writes child value written).1)
      · exact .inr (deleted.followed id pending before child row stored under)

theorem Stage.nested {right : Transaction String TaskRow Program} (stage : Stage home tasks right) {id parentId : String}
    {row : TaskRow} (written : right.writes.lookup id = some (some row)) (under : row.parentId = some parentId) :
    Nested home tasks right id parentId := by
  cases stage with
  | opened untouched ready =>
    rw [untouched] at written
    cases written
  | writing key found theirs =>
    rw [theirs.writes] at written
    obtain ⟨same,written⟩ := of_when written
    cases written
    subst same
    exact theirs.nested parentId under
  | deleting gone program deleted => cases (deleted.writes id _ written).1

theorem cross_applied (steady : Steady home db) {organizationId : String} {write : Write} {row : TaskRow}
    {before : Option String} (applied : Applied organizationId db.committed write row before)
    (alone : ∀ parentId, write.parent = some parentId → Alone db session write.id parentId) {second : Nat}
    {right : Transaction String TaskRow Program} (different : second ≠ session)
    (there : db.running.lookup second = some right) :
    (∀ parentId above, row.parentId = some parentId → right.writes.lookup parentId = some (some above) →
      above.parentId = none) ∧
      ∀ child found, right.writes.lookup child = some (some found) → found.parentId = some write.id → row.parentId = none := by
  have asked (same : write.parent = row.parentId) :
      (∀ parentId above, row.parentId = some parentId → right.writes.lookup parentId = some (some above) →
        above.parentId = none) ∧
        ∀ child found, right.writes.lookup child = some (some found) → found.parentId = some write.id →
          row.parentId = none := by
    constructor
    · intro parentId above under written
      exact (alone parentId (same.trans under) second right different there).1 above written
    · intro child found written nested
      cases under : row.parentId with
      | none => rfl
      | some parentId =>
        exact absurd nested ((alone parentId (same.trans under) second right different there).2 child found written)
  cases applied with
  | inserted absent same deep => exact asked (by rw [same]; rfl)
  | moved old stored owned kept same deep => exact asked same
  | unmoved old stored owned kept same =>
    have stage := steady.stages second right there
    constructor
    · intro parentId above under written
      cases nested : above.parentId with
      | none => rfl
      | some upper =>
        exact absurd (same ▸ under) ((stage.nested written nested).childless write.id old stored)
    · intro child found written nested
      rw [same]
      exact (stage.nested written nested).top old stored

theorem cross_proceed (steady : Steady home db) (unmet : Unmet db (.execute session))
    (here : db.running.lookup session = some transaction) {locks : List (String × Mode)}
    {writes : List (String × Option TaskRow)} {program : Program}
    (proceeded : statement transaction.program (db.view transaction) = .proceed locks writes program) {second : Nat}
    {right : Transaction String TaskRow Program} (different : second ≠ session)
    (there : db.running.lookup second = some right) {id child : String} {row found : TaskRow}
    (written : (transaction.advance locks writes program).writes.lookup id = some (some row))
    (theirs : right.writes.lookup child = some (some found)) :
    (row.parentId = some child → found.parentId = none) ∧ (found.parentId = some id → row.parentId = none) := by
  rcases lookup_fill_some written with later | before
  · obtain ⟨organizationId,write,before,running,rfl,applied⟩ := proceed_writes proceeded later
    have stage := steady.stages session transaction here
    have untouched : transaction.writes = ∅ := by
      cases stage with
      | opened untouched ready => exact untouched
      | writing key other mine =>
        rcases mine.program with done | ⟨parentId,waiting,-⟩
        · rw [running] at done
          cases done
        · rw [running] at waiting
          cases waiting
      | deleting gone cascading deleted =>
        rw [running] at cascading
        cases cascading
    rw [view_untouched untouched] at applied
    have cross := cross_applied steady applied
      (fun parentId asked => unmet transaction organizationId write parentId here running asked) different there
    exact ⟨fun under => cross.1 child found under theirs,fun nested => cross.2 child found theirs nested⟩
  · exact ⟨fun under => steady.cross session second transaction right (Ne.symm different) here there id row child found
      before under theirs,fun nested => steady.cross second session right transaction different there here child found id
      row theirs nested before⟩

theorem steady_settle (steady : Steady home db) (here : db.running.lookup session = some transaction) {rest : Option Program}
    (settled : statement transaction.program (db.view transaction) = .commit rest)
    (orderly : Orderly (db.settle session transaction rest)) : Steady home (db.settle session transaction rest) := by
  obtain ⟨rfl,unreferenced,followed⟩ := commits settled
  have kept {second : Nat} {right : Transaction String TaskRow Program}
      (there : (db.settle session transaction none).running.lookup second = some right) :
      session ≠ second ∧ db.running.lookup second = some right := by
    simp only [Database.settle,lookup_erase_eq] at there
    obtain ⟨different,there⟩ := of_unless there
    exact ⟨Ne.symm different,there⟩
  have crossed : ∀ first second left right, first ≠ second →
      (db.settle session transaction none).running.lookup first = some left →
      (db.settle session transaction none).running.lookup second = some right → ∀ id row parentId above,
      left.writes.lookup id = some (some row) → row.parentId = some parentId →
      right.writes.lookup parentId = some (some above) → above.parentId = none := by
    intro first second left right different one two
    exact steady.cross first second left right different (kept one).2 (kept two).2
  have removed {gone : List String} (deleted : Deleting db.committed transaction gone)
      (through : ∀ id row parentId, (db.view transaction).lookup id = some row → row.parentId = some parentId →
        parentId ∉ gone) : Steady home (db.settle session transaction none) := by
    refine ⟨orderly,fun id row stored => ?_,deleting_level steady.level deleted through,fun second right there => ?_,crossed⟩
    · exact steady.homed id row ((lookup_deleting deleted).mp stored).1
    · obtain ⟨different,there⟩ := kept there
      exact stage_after_deleting deleted (steady.beside different here there) (steady.stages second right there)
  cases steady.stages session transaction here with
  | opened untouched ready =>
    refine @removed [] ⟨fun id value written => ?_,fun id _ written => ?_⟩ (fun _ _ _ _ _ member => by cases member)
    all_goals
      rw [untouched] at written
      cases written
  | writing id row written =>
    have done : transaction.program = .done := by
      rcases written.program with done | ⟨parentId,waiting,-⟩
      · exact done
      · exact absurd waiting (unreferenced parentId)
    refine ⟨orderly,writing_homed steady.homed written,writing_level steady.level steady.homed written done,
      fun second right there => ?_,crossed⟩
    obtain ⟨different,there⟩ := kept there
    exact stage_after_writing written done (steady.beside different here there) (steady.stages second right there)
  | deleting gone cascading deleted => exact removed deleted (followed gone cascading)

theorem steady_step (steady : Steady home db) (minted : Minted home action) (unmet : Unmet db action)
    (taken : system.step db action = some next) : Steady home next := by
  have orderly := orderly_step steady.orderly taken
  rcases step_cases taken with ⟨session,request,rfl,closed,rfl⟩ | ⟨session,rfl⟩ |
    ⟨session,transaction,rest,-,found,settled,rfl⟩ |
    ⟨session,transaction,locks,writes,program,rfl,found,proceeded,-,rfl⟩
  · refine ⟨orderly,steady.homed,steady.level,fun other right there => ?_,
      fun first second left right different here there => ?_⟩
    · simp only [Database.progress,lookup_insert_eq] at there
      split at there
      next => cases there; exact .opened rfl (opening_ready home minted)
      next => exact steady.stages other right there
    · intro id row parentId above written under also
      simp only [Database.progress,lookup_insert_eq] at here there
      split at here
      next => cases here; cases written
      next =>
        split at there
        next => cases there; cases also
        next => exact steady.cross first second left right different here there id row parentId above written under also
  · have kept {other : Nat} {right : Transaction String TaskRow Program}
        (there : (db.rollBack session).running.lookup other = some right) : db.running.lookup other = some right := by
      simp only [Database.rollBack,lookup_erase_eq] at there
      obtain ⟨-,there⟩ := of_unless there
      exact there
    refine ⟨orderly,steady.homed,steady.level,fun other right there => steady.stages other right (kept there),
      fun first second left right different here there => ?_⟩
    exact steady.cross first second left right different (kept here) (kept there)
  · exact steady_settle steady found settled orderly
  · refine ⟨orderly,steady.homed,steady.level,fun other right there => ?_,
      fun first second left right different here there => ?_⟩
    · simp only [Database.progress,lookup_insert_eq] at there
      split at there
      next => cases there; exact stage_proceed steady (steady.stages session transaction found) proceeded
      next => exact steady.stages other right there
    · intro id row parentId above written under also
      simp only [Database.progress,lookup_insert_eq] at here there
      split at here
      next same =>
        cases here
        rw [if_neg (fun also => different (same.trans also.symm))] at there
        exact (cross_proceed steady unmet found proceeded (fun also => different (same.trans also.symm)) there written
          also).1 under
      next apart =>
        split at there
        next => cases there; exact (cross_proceed steady unmet found proceeded apart here also written).2 under
        next => exact steady.cross first second left right different here there id row parentId above written under also

theorem quiet_steady {start : Table String TaskRow} (level : OneLevel start) (homed : Homed home start) :
    Steady home (quiet start) := by
  refine ⟨quiet_orderly start,homed,level,fun session transaction found => ?_,fun first second left right _ found => ?_⟩
  · cases found
  · cases found

/-- Where a task is put under another one only while no other transaction is about to nest either
of them, every committed state is one level deep, has no cycle and nests within organizations. -/
theorem subtasks_one_level {start : Table String TaskRow} (level : OneLevel start) (homed : Homed home start)
    {actions : List (Action Request Nat)} {final : Tasks}
    (admitted : Machine.Meets system.step (fun tasks action => Minted home action ∧ Unmet tasks action) (quiet start) actions)
    (ran : Machine.run system.step (quiet start) actions = some final) :
    OneLevel final.committed ∧ ∀ id, ¬Relation.TransGen (Under final.committed) id id := by
  have steady := run_invariant system.step
    (fun _ _ _ steady admits taken => steady_step steady admits.1 admits.2 taken) (quiet_steady level homed) admitted ran
  exact ⟨steady.level,steady.level.acyclic⟩

def office : String → String := fun _ => "office"

def pair : Table String TaskRow :=
  (∅ : Table String TaskRow).fill
    [("paint",created "office" "ayse" "Paint the wall" none none),("sand",created "office" "ayse" "Sand the wall" none none)]

def nesting (parentId : String) : Changes := ⟨none,none,none,none,none,none,none,none,some (some parentId)⟩

def nest (id parentId : String) : Request := .update "office" id (nesting parentId) none
  (created "office" "ayse" id none none) 0

private theorem pair_rows {id : String} {row : TaskRow} (stored : pair.lookup id = some row) :
    row.organizationId = "office" ∧ row.parentId = none := by
  rcases lookup_fill_some stored with member | before
  · simp only [mem_cons,not_mem_nil,or_false,Prod.mk.injEq] at member
    rcases member with ⟨-,rfl⟩ | ⟨-,rfl⟩ <;> exact ⟨rfl,rfl⟩
  · cases before

private theorem pair_level : OneLevel pair := by
  intro id row parentId stored under
  rw [(pair_rows stored).2] at under
  cases under

private theorem meets_single {actions : List (Action Request Nat)}
    (single : ∀ action ∈ actions, action = .execute 0 ∨ action = .start 0 (nest "paint" "sand")) (db : Tasks)
    (only : ∀ session transaction, db.running.lookup session = some transaction → session = 0) :
    Machine.Meets system.step (fun tasks action => Minted office action ∧ Unmet tasks action) db actions := by
  induction actions generalizing db with
  | nil => trivial
  | cons action rest ih =>
    refine ⟨?_,?_⟩
    · rcases single action mem_cons_self with rfl | rfl
      · refine ⟨trivial,fun transaction organizationId write parentId _ _ _ other right different there => ?_⟩
        exact absurd (only other right there) different
      · exact ⟨trivial,trivial⟩
    · cases taken : system.step db action with
      | none => trivial
      | some next =>
        refine ih (fun other member => single other (mem_cons_of_mem _ member)) next (fun session transaction found => ?_)
        rcases step_cases taken with ⟨opened,request,rfl,-,rfl⟩ | ⟨opened,rfl⟩ | ⟨opened,before,rest,rfl,-,settled,rfl⟩ |
          ⟨opened,before,locks,writes,program,rfl,here,-,-,rfl⟩
        · simp only [Database.progress,lookup_insert_eq] at found
          split at found
          next same =>
            rcases single _ mem_cons_self with executed | started
            · cases executed
            · cases started
              exact same
          next => exact only session transaction found
        · simp only [Database.rollBack,lookup_erase_eq] at found
          obtain ⟨-,found⟩ := of_unless found
          exact only session transaction found
        · obtain ⟨rfl,-⟩ := commits settled
          simp only [Database.settle,lookup_erase_eq] at found
          obtain ⟨-,found⟩ := of_unless found
          exact only session transaction found
        · simp only [Database.progress,lookup_insert_eq] at found
          split at found
          next same => exact same.trans (only opened before here)
          next => exact only session transaction found

theorem subtasks_one_level_alone : ∃ final : Tasks, Machine.run system.step (quiet pair)
      [.start 0 (nest "paint" "sand"),.execute 0,.execute 0,.execute 0,.execute 0] = some final ∧
    OneLevel final.committed ∧ final.committed.lookup "paint" =
      some { created "office" "ayse" "Paint the wall" none none with parentId := some "sand" } := by
  have computed : (Machine.run system.step (quiet pair : Tasks)
      [.start 0 (nest "paint" "sand"),.execute 0,.execute 0,.execute 0,.execute 0]).any (fun final =>
        decide (final.committed.lookup "paint" =
          some { created "office" "ayse" "Paint the wall" none none with parentId := some "sand" })) = true := by
    decide +kernel
  obtain ⟨final,ran,nested⟩ := (any_eq_true _ _).mp computed
  have admitted := @meets_single [.start 0 (nest "paint" "sand"),.execute 0,.execute 0,.execute 0,.execute 0] (by simp)
    (quiet pair) (fun _ _ found => by cases found)
  exact ⟨final,ran,(subtasks_one_level pair_level (fun id row stored => (pair_rows stored).1) admitted ran).1,
    of_decide_eq_true nested⟩

/-- Two tasks nested under one another, each transaction before the other's commit. -/
theorem subtasks_nested_twice : ¬∀ (home : String → String) (start : Table String TaskRow)
    (actions : List (Action Request Nat)) (final : Tasks), OneLevel start → Homed home start →
    Machine.Meets system.step (fun _ action => Minted home action) (quiet start) actions →
    Machine.run system.step (quiet start) actions = some final →
    OneLevel final.committed ∧ ∀ id, ¬Relation.TransGen (Under final.committed) id id := by
  intro claimed
  have computed : (Machine.run system.step (quiet pair : Tasks)
      [.start 0 (nest "paint" "sand"),.start 1 (nest "sand" "paint"),.execute 0,.execute 1,.execute 0,.execute 1,
        .execute 0,.execute 1,.execute 0,.execute 1]).any (fun final =>
        decide ((final.committed.lookup "paint").bind (fun row => row.parentId) = some "sand" ∧
          (final.committed.lookup "sand").bind (fun row => row.parentId) = some "paint")) = true := by
    decide +kernel
  obtain ⟨final,ran,nested⟩ := (any_eq_true _ _).mp computed
  obtain ⟨first,second⟩ := of_decide_eq_true nested
  obtain ⟨paint,here,under⟩ := bind_eq_some_iff.mp first
  obtain ⟨sand,there,back⟩ := bind_eq_some_iff.mp second
  refine (claimed office pair _ final pair_level (fun id row stored => (pair_rows stored).1) ?_ ran).2 "paint"
    (.tail (.single ⟨paint,here,under⟩) ⟨sand,there,back⟩)
  refine meets_of_mem system.step (fun _ action member => ?_) _
  simp only [mem_cons,not_mem_nil,or_false] at member
  rcases member with rfl | rfl | rfl | rfl | rfl | rfl | rfl | rfl | rfl | rfl <;> trivial

end Depsis.Desk.Subtasks

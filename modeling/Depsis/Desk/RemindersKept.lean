import Depsis.Desk.Reminders

/-! What a sweep keeps: reminders a day apart in every run, and a reminder for every task that
stays due, where a sweep finds no more than it takes.
-/
namespace Depsis.Desk.Reminders

open Depsis.Foundation List AList Machine

variable {state next final : State} {event : Event} {id assigneeId : String} {late : Bool}

theorem candidate_some {row : TaskRow} {item : Selected} (found : candidate state id row = some item) :
    item.id = id ∧ enabled state.users item.assigneeId = true ∧ ∀ notification ∈ state.notifications,
      notification.about item.id item.assigneeId item.late = true → notification.createdAt + DAY ≤ state.now := by
  simp only [candidate] at found
  split at found
  next dueAt assigneeId _ _ =>
    obtain ⟨chosen,found⟩ := of_when found
    cases found
    simp only [Bool.and_eq_true,Bool.not_eq_true',any_eq_false] at chosen
    refine ⟨rfl,chosen.1.1.1.1,fun notification member about => ?_⟩
    have old := chosen.2 notification member
    rw [about] at old
    simp only [true_and,decide_eq_true_eq] at old
    omega
  next => cases found

theorem mem_candidates {item : Selected} (member : item ∈ candidates state) :
    (∃ row, state.tasks.lookup item.id = some row) ∧ enabled state.users item.assigneeId = true ∧
      ∀ notification ∈ state.notifications,
        notification.about item.id item.assigneeId item.late = true → notification.createdAt + DAY ≤ state.now := by
  obtain ⟨⟨id,row⟩,stored,found⟩ := mem_filterMap.mp member
  obtain ⟨rfl,facts⟩ := candidate_some found
  exact ⟨⟨row,mem_rows.mp stored⟩,facts⟩

theorem ids_candidates (state : State) : ((candidates state).map Selected.id).Nodup := by
  have inside : ((candidates state).map Selected.id).Sublist (state.tasks.rows.map Prod.fst) := by
    rw [candidates]
    induction state.tasks.rows with
    | nil => exact .slnil
    | cons task rest ih =>
      rw [filterMap_cons]
      split
      next => exact ih.cons task.1
      next item found =>
        rw [map_cons,map_cons,(candidate_some found).1]
        exact ih.cons_cons task.1
  exact state.tasks.rows_nodup.sublist inside

theorem candidates_nodup (state : State) : (candidates state).Nodup := List.Nodup.of_map _ (ids_candidates state)

theorem ids_answer {batch : List Selected} (answered : Answer state batch) : (batch.map Selected.id).Nodup := by
  obtain ⟨listed,perm,sublist⟩ := answered.1
  exact (perm.map Selected.id).nodup_iff.mp ((ids_candidates state).sublist (sublist.map Selected.id))

theorem answered_always {item : Selected} (member : item ∈ candidates state) :
    (∀ batch, Answer state batch → item ∈ batch) ↔ (candidates state).length ≤ BATCH := by
  constructor
  · intro always
    by_contra many
    have shorter := length_erase_of_mem member
    have answered : Answer state (((candidates state).erase item).take BATCH) := by
      refine ⟨((take_sublist _ _).trans erase_sublist).subperm,?_⟩
      rw [length_take]
      omega
    have still := mem_of_mem_take (always _ answered)
    exact (candidates_nodup state).not_mem_erase still
  · intro few batch answered
    have whole := answered.1.perm_of_length_le (by rw [answered.2]; omega)
    exact whole.mem_iff.mpr member

theorem inserted_eq (state : State) (notifications : List Notification) (items : List Selected) :
    ∃ chosen : List Selected, chosen.Sublist items ∧ inserted state notifications items = chosen.map (reminder state.now) ∧
      ∀ item ∈ chosen, enabled state.users item.assigneeId = true := by
  induction items generalizing notifications with
  | nil => exact ⟨[],.slnil,rfl,nofun⟩
  | cons item rest ih =>
    rw [inserted]
    split
    next taken =>
      obtain ⟨chosen,sublist,same,able⟩ := ih (notifications ++ [reminder state.now item])
      refine ⟨item::chosen,sublist.cons_cons item,by rw [same,map_cons],fun other member => ?_⟩
      rcases mem_cons.mp member with rfl | later
      · exact (Bool.and_eq_true _ _ ▸ taken).1
      · exact able other later
    next =>
      obtain ⟨chosen,sublist,same,able⟩ := ih notifications
      exact ⟨chosen,sublist.cons item,same,able⟩

variable {notifications : List Notification} {items : List Selected}

theorem inserted_about {item : Selected}
    (member : item ∈ items) (able : enabled state.users item.assigneeId = true) :
    ∃ notification ∈ notifications ++ inserted state notifications items,
      notification.about item.id item.assigneeId item.late = true := by
  induction items generalizing notifications with
  | nil => cases member
  | cons first rest ih =>
    rw [inserted]
    rcases mem_cons.mp member with rfl | later
    · rw [able,Bool.true_and]
      by_cases conflict : conflicts notifications item = true
      · obtain ⟨notification,there,about⟩ := any_eq_true.mp conflict
        exact ⟨notification,mem_append_left _ there,(Bool.and_eq_true _ _ ▸ about).1⟩
      · rw [if_pos (by simpa using conflict)]
        refine ⟨reminder state.now item,mem_append_right _ mem_cons_self,?_⟩
        simp [Notification.about,reminder]
    · split
      · obtain ⟨notification,there,about⟩ := @ih (notifications ++ [reminder state.now first]) later
        exact ⟨notification,by simpa using there,about⟩
      · exact ih later

def Present (state : State) (id : String) (notification : Notification) : Prop :=
  (∃ row, state.tasks.lookup id = some row) ∧ (∃ disabledAt, state.users.lookup notification.userId = some disabledAt) ∧
    ∃ other ∈ state.notifications, other.taskId = notification.taskId ∧ other.userId = notification.userId ∧
      other.kind = notification.kind ∧ other.createdAt = notification.createdAt

structure Kept (state : State) : Prop where
  tasks : ∀ id row, state.tasks.lookup id = some row → id ∉ state.retiredTasks
  users : ∀ id disabledAt, state.users.lookup id = some disabledAt → id ∉ state.retiredUsers
  stored : ∀ notification ∈ state.reminders, ∃ id, notification.taskId = some id ∧
    (id ∈ state.retiredTasks ∨ notification.userId ∈ state.retiredUsers ∨ Present state id notification)
  spaced : Spaced state.reminders
  batch : ∀ items, state.batch = some items → (items.map Selected.id).Nodup ∧ ∀ item ∈ items,
    ∀ notification ∈ state.reminders, notification.about item.id item.assigneeId item.late = true →
      notification.createdAt + DAY ≤ state.now

theorem about_iff {notification : Notification} : notification.about id assigneeId late = true ↔
    notification.taskId = some id ∧ notification.userId = assigneeId ∧ notification.kind = kindOf late := by
  simp [Notification.about,and_assoc]

theorem kept_edit (kept : Kept state) {tasks : Table String TaskRow} {users : Table String (Option Int)}
    (freshTasks : ∀ id ∈ tasks.keys, id ∉ state.retiredTasks) (freshUsers : ∀ id ∈ users.keys, id ∉ state.retiredUsers) :
    Kept (edit state tasks users) := by
  refine ⟨fun id row stored retired => ?_,fun id disabledAt stored retired => ?_,fun notification member => ?_,kept.spaced,
    kept.batch⟩
  · rcases mem_append.mp retired with before | now
    · exact freshTasks id (mem_keys.mp (lookup_isSome.mp (Option.isSome_of_eq_some stored))) before
    · have gone := (mem_filter.mp now).2
      rw [show tasks.lookup id = some row from stored] at gone
      cases gone
  · rcases mem_append.mp retired with before | now
    · exact freshUsers id (mem_keys.mp (lookup_isSome.mp (Option.isSome_of_eq_some stored))) before
    · have gone := (mem_filter.mp now).2
      rw [show users.lookup id = some disabledAt from stored] at gone
      cases gone
  · obtain ⟨id,about,either⟩ := kept.stored notification member
    refine ⟨id,about,?_⟩
    rcases either with retired | retired | ⟨⟨row,task⟩,⟨disabledAt,user⟩,other,inside,same,reader,kind,created⟩
    · exact .inl (mem_append_left _ retired)
    · exact .inr (.inl (mem_append_left _ retired))
    · cases stays : tasks.lookup id with
      | none =>
        refine .inl (mem_append_right _ (mem_filter.mpr ⟨?_,by rw [stays]; rfl⟩))
        exact mem_keys.mp (lookup_isSome.mp (Option.isSome_of_eq_some task))
      | some after =>
        cases remains : users.lookup notification.userId with
        | none =>
          refine .inr (.inl (mem_append_right _ (mem_filter.mpr ⟨?_,by rw [remains]; rfl⟩)))
          exact mem_keys.mp (lookup_isSome.mp (Option.isSome_of_eq_some user))
        | some still =>
          refine .inr (.inr ⟨⟨after,stays⟩,⟨still,remains⟩,other,mem_filter.mpr ⟨inside,?_⟩,same,reader,kind,created⟩)
          rw [same,about,reader,remains]
          simp [stays]

theorem Present.onward {notification : Notification} (present : Present state id notification)
    (tasks : next.tasks = state.tasks) (users : next.users = state.users)
    (onward : ∀ other ∈ state.notifications, ∃ after ∈ next.notifications, after.taskId = other.taskId ∧
      after.userId = other.userId ∧ after.kind = other.kind ∧ after.createdAt = other.createdAt) :
    Present next id notification := by
  obtain ⟨task,user,other,inside,same,reader,kind,created⟩ := present
  obtain ⟨after,there,same',reader',kind',created'⟩ := onward other inside
  exact ⟨by rwa [tasks],by rwa [users],after,there,same'.trans same,reader'.trans reader,kind'.trans kind,created'.trans created⟩

theorem kept_selects (kept : Kept state) (answered : Answer state items) :
    Kept { state with batch := some items } := by
  refine ⟨kept.tasks,kept.users,kept.stored,kept.spaced,fun chosen same => ?_⟩
  cases same
  refine ⟨ids_answer answered,fun item member notification reminded about => ?_⟩
  obtain ⟨⟨row,task⟩,able,apart⟩ := mem_candidates (answered.1.subset member)
  obtain ⟨id,mine,either⟩ := kept.stored notification reminded
  obtain ⟨same,reader,kind⟩ := about_iff.mp about
  cases mine.symm.trans same
  have user : state.users.lookup item.assigneeId = some none := by simpa [enabled] using able
  rcases either with retired | retired | ⟨-,-,other,inside,same',reader',kind',created⟩
  · exact absurd retired (kept.tasks _ row task)
  · rw [reader] at retired
    exact absurd retired (kept.users _ none user)
  · have old := apart other inside (about_iff.mpr ⟨same'.trans same,reader'.trans reader,kind'.trans kind⟩)
    rw [created] at old
    exact old

theorem kept_inserts (kept : Kept state) (waiting : state.batch = some items) :
    Kept (notifyMany state items) := by
  obtain ⟨distinct,apart⟩ := kept.batch items waiting
  obtain ⟨chosen,sublist,same,able⟩ := inserted_eq state state.notifications items
  simp only [notifyMany]
  split
  next => exact ⟨kept.tasks,kept.users,kept.stored,kept.spaced,nofun⟩
  next accepted =>
    rw [same] at accepted ⊢
    refine ⟨kept.tasks,kept.users,fun notification member => ?_,?_,nofun⟩
    · rcases mem_append.mp member with before | fresh
      · obtain ⟨id,about,either⟩ := kept.stored notification before
        refine ⟨id,about,either.imp_right (Or.imp_right (fun present => ?_))⟩
        exact present.onward rfl rfl (fun other inside => ⟨other,mem_append_left _ inside,rfl,rfl,rfl,rfl⟩)
      · obtain ⟨item,inside,rfl⟩ := mem_map.mp fresh
        have user : state.users.lookup item.assigneeId = some none := by simpa [enabled] using able item inside
        have task : ∃ row, state.tasks.lookup item.id = some row := by
          by_contra missing
          refine accepted (any_eq_true.mpr ⟨_,fresh,?_⟩)
          have gone : state.tasks.lookup item.id = none :=
            Option.eq_none_iff_forall_ne_some.mpr (fun row found => missing ⟨row,found⟩)
          simp [reminder,gone]
        exact ⟨item.id,rfl,.inr (.inr ⟨task,⟨none,user⟩,_,mem_append_right _ fresh,rfl,rfl,rfl,rfl⟩)⟩
    · refine pairwise_append.mpr ⟨kept.spaced,?_,fun earlier before later fresh => ?_⟩
      · have ids := (sublist.map Selected.id).nodup distinct
        refine pairwise_map.mpr ((pairwise_map.mp ids).imp (fun different task => ?_))
        exact absurd (Option.some.inj task) different
      · obtain ⟨item,inside,rfl⟩ := mem_map.mp fresh
        intro task reader kind
        exact apart item (sublist.subset inside) earlier before (about_iff.mpr ⟨task,reader,kind⟩)

theorem kept_step (kept : Kept state) (taken : step state event = some next) : Kept next := by
  cases event with simp only [step] at taken
  | edits tasks users =>
    obtain ⟨fresh,taken⟩ := of_when taken
    cases taken
    exact kept_edit kept fresh.1 fresh.2
  | elapses time =>
    cases taken
    refine ⟨kept.tasks,kept.users,kept.stored,kept.spaced,fun items waiting => ?_⟩
    obtain ⟨distinct,apart⟩ := kept.batch items waiting
    refine ⟨distinct,fun item member notification reminded about => ?_⟩
    have old := apart item member notification reminded about
    change _ ≤ state.now + _
    omega
  | reads which =>
    cases taken
    refine ⟨kept.tasks,kept.users,fun notification member => ?_,kept.spaced,kept.batch⟩
    obtain ⟨id,about,either⟩ := kept.stored notification member
    refine ⟨id,about,either.imp_right (Or.imp_right (fun present => ?_))⟩
    refine present.onward rfl rfl (fun other inside => ⟨_,mem_map_of_mem inside,?_⟩)
    split <;> exact ⟨rfl,rfl,rfl,rfl⟩
  | tells notification =>
    obtain ⟨-,taken⟩ := of_unless taken
    cases taken
    refine ⟨kept.tasks,kept.users,fun notification member => ?_,kept.spaced,kept.batch⟩
    obtain ⟨id,about,either⟩ := kept.stored notification member
    refine ⟨id,about,either.imp_right (Or.imp_right (fun present => ?_))⟩
    exact present.onward rfl rfl (fun other inside => ⟨other,mem_append_left _ inside,rfl,rfl,rfl,rfl⟩)
  | selects items =>
    obtain ⟨answered,taken⟩ := of_when taken
    cases taken
    exact kept_selects kept answered.2
  | inserts =>
    obtain ⟨items,waiting,rfl⟩ := Option.map_eq_some_iff.mp taken
    exact kept_inserts kept waiting
  | fails =>
    obtain ⟨items,-,rfl⟩ := Option.map_eq_some_iff.mp taken
    exact ⟨kept.tasks,kept.users,kept.stored,kept.spaced,nofun⟩

theorem reminded_step (reminded : Reminded id assigneeId late state) (stays : Stays id assigneeId late next)
    (taken : step state event = some next) : Reminded id assigneeId late next := by
  obtain ⟨notification,inside,about⟩ := reminded
  cases event with simp only [step] at taken
  | edits tasks users =>
    obtain ⟨-,taken⟩ := of_when taken
    cases taken
    obtain ⟨row,dueAt,task,-,-,able,-⟩ := stays
    refine ⟨notification,mem_filter.mpr ⟨inside,?_⟩,about⟩
    obtain ⟨same,reader,-⟩ := about_iff.mp about
    have task : tasks.lookup id = some row := task
    have able : enabled users assigneeId = true := able
    have able : users.lookup assigneeId = some none := by simpa [enabled] using able
    rw [same,reader,able]
    simp [task]
  | elapses time => cases taken; exact ⟨notification,inside,about⟩
  | reads which =>
    cases taken
    refine ⟨_,mem_map_of_mem inside,?_⟩
    split <;> exact about
  | tells other =>
    obtain ⟨-,taken⟩ := of_unless taken
    cases taken
    exact ⟨notification,mem_append_left _ inside,about⟩
  | selects items =>
    obtain ⟨-,taken⟩ := of_when taken
    cases taken
    exact ⟨notification,inside,about⟩
  | inserts =>
    obtain ⟨items,-,rfl⟩ := Option.map_eq_some_iff.mp taken
    simp only [notifyMany]
    split
    · exact ⟨notification,inside,about⟩
    · exact ⟨notification,mem_append_left _ inside,about⟩
  | fails =>
    obtain ⟨items,-,rfl⟩ := Option.map_eq_some_iff.mp taken
    exact ⟨notification,inside,about⟩

def Always (property : State → Prop) (state : State) (events : List Event) : Prop :=
  ∀ front reached, front <+: events → Machine.run step state front = some reached → property reached

variable {events : List Event}

theorem Always.here {property : State → Prop} (always : Always property state events) :
    property state := always [] state List.nil_prefix rfl

theorem Always.tail {property : State → Prop} (always : Always property state (event::events))
    (taken : step state event = some next) : Always property next events := by
  intro front reached inside ran
  refine always (event::front) reached (cons_prefix_cons.mpr ⟨rfl,inside⟩) ?_
  rw [run_cons,taken,Option.bind_some]
  exact ran

theorem reminded_run (reminded : Reminded id assigneeId late state)
    (stays : Always (Stays id assigneeId late) state events) (ran : Machine.run step state events = some final) :
    Reminded id assigneeId late final := by
  induction events generalizing state with
  | nil => cases ran; exact reminded
  | cons event rest ih =>
    obtain ⟨next,taken,tail⟩ := run_cons_some step ran
    exact ih (reminded_step reminded (stays.tail taken).here taken) (stays.tail taken) tail

theorem stays_candidate (stays : Stays id assigneeId late state) :
    Reminded id assigneeId late state ∨ ∃ body, ⟨id,body,assigneeId,late⟩ ∈ candidates state := by
  obtain ⟨row,dueAt,task,due,assignee,able,undone,uncancelled,soon,rfl⟩ := stays
  by_cases recent : state.notifications.any (fun notification =>
      notification.about id assigneeId (decide (dueAt < state.now)) && state.now - DAY < notification.createdAt) = true
  · obtain ⟨notification,inside,about⟩ := any_eq_true.mp recent
    exact .inl ⟨notification,inside,(Bool.and_eq_true _ _ ▸ about).1⟩
  · refine .inr ⟨row.body,mem_filterMap.mpr ⟨(id,row),mem_rows.mpr task,?_⟩⟩
    simp only [candidate,due,assignee]
    rw [if_pos]
    simp [able,undone,uncancelled,soon,recent]

theorem batch_waits (waiting : state.batch = some items)
    (waits : ∀ event ∈ events, event.waits = true) (ran : Machine.run step state events = some final) :
    final.batch = some items := by
  have kept : ∀ (state : State) (event : Event) (next : State), state.batch = some items → event.waits = true →
      step state event = some next → next.batch = some items := by
    intro state event next waiting waits taken
    cases event with
    | edits tasks users =>
      simp only [step] at taken
      obtain ⟨-,taken⟩ := of_when taken
      cases taken
      exact waiting
    | elapses time | reads which => cases taken; exact waiting
    | tells notification =>
      simp only [step] at taken
      obtain ⟨-,taken⟩ := of_unless taken
      cases taken
      exact waiting
    | selects others =>
      simp only [step,waiting] at taken
      obtain ⟨answered,taken⟩ := of_when taken
      cases answered.1
    | inserts => cases waits
    | fails => cases waits
  exact run_invariant step kept waiting (meets_of_mem step (fun _ event member => waits event member) state) ran

theorem inserts_reminded {body : String} (member : ⟨id,body,assigneeId,late⟩ ∈ items)
    (able : enabled state.users assigneeId = true) (there : ∀ item ∈ items, (state.tasks.lookup item.id).isSome = true) :
    Reminded id assigneeId late (notifyMany state items) := by
  obtain ⟨chosen,sublist,same,-⟩ := inserted_eq state state.notifications items
  have accepted : refused state (inserted state state.notifications items) = false := by
    rw [same,refused,any_eq_false]
    intro notification inside
    obtain ⟨item,listed,rfl⟩ := mem_map.mp inside
    obtain ⟨row,task⟩ := Option.isSome_iff_exists.mp (there item (sublist.subset listed))
    simp [reminder,task]
  obtain ⟨notification,inside,about⟩ := @inserted_about state state.notifications items _ member able
  simp only [notifyMany,accepted]
  exact ⟨notification,inside,about⟩

theorem first_kept (tasks : Table String TaskRow) (users : Table String (Option Int)) (now : Int) :
    Kept (.first tasks users now) :=
  ⟨fun _ _ _ => not_mem_nil,fun _ _ _ => not_mem_nil,fun _ member => absurd member not_mem_nil,.nil,
    nofun⟩

/-- In every run reminders are a day apart. A task that stays due with its assignee is reminded of
by the first sweep that finds no more than it takes and whose insert goes through; where more are
found, the answer need not hold the task. -/
theorem reminders_kept {tasks : Table String TaskRow} {users : Table String (Option Int)} {now : Int} {events : List Event}
    (ran : Machine.run step (.first tasks users now) events = some final) :
    Spaced final.reminders ∧
      (∀ before batch middle after id assigneeId late found stored,
        events = before ++ .selects batch :: (middle ++ .inserts :: after) →
        Machine.run step (.first tasks users now) before = some found →
        (candidates found).length ≤ BATCH →
        Always (Stays id assigneeId late) found (.selects batch :: (middle ++ .inserts :: after)) →
        (∀ event ∈ middle, event.waits = true) → Machine.run step found (.selects batch :: middle) = some stored →
        (∀ item ∈ batch, (stored.tasks.lookup item.id).isSome = true) → Reminded id assigneeId late final) ∧
      ∀ item ∈ candidates final, (∀ batch, Answer final batch → item ∈ batch) ↔ (candidates final).length ≤ BATCH := by
  have kept := run_invariant_always step (fun _ _ _ kept taken => kept_step kept taken) (first_kept tasks users now) ran
  refine ⟨kept.spaced,?_,fun item member => answered_always member⟩
  intro before batch middle after id assigneeId late found stored split reached few stays waits selected there
  subst split
  rw [run_append,reached,Option.bind_some] at ran
  rcases stays_candidate stays.here with reminded | ⟨body,member⟩
  · exact reminded_run reminded stays ran
  · obtain ⟨chosen,taken,waited⟩ := run_cons_some step selected
    have answered : Answer found batch ∧ chosen = { found with batch := some batch } := by
      simp only [step] at taken
      obtain ⟨answered,taken⟩ := of_when taken
      cases taken
      exact ⟨answered.2,rfl⟩
    have listed := (answered_always member).mpr few batch answered.1
    have waiting := batch_waits (by rw [answered.2]) waits waited
    have calm : Always (Stays id assigneeId late) stored (.inserts :: after) := by
      intro front state inside there
      refine stays ((.selects batch :: middle) ++ front) state ?_ (run_append_some step selected there)
      rw [← cons_append]
      exact (prefix_append_right_inj _).mpr inside
    have inserting : step stored .inserts = some (notifyMany stored batch) := by
      simp only [step,waiting,Option.map_some]
    obtain ⟨row,dueAt,-,-,-,able,-⟩ := calm.here
    have rest : Machine.run step stored (.inserts :: after) = some final := by
      rw [← cons_append,run_append,selected,Option.bind_some] at ran
      exact ran
    rw [run_cons,inserting,Option.bind_some] at rest
    exact reminded_run (inserts_reminded listed able there) (calm.tail inserting) rest

def Event.still : Event → Bool
  | .edits _ _ => false
  | .elapses _ => false
  | _ => true

theorem still_step (still : event.still = true) (taken : step state event = some next) :
    next.tasks = state.tasks ∧ next.users = state.users ∧ next.now = state.now := by
  cases event with
  | edits tasks users => cases still
  | elapses time => cases still
  | reads which => cases taken; exact ⟨rfl,rfl,rfl⟩
  | tells notification =>
    simp only [step] at taken
    obtain ⟨-,taken⟩ := of_unless taken
    cases taken
    exact ⟨rfl,rfl,rfl⟩
  | selects items =>
    simp only [step] at taken
    obtain ⟨-,taken⟩ := of_when taken
    cases taken
    exact ⟨rfl,rfl,rfl⟩
  | inserts =>
    obtain ⟨items,-,rfl⟩ := Option.map_eq_some_iff.mp taken
    simp only [notifyMany]
    split <;> exact ⟨rfl,rfl,rfl⟩
  | fails =>
    obtain ⟨items,-,rfl⟩ := Option.map_eq_some_iff.mp taken
    exact ⟨rfl,rfl,rfl⟩

theorem always_still (stays : Stays id assigneeId late state)
    (still : ∀ event ∈ events, event.still = true) : Always (Stays id assigneeId late) state events := by
  intro front reached inside ran
  have kept : ∀ (state : State) (event : Event) (next : State), Stays id assigneeId late state → event.still = true →
      step state event = some next → Stays id assigneeId late next := by
    intro state event next stays still taken
    obtain ⟨tasks,users,now⟩ := still_step still taken
    rw [Stays,tasks,users,now]
    exact stays
  exact run_invariant step kept stays
    (meets_of_mem step (fun _ event member => still event (inside.subset member)) state) ran

def name (count : Nat) : String := String.ofList (List.replicate count 'a')

def paint : TaskRow := { created "box" "ayse" "Paint" (some "can") none with dueAt := some 0 }

def paintItem (count : Nat) : Selected := ⟨name count,"Paint","can",true⟩

private theorem name_injective {first second : Nat} (same : name first = name second) : first = second := by
  have lists := congrArg (fun text : String => text.toList.length) same
  simpa [name] using lists

private theorem board_nodup (count : Nat) :
    ((List.range count).map (fun index => (⟨name index,paint⟩ : Sigma fun _ : String => TaskRow))).NodupKeys := by
  rw [List.NodupKeys,List.keys,map_map]
  exact nodup_range.map (fun _ _ same => name_injective same)

def board (count : Nat) : Table String TaskRow := ⟨_,board_nodup count⟩

def staff : Table String (Option Int) := (∅ : Table String (Option Int)).insert "can" none

private theorem board_rows (count : Nat) : (board count).rows = (List.range count).map (fun index => (name index,paint)) := by
  simp [board,AList.rows,map_map,Function.comp_def]

private theorem staff_enabled : enabled staff "can" = true := by decide

private theorem candidates_board {count : Nat} (tasks : state.tasks = board count) (users : state.users = staff)
    (late : 0 < state.now) (old : ∀ notification ∈ state.notifications, notification.createdAt ≤ state.now - DAY) :
    candidates state = (List.range count).map paintItem := by
  rw [candidates,tasks,board_rows,filterMap_map,← filterMap_eq_map]
  congr 1
  funext index
  have aged : state.notifications.any (fun notification =>
      notification.about (name index) "can" (decide (0 < state.now)) && state.now - DAY < notification.createdAt) = false := by
    refine any_eq_false.mpr (fun notification inside => ?_)
    have before := old notification inside
    simp only [Bool.and_eq_true,decide_eq_true_eq]
    omega
  have soon : (0 : Int) < state.now + DAY := by
    unfold DAY
    omega
  have lateness : decide (0 < state.now) = true := decide_eq_true late
  change candidate state (name index) paint = some (paintItem index)
  simp only [candidate,paint,created,users,staff_enabled,aged]
  rw [if_pos (by simp [soon]),lateness]
  rfl

private theorem stays_board {count index : Nat} (inside : index < count) (tasks : state.tasks = board count)
    (users : state.users = staff) (late : 0 < state.now) : Stays (name index) "can" true state := by
  refine ⟨paint,0,?_,rfl,rfl,?_,by decide,by decide,?_,(decide_eq_true late).symm⟩
  · rw [tasks,← mem_rows,board_rows]
    exact mem_map.mpr ⟨index,mem_range.mpr inside,rfl⟩
  · rw [users]
    exact staff_enabled
  · unfold DAY
    omega

private theorem inserted_fresh (distinct : (items.map Selected.id).Nodup)
    (able : ∀ item ∈ items, enabled state.users item.assigneeId = true)
    (fresh : ∀ item ∈ items, ∀ notification ∈ notifications, notification.taskId ≠ some item.id) :
    inserted state notifications items = items.map (reminder state.now) := by
  induction items generalizing notifications with
  | nil => rfl
  | cons item rest ih =>
    obtain ⟨apart,distinct⟩ := nodup_cons.mp distinct
    have clear : conflicts notifications item = false := by
      refine any_eq_false.mpr (fun notification inside => ?_)
      simp [Notification.about,fresh item mem_cons_self notification inside]
    rw [inserted,able item mem_cons_self,clear,if_pos (by rfl),map_cons]
    congr 1
    refine ih distinct (fun other member => able other (mem_cons_of_mem _ member)) (fun other member notification inside => ?_)
    rcases mem_append.mp inside with before | mine
    · exact fresh other (mem_cons_of_mem _ member) notification before
    · cases mem_singleton.mp mine
      intro same
      exact apart (Option.some.inj same ▸ mem_map_of_mem member)

private theorem notifyMany_eq {fresh : List Notification}
    (same : inserted state state.notifications items = fresh) (accepted : refused state fresh = false) :
    notifyMany state items = { state with
      batch := none, notifications := state.notifications ++ fresh, reminders := state.reminders ++ fresh } := by
  subst same
  simp only [notifyMany,accepted]
  rfl

private theorem inserted_blocked
    (blocked : ∀ item ∈ items, conflicts notifications item = true) : inserted state notifications items = [] := by
  induction items with
  | nil => rfl
  | cons item rest ih =>
    rw [inserted,blocked item mem_cons_self,Bool.not_true,Bool.and_false,if_neg Bool.false_ne_true]
    exact ih (fun other member => blocked other (mem_cons_of_mem _ member))

theorem reminders_kept_lone : ∃ final : State,
    Machine.run step (.first (board 1) staff 1) [.selects [paintItem 0],.inserts] = some final ∧
      Reminded (name 0) "can" true final := by
  have found : candidates (.first (board 1) staff 1) = (List.range 1).map paintItem :=
    candidates_board rfl rfl (Int.zero_lt_one : 0 < (State.first (board 1) staff 1).now)
      (fun _ inside => absurd inside not_mem_nil)
  have answered : Answer (.first (board 1) staff 1) [paintItem 0] := by
    rw [Answer,found]
    exact ⟨List.Subperm.refl [paintItem 0],rfl⟩
  have selecting : Machine.run step (.first (board 1) staff 1) [.selects [paintItem 0]] =
      some { State.first (board 1) staff 1 with batch := some [paintItem 0] } := by
    rw [run_cons,step,if_pos ⟨rfl,answered⟩]
    rfl
  have inserting : Machine.run step (.first (board 1) staff 1) [.selects [paintItem 0],.inserts] =
      some (notifyMany { State.first (board 1) staff 1 with batch := some [paintItem 0] } [paintItem 0]) := by
    rw [← singleton_append,run_append,selecting]
    rfl
  refine ⟨_,inserting,(reminders_kept inserting).2.1 [] [paintItem 0] [] [] (name 0) "can" true _ _ rfl rfl
    (by rw [found]; decide) (always_still (stays_board Nat.zero_lt_one rfl rfl Int.zero_lt_one) (by simp [Event.still]))
    (fun _ member => absurd member not_mem_nil) selecting (fun item member => ?_)⟩
  cases mem_singleton.mp member
  decide

def unread (count : Nat) : List Selected := (List.range count).map paintItem

def ignored (count : Nat) : State where
  tasks := board (count+1)
  users := staff
  notifications := (unread count).map (reminder 1)
  now := 1 + DAY
  batch := none
  reminders := (unread count).map (reminder 1)
  retiredTasks := []
  retiredUsers := []

section

variable {count : Nat}

private theorem answer_unread (full : count = BATCH) (tasks : state.tasks = board (count+1)) (users : state.users = staff)
    (late : 0 < state.now) (old : ∀ notification ∈ state.notifications, notification.createdAt ≤ state.now - DAY) :
    Answer state (unread count) := by
  rw [Answer,candidates_board tasks users late old,range_succ,map_append]
  refine ⟨(sublist_append_left _ _).subperm,?_⟩
  simp [unread,← full]

private theorem unread_conflicts : ∀ item ∈ unread count, conflicts (ignored count).notifications item = true := by
  intro item member
  refine any_eq_true.mpr ⟨reminder 1 item,mem_map_of_mem member,?_⟩
  simp [Notification.about,reminder]

private theorem unread_there : ∀ item ∈ unread count, (∃ row, (board (count+1)).lookup item.id = some row) ∧
    enabled staff item.assigneeId = true := by
  intro item member
  obtain ⟨index,inside,rfl⟩ := mem_map.mp member
  have inside := mem_range.mp inside
  refine ⟨⟨paint,mem_rows.mp ?_⟩,staff_enabled⟩
  rw [board_rows]
  exact mem_map.mpr ⟨index,mem_range.mpr (by omega),rfl⟩

private theorem ignored_now : 0 < (ignored count).now := by
  change (0 : Int) < 1 + DAY
  decide

private theorem selects_unread (answered : Answer state (unread count)) (idle : state.batch = none) :
    Machine.run step state [.selects (unread count),.inserts] =
      some (notifyMany { state with batch := some (unread count) } (unread count)) := by
  rw [run_cons,step,if_pos ⟨by rw [idle]; rfl,answered⟩,Option.bind_some]
  rfl

private theorem reaches_ignored (full : count = BATCH) : Machine.run step (.first (board (count+1)) staff 1)
    ([.selects (unread count),.inserts] ++ [.elapses DAY.toNat]) = some (ignored count) := by
  have answered : Answer (.first (board (count+1)) staff 1) (unread count) :=
    answer_unread full rfl rfl Int.zero_lt_one (fun _ inside => absurd inside not_mem_nil)
  have distinct : ((unread count).map Selected.id).Nodup := by
    rw [unread,map_map]
    exact nodup_range.map (fun _ _ same => name_injective same)
  have fresh : inserted { State.first (board (count+1)) staff 1 with batch := some (unread count) } [] (unread count) =
      (unread count).map (reminder 1) :=
    inserted_fresh distinct (fun item member => (unread_there item member).2) (fun _ _ _ inside => absurd inside not_mem_nil)
  have accepted : refused { State.first (board (count+1)) staff 1 with batch := some (unread count) }
      ((unread count).map (reminder 1)) = false := by
    refine any_eq_false.mpr (fun notification inside => ?_)
    obtain ⟨item,member,rfl⟩ := mem_map.mp inside
    obtain ⟨⟨row,task⟩,-⟩ := unread_there item member
    simp [reminder,State.first,task]
  have notified : notifyMany { State.first (board (count+1)) staff 1 with batch := some (unread count) } (unread count) =
      { ignored count with now := 1 } := by
    rw [notifyMany_eq fresh accepted]
    rfl
  rw [run_append,selects_unread answered rfl,notified]
  rfl

private theorem sweeps_ignored (full : count = BATCH) :
    Machine.run step (ignored count) [.selects (unread count),.inserts] = some (ignored count) := by
  have answered : Answer (ignored count) (unread count) := by
    refine answer_unread full rfl rfl ignored_now (fun notification inside => ?_)
    obtain ⟨item,-,rfl⟩ := mem_map.mp inside
    change (1 : Int) ≤ 1 + DAY - DAY
    omega
  have blocked : inserted { ignored count with batch := some (unread count) } (ignored count).notifications (unread count) = [] :=
    inserted_blocked unread_conflicts
  rw [selects_unread answered rfl,notifyMany_eq blocked rfl]
  simp [ignored]

end

/-- Sweeps that find more than they take may take the same unread ones for ever. -/
theorem reminders_starved : ¬∀ (tasks : Table String TaskRow) (users : Table String (Option Int)) (now : Int)
    (before : List Event) (found : State) (id assigneeId : String) (late : Bool),
    Machine.run step (.first tasks users now) before = some found → Stays id assigneeId late found → ∃ enough, ∀ events final,
      Machine.run step found events = some final → Always (Stays id assigneeId late) found events →
        enough ≤ events.countP (fun event => !event.waits) → Reminded id assigneeId late final := by
  intro claimed
  obtain ⟨count,full⟩ : ∃ count, count = BATCH := ⟨BATCH,rfl⟩
  have stays : Stays (name count) "can" true (ignored count) := stays_board (Nat.lt_succ_self _) rfl rfl ignored_now
  obtain ⟨enough,reminds⟩ := claimed _ _ _ _ _ _ _ _ (reaches_ignored full) stays
  have cycles (times : Nat) : Machine.run step (ignored count) (List.replicate times [Event.selects (unread count),.inserts]).flatten =
      some (ignored count) := by
    induction times with
    | zero => rfl
    | succ times ih =>
      rw [replicate_succ,flatten_cons]
      exact run_append_some step (sweeps_ignored full) ih
  have counts (times : Nat) : (List.replicate times [Event.selects (unread count),.inserts]).flatten.countP
      (fun event => !event.waits) = times := by
    induction times with
    | zero => rfl
    | succ times ih =>
      rw [replicate_succ,flatten_cons,countP_append,ih]
      simp only [Event.waits,countP_cons,countP_nil,Bool.not_true,Bool.not_false,Bool.false_eq_true,if_true,if_false]
      omega
  have still : ∀ event ∈ (List.replicate enough [Event.selects (unread count),.inserts]).flatten, event.still = true := by
    intro event member
    obtain ⟨cycle,repeated,member⟩ := mem_flatten.mp member
    rw [eq_of_mem_replicate repeated] at member
    simp only [mem_cons,not_mem_nil,or_false] at member
    rcases member with rfl | rfl <;> rfl
  obtain ⟨notification,inside,about⟩ := reminds _ _ (cycles enough) (always_still stays still) (Nat.le_of_eq (counts enough).symm)
  obtain ⟨item,listed,rfl⟩ := mem_map.mp inside
  obtain ⟨index,small,rfl⟩ := mem_map.mp listed
  have same := name_injective (Option.some.inj (about_iff.mp about).1)
  have small := mem_range.mp small
  omega

end Depsis.Desk.Reminders

import Depsis.Shares.Opening

/-! What opening a share leaves behind. A dataset made for a create belongs to the call until the row that names it is
written, so a call that ends with neither has made none; nothing else is ever told of that dataset, so no two rows name it.
-/
namespace Depsis.Shares.Opening

open Depsis.Foundation List AList Option

variable {fold lower everyone : String → String} {state next final : State} {ticket share : Nat} {call later : Call}
variable {dataset parent organization name : String} {row : ShareRow}

theorem nested_datasetOf (parent name : String) : nested (datasetOf parent name) = true := by
  simp [nested,datasetOf,String.toList_append]

def Call.holds : Call → Option String
  | .write _ dataset _ => some dataset
  | .update parent row _ => some (datasetOf parent row.2)
  | _ => none

def Call.maker (ticket : Nat) : Call → Maker
  | .write _ _ _ => .create ticket
  | _ => .adoption ticket

def Call.todo : Call → List Nat
  | .makePending _ row rest => row.1 :: rest.map Prod.fst
  | .update _ row rest => row.1 :: rest.map Prod.fst
  | _ => []

def Call.fit : Call → Bool
  | .check create dataset => nested dataset && decide (create.grants ≠ some [])
  | .make _ dataset applied | .write _ dataset applied => nested dataset && !applied.isEmpty
  | _ => true

def Unopened (state : State) (id : Nat) : Prop :=
  ∃ row, state.shares.lookup id = some row ∧ ∀ ticket, state.pool.lookup row.dataset ≠ some (.create ticket)

structure Kept (state : State) : Prop where
  owned : ∀ id row, state.shares.lookup id = some row → (state.pool.lookup row.dataset).isSome = true ∨ nested row.dataset = false
  apart : ∀ first second one other, state.shares.lookup first = some one → state.shares.lookup second = some other →
    one.dataset = other.dataset → first = second
  deep : ∀ dataset ticket, state.pool.lookup dataset = some (.create ticket) → nested dataset = true
  made : ∀ dataset ticket, state.pool.lookup dataset = some (.create ticket) →
    (∃ id row, state.shares.lookup id = some row ∧ row.dataset = dataset) ∨
      ∃ call, state.calls.lookup ticket = some call ∧ call.holds = some dataset
  held : ∀ ticket call dataset, state.calls.lookup ticket = some call → call.holds = some dataset →
    state.pool.lookup dataset = some (call.maker ticket) ∧ ∀ id row, state.shares.lookup id = some row → row.dataset ≠ dataset
  todo : ∀ ticket call id, state.calls.lookup ticket = some call → id ∈ call.todo → Unopened state id
  fit : ∀ ticket call, state.calls.lookup ticket = some call → call.fit = true
  governed : ∀ id row, state.shares.lookup id = some row → ∃ grant ∈ state.grants, grant.share = id

theorem calls_cases {calls : Table Nat Call} {other : Nat} {there : Call} (stored : (calls.insert ticket later).lookup other = some there) :
    other = ticket ∧ there = later ∨ other ≠ ticket ∧ calls.lookup other = some there := by
  rcases lookup_insert_cases stored with ⟨here,is⟩ | ⟨apart,stored⟩
  · exact .inl ⟨here,is⟩
  · exact .inr ⟨apart,stored⟩

theorem Kept.continues (kept : Kept state)
    (free : ∀ call dataset, state.calls.lookup ticket = some call → call.holds = some dataset → later.holds = some dataset)
    (held : ∀ dataset, later.holds = some dataset →
      state.pool.lookup dataset = some (later.maker ticket) ∧ ∀ id row, state.shares.lookup id = some row → row.dataset ≠ dataset)
    (todo : ∀ id ∈ later.todo, Unopened state id) (fit : later.fit = true) : Kept (state.continues ticket later) := by
  refine ⟨kept.owned,kept.apart,kept.deep,fun dataset maker there => ?_,fun other call dataset stored holds => ?_,
    fun other call id stored inside => ?_,fun other call stored => ?_,kept.governed⟩
  · refine (kept.made dataset maker there).imp id ?_
    rintro ⟨call,found,holds⟩
    by_cases same : maker = ticket
    · subst same
      exact ⟨later,lookup_insert _,free call dataset found holds⟩
    · exact ⟨call,(lookup_insert_ne same).trans found,holds⟩
  · rcases calls_cases stored with ⟨rfl,rfl⟩ | ⟨-,old⟩
    · exact held dataset holds
    · exact kept.held other call dataset old holds
  · rcases calls_cases stored with ⟨rfl,rfl⟩ | ⟨-,old⟩
    · exact todo id inside
    · exact kept.todo other call id old inside
  · rcases calls_cases stored with ⟨rfl,rfl⟩ | ⟨-,old⟩
    · exact fit
    · exact kept.fit other call old

theorem Kept.ends (kept : Kept state)
    (free : ∀ call dataset, state.calls.lookup ticket = some call → call.holds = some dataset →
      state.pool.lookup dataset ≠ some (.create ticket) ∨ ∃ id row, state.shares.lookup id = some row ∧ row.dataset = dataset) :
    Kept (state.ends ticket) := by
  have old : ∀ {other there}, (state.calls.erase ticket).lookup other = some there → state.calls.lookup other = some there := by
    intro other there stored
    obtain ⟨-,stored⟩ := lookup_erase_some stored
    exact stored
  refine ⟨kept.owned,kept.apart,kept.deep,fun dataset maker there => ?_,
    fun other call dataset stored => kept.held other call dataset (old stored),fun other call id stored => kept.todo other call id (old stored),
    fun other call stored => kept.fit other call (old stored),kept.governed⟩
  rcases kept.made dataset maker there with named | ⟨call,found,holds⟩
  · exact .inl named
  · by_cases same : maker = ticket
    · subst same
      exact .inl ((free call dataset found holds).resolve_left (fun apart => apart there))
    · exact .inr ⟨call,(lookup_erase_ne same).trans found,holds⟩

theorem Kept.waits (kept : Kept state) (found : state.calls.lookup ticket = some call) (free : call.holds = none)
    (none' : later.holds = none) (todo : ∀ id ∈ later.todo, Unopened state id) (fit : later.fit = true) :
    Kept (state.continues ticket later) := by
  apply kept.continues
  · intro other dataset stored holds
    rw [found] at stored
    cases stored
    cases free.symm.trans holds
  · exact fun dataset holds => by cases none'.symm.trans holds
  · exact todo
  · exact fit

theorem Kept.quits (kept : Kept state) (found : state.calls.lookup ticket = some call) (free : call.holds = none) :
    Kept (state.ends ticket) := by
  apply kept.ends
  intro other dataset stored holds
  rw [found] at stored
  cases stored
  cases free.symm.trans holds

theorem Kept.begins (kept : Kept state) (fresh : state.calls.lookup ticket = none) (none' : later.holds = none)
    (idle : later.todo = []) (fit : later.fit = true) : Kept (state.continues ticket later) := by
  apply kept.continues
  · exact fun call dataset stored => by cases fresh.symm.trans stored
  · exact fun dataset holds => by cases none'.symm.trans holds
  · exact fun id inside => by rw [idle] at inside; cases inside
  · exact fit

theorem Kept.peopled {holders doomed : List (String × Holder)} (kept : Kept state) :
    Kept { state with holders := holders, doomed := doomed } :=
  ⟨kept.owned,kept.apart,kept.deep,kept.made,kept.held,kept.todo,kept.fit,kept.governed⟩

theorem Kept.withEveryone (kept : Kept state) (organization : String) : Kept (state.withEveryone everyone organization) := by
  unfold State.withEveryone
  split
  next => exact kept
  next => exact @Kept.peopled state _ state.doomed kept

theorem withEveryone_calls (organization : String) : (state.withEveryone everyone organization).calls = state.calls := by
  unfold State.withEveryone
  split <;> rfl

theorem Kept.appears {maker : Maker} (kept : Kept state) (absent : state.pool.lookup dataset = none)
    (other : ∀ ticket, maker ≠ .create ticket) : Kept { state with pool := state.pool.insert dataset maker } := by
  have old : ∀ {there : String} {by' : Maker}, state.pool.lookup there = some by' →
      (state.pool.insert dataset maker).lookup there = some by' := by
    intro there by' stored
    refine (lookup_insert_ne fun same => ?_).trans stored
    rw [same,absent] at stored
    cases stored
  have create : ∀ {there : String} {ticket : Nat}, (state.pool.insert dataset maker).lookup there = some (.create ticket) →
      state.pool.lookup there = some (.create ticket) := by
    intro there ticket stored
    rcases lookup_insert_cases stored with ⟨-,is⟩ | ⟨-,stored⟩
    · exact absurd is.symm (other ticket)
    · exact stored
  refine ⟨fun number row stored => (kept.owned number row stored).imp (fun there => ?_) id,kept.apart,
    fun there ticket stored => kept.deep there ticket (create stored),fun there ticket stored => kept.made there ticket (create stored),
    fun ticket call there stored holds => ?_,fun ticket call id stored inside => ?_,kept.fit,kept.governed⟩
  · obtain ⟨by',found⟩ := isSome_iff_exists.mp there
    exact isSome_iff_exists.mpr ⟨by',old found⟩
  · obtain ⟨found,free⟩ := kept.held ticket call there stored holds
    exact ⟨old found,free⟩
  · obtain ⟨row,found,unopened⟩ := kept.todo ticket call id stored inside
    exact ⟨row,found,fun ticket stored => unopened ticket (create stored)⟩

theorem Kept.holds (kept : Kept state) (found : state.calls.lookup ticket = some call) (free : call.holds = none)
    (absent : state.pool.lookup dataset = none) (holds : later.holds = some dataset) (nested' : nested dataset = true)
    (todo : ∀ id ∈ later.todo, Unopened state id) (fit : later.fit = true) :
    Kept ({ state with pool := state.pool.insert dataset (later.maker ticket) }.continues ticket later) := by
  have old : ∀ {there : String} {by' : Maker}, state.pool.lookup there = some by' →
      (state.pool.insert dataset (later.maker ticket)).lookup there = some by' := by
    intro there by' stored
    refine (lookup_insert_ne fun same => ?_).trans stored
    rw [same,absent] at stored
    cases stored
  have cases' : ∀ {there : String} {by' : Maker}, (state.pool.insert dataset (later.maker ticket)).lookup there = some by' →
      there = dataset ∧ by' = later.maker ticket ∨ state.pool.lookup there = some by' := by
    intro there by' stored
    exact (lookup_insert_cases stored).imp_right And.right
  have unnamed : ∀ id row, state.shares.lookup id = some row → row.dataset ≠ dataset := by
    intro id row stored same
    rcases kept.owned id row stored with there | bare
    · rw [same,absent] at there
      cases there
    · rw [same,nested'] at bare
      cases bare
  have unopened : ∀ {id}, Unopened state id → Unopened { state with pool := state.pool.insert dataset (later.maker ticket) } id := by
    rintro id ⟨row,stored,apart⟩
    refine ⟨row,stored,fun maker there => ?_⟩
    rcases cases' there with ⟨here,-⟩ | before
    · exact unnamed id row stored here
    · exact apart maker before
  refine ⟨fun number row stored => (kept.owned number row stored).imp (fun there => ?_) id,kept.apart,fun there maker stored => ?_,
    fun there maker stored => ?_,fun other there made stored held => ?_,fun other there id stored inside => ?_,
    fun other there stored => ?_,kept.governed⟩
  · obtain ⟨by',found⟩ := isSome_iff_exists.mp there
    exact isSome_iff_exists.mpr ⟨by',old found⟩
  · rcases cases' stored with ⟨rfl,-⟩ | before
    · exact nested'
    · exact kept.deep there maker before
  · rcases cases' stored with ⟨rfl,same⟩ | before
    · refine .inr ⟨later,?_,holds⟩
      have mine : maker = ticket := by
        cases later with
        | write _ _ _ => exact Maker.create.inj same
        | _ => cases same
      rw [mine]
      exact lookup_insert _
    · refine (kept.made there maker before).imp id ?_
      rintro ⟨other,stored,held⟩
      refine ⟨other,(lookup_insert_ne fun same => ?_).trans stored,held⟩
      rw [same,found] at stored
      cases stored
      cases free.symm.trans held
  · rcases calls_cases stored with ⟨rfl,rfl⟩ | ⟨-,before⟩
    · rw [holds] at held
      cases held
      exact ⟨lookup_insert _,unnamed⟩
    · obtain ⟨stood,free⟩ := kept.held other there made before held
      exact ⟨old stood,free⟩
  · rcases calls_cases stored with ⟨rfl,rfl⟩ | ⟨-,before⟩
    · exact unopened (todo id inside)
    · exact unopened (kept.todo other there id before inside)
  · rcases calls_cases stored with ⟨rfl,rfl⟩ | ⟨-,before⟩
    · exact fit
    · exact kept.fit other there before

theorem createDataset_cases (dataset : String) (maker : Maker) (fate : Fate) :
    state.createDataset dataset maker fate = (state,some .failed) ∨ state.createDataset dataset maker fate = (state,none) ∨
      state.pool.lookup dataset = none ∧ ∃ answer,
        state.createDataset dataset maker fate = ({ state with pool := state.pool.insert dataset maker },answer) ∧
          (fate = .created ∧ answer = some .created ∨ fate = .unread ∧ answer = some .failed ∨ fate = .lost ∧ answer = none) := by
  unfold State.createDataset
  split
  next there =>
    split
    next => exact .inr (.inl rfl)
    next => exact .inl rfl
  next absent =>
    have absent : state.pool.lookup dataset = none := by simpa using absent
    cases fate with
    | created => exact .inr (.inr ⟨absent,_,rfl,.inl ⟨rfl,rfl⟩⟩)
    | unread => exact .inr (.inr ⟨absent,_,rfl,.inr (.inl ⟨rfl,rfl⟩)⟩)
    | fails => exact .inl rfl
    | lost => exact .inr (.inr ⟨absent,_,rfl,.inr (.inr ⟨rfl,rfl⟩)⟩)

/-- The calls after a step: those before it that do not hold the dataset, and perhaps one that holds nothing. -/
structure Left (state : State) (dataset : String) (calls : Table Nat Call) : Prop where
  old : ∀ ticket call, calls.lookup ticket = some call →
    state.calls.lookup ticket = some call ∧ call.holds ≠ some dataset ∨
      call.holds = none ∧ call.fit = true ∧ ∀ id ∈ call.todo, Unopened state id
  still : ∀ ticket call other, state.calls.lookup ticket = some call → call.holds = some other → other ≠ dataset →
    calls.lookup ticket = some call

theorem Kept.stores {grants : List Grant} {holders : List (String × Holder)} {calls : Table Nat Call} (kept : Kept state)
    (absent : state.shares.lookup share = none)
    (place : (state.pool.lookup row.dataset).isSome = true ∨ nested row.dataset = false)
    (unnamed : ∀ id other, state.shares.lookup id = some other → other.dataset ≠ row.dataset)
    (left : Left state row.dataset calls) (more : ∀ grant ∈ state.grants, grant ∈ grants) (own : ∃ grant ∈ grants, grant.share = share) :
    Kept { state with shares := state.shares.insert share row, grants := grants, holders := holders, calls := calls } := by
  have cases' : ∀ {id other}, (state.shares.insert share row).lookup id = some other →
      id = share ∧ other = row ∨ state.shares.lookup id = some other := by
    intro id other stored
    exact (lookup_insert_cases stored).imp_right And.right
  have old : ∀ {id other}, state.shares.lookup id = some other → (state.shares.insert share row).lookup id = some other := by
    intro id other stored
    refine (lookup_insert_ne fun same => ?_).trans stored
    rw [same,absent] at stored
    cases stored
  refine ⟨fun id other stored => ?_,fun first second one other stored also same => ?_,kept.deep,fun dataset ticket there => ?_,
    fun ticket call dataset stored holds => ?_,fun ticket call id stored inside => ?_,fun ticket call stored => ?_,
    fun id other stored => ?_⟩
  · rcases cases' stored with ⟨rfl,rfl⟩ | before
    · exact place
    · exact kept.owned id other before
  · rcases cases' stored with ⟨rfl,rfl⟩ | before
    · rcases cases' also with ⟨rfl,-⟩ | earlier
      · rfl
      · exact absurd same.symm (unnamed second other earlier)
    · rcases cases' also with ⟨rfl,rfl⟩ | earlier
      · exact absurd same (unnamed first one before)
      · exact kept.apart first second one other before earlier same
  · rcases kept.made dataset ticket there with ⟨id,other,stored,same⟩ | ⟨call,found,holds⟩
    · exact .inl ⟨id,other,old stored,same⟩
    · by_cases here : dataset = row.dataset
      · exact .inl ⟨share,row,lookup_insert _,here.symm⟩
      · exact .inr ⟨call,left.still ticket call dataset found holds here,holds⟩
  · rcases left.old ticket call stored with ⟨before,apart⟩ | ⟨empty,-,-⟩
    · obtain ⟨stood,free⟩ := kept.held ticket call dataset before holds
      refine ⟨stood,fun id other stored' => ?_⟩
      rcases cases' stored' with ⟨rfl,rfl⟩ | earlier
      · exact fun same => apart (same ▸ holds)
      · exact free id other earlier
    · cases empty.symm.trans holds
  · have before : Unopened state id := by
      rcases left.old ticket call stored with ⟨before,-⟩ | ⟨-,-,todo⟩
      · exact kept.todo ticket call id before inside
      · exact todo id inside
    obtain ⟨other,stood,unopened⟩ := before
    exact ⟨other,old stood,unopened⟩
  · rcases left.old ticket call stored with ⟨before,-⟩ | ⟨-,fit,-⟩
    · exact kept.fit ticket call before
    · exact fit
  · rcases cases' stored with ⟨rfl,-⟩ | before
    · exact own
    · obtain ⟨grant,listed,same⟩ := kept.governed id other before
      exact ⟨grant,more grant listed,same⟩

theorem Kept.updates {calls : Table Nat Call} (kept : Kept state) (found : state.calls.lookup ticket = some call)
    (holds : call.holds = some dataset) (maker : call.maker ticket = .adoption ticket) (pending : Unopened state share)
    (left : Left state dataset calls) : Kept { state.update share dataset with calls := calls } := by
  obtain ⟨row,there,unopened⟩ := pending
  obtain ⟨pooled,unnamed⟩ := kept.held ticket call dataset found holds
  rw [maker] at pooled
  have updated : state.update share dataset = { state with shares := state.shares.insert share { row with dataset := dataset } } := by
    simp only [State.update,there]
  rw [updated]
  have cases' : ∀ {id other}, (state.shares.insert share { row with dataset := dataset }).lookup id = some other →
      id = share ∧ other = { row with dataset := dataset } ∨ id ≠ share ∧ state.shares.lookup id = some other := by
    intro id other stored
    rcases lookup_insert_cases stored with ⟨here,is⟩ | ⟨apart,stored⟩
    · exact .inl ⟨here,is⟩
    · exact .inr ⟨apart,stored⟩
  have adopted : ∀ {id}, Unopened state id →
      Unopened { state with shares := state.shares.insert share { row with dataset := dataset }, calls := calls } id := by
    rintro id ⟨other,stored,apart⟩
    by_cases here : id = share
    · subst here
      refine ⟨{ row with dataset := dataset },lookup_insert _,fun ticket pool => ?_⟩
      cases pooled.symm.trans pool
    · exact ⟨other,(lookup_insert_ne here).trans stored,apart⟩
  refine ⟨fun id other stored => ?_,fun first second one other stored also same => ?_,kept.deep,fun there by' stored => ?_,
    fun other call there stored holds => ?_,fun other call id stored inside => ?_,fun other call stored => ?_,
    fun id other stored => ?_⟩
  · rcases cases' stored with ⟨rfl,rfl⟩ | ⟨-,before⟩
    · exact .inl (isSome_iff_exists.mpr ⟨_,pooled⟩)
    · exact kept.owned id other before
  · rcases cases' stored with ⟨rfl,rfl⟩ | ⟨-,before⟩
    · rcases cases' also with ⟨rfl,-⟩ | ⟨-,earlier⟩
      · rfl
      · exact absurd same.symm (unnamed second other earlier)
    · rcases cases' also with ⟨rfl,rfl⟩ | ⟨-,earlier⟩
      · exact absurd same (unnamed first one before)
      · exact kept.apart first second one other before earlier same
  · rcases kept.made there by' stored with ⟨id,other,named,same⟩ | ⟨other,stood,held⟩
    · by_cases here : id = share
      · subst here
        obtain rfl := Option.some.inj (named.symm.trans ‹_›)
        exact absurd (same ▸ stored) (unopened by')
      · exact .inl ⟨id,other,(lookup_insert_ne here).trans named,same⟩
    · refine .inr ⟨other,left.still by' other there stood held (fun same => ?_),held⟩
      rw [same,pooled] at stored
      cases stored
  · rcases left.old other call stored with ⟨before,apart⟩ | ⟨empty,-,-⟩
    · obtain ⟨stood,free⟩ := kept.held other call there before holds
      refine ⟨stood,fun id row' stored' => ?_⟩
      rcases cases' stored' with ⟨rfl,rfl⟩ | ⟨-,earlier⟩
      · exact fun same => apart (holds.trans (congrArg some same.symm))
      · exact free id row' earlier
    · cases empty.symm.trans holds
  · rcases left.old other call stored with ⟨before,-⟩ | ⟨-,-,todo⟩
    · exact adopted (kept.todo other call id before inside)
    · exact adopted (todo id inside)
  · rcases left.old other call stored with ⟨before,-⟩ | ⟨-,fit,-⟩
    · exact kept.fit other call before
    · exact fit
  · rcases cases' stored with ⟨rfl,-⟩ | ⟨-,before⟩
    · exact kept.governed id row there
    · exact kept.governed id other before

theorem Kept.leaves (kept : Kept state) (found : state.calls.lookup ticket = some call) (holds : call.holds = some dataset) :
    Left state dataset (state.calls.erase ticket) := by
  refine ⟨fun other there stored => ?_,fun other there held stored also apart => ?_⟩
  · obtain ⟨apart,stored⟩ := lookup_erase_some stored
    refine .inl ⟨stored,fun same => apart ?_⟩
    have mine := (kept.held ticket call dataset found holds).1
    rw [(kept.held other there dataset stored same).1] at mine
    cases call with
    | write _ _ _ =>
      cases there with
      | write _ _ _ => exact Maker.create.inj (Option.some.inj mine)
      | _ => cases Option.some.inj mine
    | _ =>
      cases there with
      | write _ _ _ => cases Option.some.inj mine
      | _ => exact Maker.adoption.inj (Option.some.inj mine)
  · refine (lookup_erase_ne fun same => ?_).trans stored
    rw [same,found] at stored
    cases stored
    exact apart (Option.some.inj (also.symm.trans holds))

theorem Kept.turns (kept : Kept state) (found : state.calls.lookup ticket = some call) (holds : call.holds = some dataset)
    (none' : later.holds = none) (fit : later.fit = true) (todo : ∀ id ∈ later.todo, Unopened state id) :
    Left state dataset (state.calls.insert ticket later) := by
  have ended := kept.leaves found holds
  refine ⟨fun other there stored => ?_,fun other there held stored also apart => ?_⟩
  · rcases calls_cases stored with ⟨-,rfl⟩ | ⟨apart,old⟩
    · exact .inr ⟨none',fit,todo⟩
    · exact ended.old other there ((lookup_erase_ne apart).trans old)
  · have stays := ended.still other there held stored also apart
    refine (lookup_insert_ne fun same => ?_).trans stored
    rw [same,lookup_erase] at stays
    cases stays

theorem Kept.deletes {holder : Holder} (kept : Kept state) (spared : state.noShareOpens holder = true) (organization : String) :
    Kept (state.delete organization holder) := by
  refine ⟨kept.owned,kept.apart,kept.deep,kept.made,kept.held,kept.todo,kept.fit,fun id row stored => ?_⟩
  obtain ⟨grant,listed,same⟩ := kept.governed id row stored
  by_cases doomed : grant.holder = holder
  · have either := all_eq_true.mp spared grant listed
    simp only [doomed,decide_true,Bool.not_true,Bool.false_or] at either
    obtain ⟨other,there,both⟩ := any_eq_true.mp either
    obtain ⟨share,apart⟩ := Bool.and_eq_true_iff.mp both
    exact ⟨other,mem_filter.mpr ⟨there,apart⟩,(of_decide_eq_true share).trans same⟩
  · exact ⟨grant,mem_filter.mpr ⟨listed,decide_eq_true doomed⟩,same⟩

variable {fate : Fate} {event : Event}

theorem Kept.check {create : Create} (kept : Kept state) (found : state.calls.lookup ticket = some (.check create dataset)) :
    Kept (state.check fold everyone ticket create dataset) := by
  have fit := kept.fit ticket _ found
  obtain ⟨deep,asked⟩ := Bool.and_eq_true_iff.mp fit
  have ended : Kept (state.ends ticket) := kept.quits found rfl
  unfold State.check
  split
  next =>
    split
    next grants given =>
      split
      next =>
        apply kept.waits found rfl rfl (fun _ inside => by cases inside)
        refine Bool.and_eq_true_iff.mpr ⟨deep,?_⟩
        cases grants with
        | nil => exact absurd given (of_decide_eq_true asked)
        | cons first rest => rfl
      next => exact ended
    next =>
      simp only []
      split
      next =>
        apply (kept.withEveryone create.organization).waits
        · rw [withEveryone_calls]
          exact found
        · rfl
        · rfl
        · exact nofun
        · exact Bool.and_eq_true_iff.mpr ⟨deep,rfl⟩
      next => exact ended
  next => exact ended

theorem Kept.adoptNext {todo : List (Nat × String)} (kept : Kept state) (found : state.calls.lookup ticket = some call)
    (free : call.holds = none) (pending : ∀ row ∈ todo, Unopened state row.1) : Kept (state.adoptNext ticket parent todo) := by
  cases todo with
  | nil => exact kept.quits found free
  | cons first rest =>
    apply kept.waits found free rfl
    · intro id inside
      rcases mem_cons.mp inside with rfl | later
      · exact pending first mem_cons_self
      · obtain ⟨row,listed,rfl⟩ := mem_map.mp later
        exact pending row (mem_cons_of_mem _ listed)
    · rfl

theorem Kept.pending (kept : Kept state) (organization : String) : ∀ row ∈ state.pending organization, Unopened state row.1 := by
  intro row listed
  obtain ⟨⟨id,stored⟩,there,rfl⟩ := mem_map.mp listed
  obtain ⟨inside,bare⟩ := mem_filter.mp there
  refine ⟨stored,mem_rows.mp inside,fun ticket made => ?_⟩
  have deep := kept.deep stored.dataset ticket made
  rw [(of_decide_eq_true bare).2] at deep
  cases deep

theorem Kept.resolves (kept : Kept state) (found : state.calls.lookup ticket = some call) {parent : Option String}
    (taken : state.resolve lower ticket parent call = some next) : Kept next := by
  cases call with
  | resolve create =>
    cases parent with
    | none =>
      cases taken
      exact kept.quits found rfl
    | some parent =>
      simp only [State.resolve] at taken
      split at taken
      next =>
        cases taken
        exact kept.quits found rfl
      next allowed =>
        cases taken
        apply kept.waits found rfl rfl (fun _ inside => by cases inside)
        refine Bool.and_eq_true_iff.mpr ⟨nested_datasetOf _ _,decide_eq_true fun nobody => allowed ?_⟩
        simp [refused,nobody]
  | adopt organization =>
    cases parent with
    | none =>
      cases taken
      exact kept.quits found rfl
    | some parent =>
      cases taken
      exact kept.waits found rfl rfl nofun rfl
  | _ => cases taken

theorem Kept.makes {create : Create} {applied : List GrantInput} (kept : Kept state)
    (found : state.calls.lookup ticket = some (.make create dataset applied))
    (spared : ((state.pool.lookup dataset).isSome || fate = .created || fate = .fails) = true)
    (taken : state.make ticket fate (.make create dataset applied) = some next) : Kept next := by
  have fit := kept.fit ticket _ found
  have ended : Kept (state.ends ticket) := kept.quits found rfl
  simp only [State.make] at taken
  rcases createDataset_cases dataset (.create ticket) fate with same | same | ⟨absent,answer,same,⟨-,rfl⟩ | ⟨unread,-⟩ | ⟨lost,-⟩⟩
  · rw [same] at taken
    cases taken
    exact ended
  · rw [same] at taken
    cases taken
    exact ended
  · rw [same] at taken
    cases taken
    exact @Kept.holds state ticket _ (.write create dataset applied) dataset kept found rfl absent rfl (Bool.and_eq_true_iff.mp fit).1
      nofun fit
  · simp [absent,unread] at spared
  · simp [absent,lost] at spared

theorem Kept.makesPending {first : Nat × String} {rest : List (Nat × String)} (kept : Kept state)
    (found : state.calls.lookup ticket = some (.makePending parent first rest))
    (taken : state.make ticket fate (.makePending parent first rest) = some next) : Kept next := by
  have ended : Kept (state.ends ticket) := kept.quits found rfl
  have todo : ∀ id ∈ (Call.update parent first rest).todo, Unopened state id := fun id inside => kept.todo ticket _ id found inside
  have pooled : ∀ absent : state.pool.lookup (datasetOf parent first.2) = none,
      Kept ({ state with pool := state.pool.insert (datasetOf parent first.2) (.adoption ticket) }.ends ticket) := by
    intro absent
    exact @Kept.quits _ ticket _ (@Kept.appears state _ (.adoption ticket) kept absent (fun _ never => by cases never)) found rfl
  simp only [State.make] at taken
  rcases createDataset_cases (datasetOf parent first.2) (.adoption ticket) fate with
    same | same | ⟨absent,answer,same,⟨-,rfl⟩ | ⟨-,rfl⟩ | ⟨-,rfl⟩⟩
  · rw [same] at taken
    cases taken
    exact ended
  · rw [same] at taken
    cases taken
    exact ended
  · rw [same] at taken
    cases taken
    exact @Kept.holds state ticket _ (.update parent first rest) _ kept found rfl absent rfl (nested_datasetOf _ _) todo rfl
  all_goals
    rw [same] at taken
    cases taken
    exact pooled absent

theorem Kept.writes {create : Create} {applied : List GrantInput} {heard : Bool} (kept : Kept state)
    (found : state.calls.lookup ticket = some (.write create dataset applied))
    (spared : state.writable fold create applied = true)
    (taken : state.store fold ticket share heard (.write create dataset applied) = some next) : Kept next := by
  have fit := kept.fit ticket _ found
  obtain ⟨pooled,unnamed⟩ := kept.held ticket _ dataset found rfl
  simp only [State.store] at taken
  split at taken <;> cases taken
  next absent =>
    have own : ∃ grant ∈ state.grants ++ grantRows share applied, grant.share = share := by
      cases applied with
      | nil => cases (Bool.and_eq_true_iff.mp fit).2
      | cons first rest =>
        have grantable := (Bool.and_eq_true_iff.mp (Bool.and_eq_true_iff.mp spared).2).1
        have here := (Bool.and_eq_true_iff.mp (all_eq_true.mp grantable first mem_cons_self)).1
        cases holder : first.holder with
        | none => simp [holder] at here
        | some holder' =>
          refine ⟨⟨share,holder',first.permissions⟩,mem_append_right _ (mem_filterMap.mpr ⟨first,mem_cons_self,?_⟩),rfl⟩
          rw [holder]
          rfl
    exact @Kept.stores state share ⟨create.organization,create.name,dataset,create.readOnly⟩ _ state.holders _ kept
      (by simpa using absent) (.inl (isSome_iff_exists.mpr ⟨_,pooled⟩)) unnamed (kept.leaves found rfl)
      (fun grant listed => mem_append_left _ listed) own

theorem Kept.writesPending {first : Nat × String} {rest : List (Nat × String)} {heard : Bool} (kept : Kept state)
    (found : state.calls.lookup ticket = some (.update parent first rest))
    (taken : state.store fold ticket share heard (.update parent first rest) = some next) : Kept next := by
  have todo := fun id inside => kept.todo ticket _ id found inside
  have pending : Unopened state first.1 := todo first.1 mem_cons_self
  have same : (state.update first.1 (datasetOf parent first.2)).calls = state.calls := by
    unfold State.update
    split <;> rfl
  have ended : Kept ((state.update first.1 (datasetOf parent first.2)).ends ticket) := by
    have moved := kept.updates found rfl rfl pending (kept.leaves found rfl)
    unfold State.ends
    rw [same]
    exact moved
  simp only [State.store] at taken
  split at taken
  next =>
    cases taken
    cases rest with
    | nil => exact ended
    | cons second later =>
      have moved := kept.updates found rfl rfl pending (@Kept.turns state ticket _ (.makePending parent second later) _ kept found rfl rfl rfl
        (fun id inside => todo id (mem_cons_of_mem _ inside)))
      unfold State.adoptNext State.continues
      rw [same]
      exact moved
  next =>
    cases taken
    exact ended

theorem Kept.stored {heard : Bool} (kept : Kept state) (found : state.calls.lookup ticket = some call)
    (spared : state.commits fold call = true) (taken : state.store fold ticket share heard call = some next) : Kept next := by
  cases call with
  | write create dataset applied => exact kept.writes found spared taken
  | update parent row rest => exact kept.writesPending found taken
  | _ => cases taken

theorem Kept.installs (kept : Kept state) (taken : step fold lower everyone state (.installs share organization name) = some next) :
    Kept next := by
  simp only [step] at taken
  obtain ⟨free,taken⟩ := of_unless taken
  cases taken
  obtain ⟨fresh,bare,others⟩ : state.shares.lookup share = none ∧ nested name = false ∧
      state.shares.any (fun _ row => decide (row.organization = organization) || decide (row.dataset = name)) = false := by
    simpa [not_or] using free
  have made := @Kept.withEveryone everyone state kept organization
  have same : (state.withEveryone everyone organization).shares = state.shares := by
    unfold State.withEveryone
    split <;> rfl
  have calls : (state.withEveryone everyone organization).calls = state.calls := withEveryone_calls organization
  refine @Kept.stores _ share ⟨organization,name,name,false⟩ _ _ _ made (by rw [same]; exact fresh) (.inr bare) (fun id other stored named => ?_)
    ⟨fun ticket call stored => .inl ⟨stored,fun holds => ?_⟩,fun _ _ _ stored _ _ => stored⟩
    (fun grant listed => mem_append_left _ listed) ⟨_,mem_append_right _ mem_cons_self,rfl⟩
  · rw [same] at stored
    have there : state.shares.any (fun _ row => decide (row.organization = organization) || decide (row.dataset = name)) = true :=
      any_iff.mpr ⟨id,other,stored,by simp [show other.dataset = name from named]⟩
    cases others.symm.trans there
  · rw [calls] at stored
    cases call with
    | write create dataset applied =>
      have deep := (Bool.and_eq_true_iff.mp (kept.fit ticket _ stored)).1
      rw [show dataset = name from Option.some.inj holds] at deep
      cases bare.symm.trans deep
    | update parent row rest =>
      have here : datasetOf parent row.2 = name := Option.some.inj holds
      have deep := nested_datasetOf parent row.2
      rw [here] at deep
      cases bare.symm.trans deep
    | _ => cases holds

theorem step_kept (kept : Kept state) (spared : event.spares fold state = true)
    (taken : step fold lower everyone state event = some next) : Kept next := by
  cases event with
  | creates ticket create | adopts ticket organization =>
    simp only [step] at taken
    obtain ⟨free,taken⟩ := of_unless taken
    cases taken
    exact kept.begins (by simpa using (not_or.mp free).1) rfl rfl rfl
  | resolves ticket parent =>
    obtain ⟨call,found,taken⟩ := bind_eq_some_iff.mp taken
    exact kept.resolves found taken
  | checks ticket =>
    obtain ⟨call,found,taken⟩ := bind_eq_some_iff.mp taken
    cases call with
    | check create dataset =>
      cases taken
      exact kept.check found
    | list organization parent =>
      cases taken
      exact kept.adoptNext found rfl (kept.pending organization)
    | _ => cases taken
  | makes ticket fate =>
    obtain ⟨call,found,taken⟩ := bind_eq_some_iff.mp taken
    simp only [Event.spares,found,all_some] at spared
    cases call with
    | make create dataset applied => exact kept.makes found spared taken
    | makePending parent first rest => exact kept.makesPending found taken
    | _ => cases taken
  | writes ticket id | writeLost ticket id =>
    obtain ⟨call,found,taken⟩ := bind_eq_some_iff.mp taken
    simp only [Event.spares,found,all_some] at spared
    exact kept.stored found spared taken
  | fails ticket =>
    obtain ⟨call,found,rfl⟩ := map_eq_some_iff.mp taken
    simp only [Event.spares,found,all_some] at spared
    apply kept.ends
    intro other dataset stored holds
    rw [found] at stored
    cases stored
    have there := (kept.held ticket call dataset found holds).1
    cases call with
    | write _ _ _ => cases spared
    | _ =>
      refine .inl fun made => ?_
      rw [there] at made
      cases made
  | joins organization holder =>
    simp only [step] at taken
    obtain ⟨-,taken⟩ := of_unless taken
    cases taken
    exact @Kept.peopled state _ state.doomed kept
  | guards organization holder =>
    simp only [step] at taken
    obtain ⟨-,taken⟩ := of_when taken
    cases taken
    exact @Kept.peopled state state.holders _ kept
  | deletes organization holder =>
    simp only [step] at taken
    obtain ⟨-,taken⟩ := of_when taken
    cases taken
    exact kept.deletes spared organization
  | installs id organization slug => exact kept.installs taken
  | appears dataset =>
    simp only [step] at taken
    obtain ⟨absent,taken⟩ := of_unless taken
    cases taken
    exact kept.appears (by simpa using absent) nofun

theorem kept_first : Kept State.first :=
  ⟨nofun,nofun,nofun,
    nofun,nofun,nofun,
    nofun,nofun⟩

/-- A share or nothing in the way: a dataset made for a create that has ended is named by a row; every row has a grant, and
a dataset that is there unless it is still pending; and no two rows name one dataset. -/
structure Opened (state : State) : Prop where
  clear : ∀ dataset ticket, state.pool.lookup dataset = some (.create ticket) → state.calls.lookup ticket = none →
    ∃ id row, state.shares.lookup id = some row ∧ row.dataset = dataset
  governed : ∀ id row, state.shares.lookup id = some row → ∃ grant ∈ state.grants, grant.share = id
  owned : ∀ id row, state.shares.lookup id = some row → (state.pool.lookup row.dataset).isSome = true ∨ nested row.dataset = false
  apart : ∀ first second one other, state.shares.lookup first = some one → state.shares.lookup second = some other →
    one.dataset = other.dataset → first = second

/-- Every reached state is so, as long as what the agent makes for a create is answered and its row committed, and no
deletion takes a share's last grant. -/
theorem opens {events : List Event}
    (met : Machine.Meets (step fold lower everyone) (fun state event => event.spares fold state = true) State.first events)
    (ran : Machine.run (step fold lower everyone) State.first events = some final) : Opened final := by
  have kept : Kept final :=
    Machine.run_invariant (step fold lower everyone) (fun _ _ _ kept spared taken => step_kept kept spared taken) kept_first met ran
  refine ⟨fun dataset ticket made ended => ?_,kept.governed,kept.owned,kept.apart⟩
  rcases kept.made dataset ticket made with named | ⟨call,found,-⟩
  · exact named
  · cases ended.symm.trans found

def plain (text : String) : String := text

def herkes (organization : String) : String := "herkes-" ++ organization

def accounts (grants : Option (List GrantInput)) : Create := ⟨"org","sahip","muhasebe",false,none,grants⟩

def opening : List Event := [.joins "org" (.user "sahip"),.installs 0 "org" "ev",.creates 1 (accounts none),
  .resolves 1 (some "tank/depsis"),.checks 1,.makes 1 .created,.writes 1 1,.adopts 2 "org",.resolves 2 (some "tank/depsis"),
  .checks 2,.makes 2 .created,.writes 2 0]

theorem opens_opening : ∃ final, Machine.run (step plain plain herkes) State.first opening = some final ∧
    final.shares.rows.map (fun row => row.2.dataset) = ["tank/depsis/ev","tank/depsis/muhasebe"] ∧ Opened final := by
  have runs : (Machine.run (step plain plain herkes) State.first opening).any (fun final =>
      final.shares.rows.map (fun row => row.2.dataset) = ["tank/depsis/ev","tank/depsis/muhasebe"]) = true := by decide +kernel
  have met : Machine.Meets (step plain plain herkes) (fun state event => event.spares plain state = true) State.first opening := by
    decide +kernel
  obtain ⟨final,ran,rows⟩ := (any_eq_true _ _).mp runs
  exact ⟨final,ran,of_decide_eq_true rows,opens met ran⟩

/-- The user named in the first grant is deleted after the check: the row is undone, the dataset stays, and opening the
share again for somebody who is there ends at the agent. -/
def stranding : List Event := [.joins "org" (.user "sahip"),.joins "org" (.user "ayşe"),
  .creates 1 (accounts (some [⟨some "ayşe",none,["list","read"]⟩])),.resolves 1 (some "tank/depsis"),.checks 1,
  .guards "org" (.user "ayşe"),.deletes "org" (.user "ayşe"),.makes 1 .created,.writes 1 1,
  .creates 2 (accounts none),.resolves 2 (some "tank/depsis"),.checks 2,.makes 2 .created]

theorem opens_nothing : ¬∀ events final, Machine.run (step plain plain herkes) State.first events = some final → Opened final := by
  intro claimed
  have runs : (Machine.run (step plain plain herkes) State.first stranding).any (fun final =>
      final.pool.lookup "tank/depsis/muhasebe" = some (.create 1) ∧ final.calls.lookup 1 = none ∧ final.shares.rows = []) = true := by
    decide +kernel
  obtain ⟨final,ran,left⟩ := (any_eq_true _ _).mp runs
  obtain ⟨made,ended,empty⟩ := of_decide_eq_true left
  obtain ⟨id,row,stored,-⟩ := (claimed _ final ran).clear _ 1 made ended
  have listed := mem_rows.mpr stored
  rw [empty] at listed
  cases listed

end Depsis.Shares.Opening

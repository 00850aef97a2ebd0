import Depsis.Agent.Handshake

/-! What the handshake guards: one exchange at a time, every request settled by its deadline,
and nothing asked any more once the agent has shown another version.
-/
namespace Depsis.Agent.Handshake

open Depsis.Foundation List Machine

variable {config : Config} {state next : State} {event : Event}

/-- Requests are chained in the order they were asked, and one goes on when those before it are settled. -/
structure Chained (config : Config) (state : State) : Prop where
  behind : ∀ (id : Nat) (entry : Entry), state.entries[id]? = some entry → entry.behind = if id = 0 then none else some (id-1)
  chain : state.chain = if state.entries.length = 0 then none else some (state.entries.length-1)
  first : ∀ (id : Nat) (entry : Entry), state.entries[id]? = some entry → entry.phase ≠ .waiting →
    ∀ (before : Nat) (other : Entry), before < id → state.entries[before]? = some other → other.phase.settled = true
  deadline : ∀ entry ∈ state.entries, entry.deadline = entry.asked+config.budgetMs ∧ entry.asked ≤ state.now
  sorted : ∀ (first second : Nat) (one other : Entry), first ≤ second → state.entries[first]? = some one → state.entries[second]? = some other →
    one.asked ≤ other.asked
  inTime : ∀ entry ∈ state.entries, (entry.phase.settled = false → state.now ≤ entry.deadline) ∧
    ∀ time, entry.settledAt = some time → time ≤ entry.deadline
  depth : state.depth = state.entries.countP (fun entry => !entry.phase.settled)
  call : ∀ entry ∈ state.entries, entry.kind = .call → entry.concluded = true ∧ entry.knew = none

theorem chained_initial (config : Config) (now : Nat) : Chained config (State.initial now) := by
  constructor <;> simp [State.initial]

def Entry.Onward (entry moved : Entry) : Prop :=
  moved.kind = entry.kind ∧ moved.asked = entry.asked ∧ moved.deadline = entry.deadline ∧ moved.behind = entry.behind ∧
    moved.knew = entry.knew ∧ (entry.phase.settled = true → moved.phase.settled = true) ∧
      (entry.concluded = true → moved.concluded = true)

theorem getElem?_enqueue {kind : Kind} {id : Nat} {entry : Entry} (is : (enqueue config state kind).entries[id]? = some entry) :
    state.entries[id]? = some entry ∨ (id = state.entries.length ∧ entry = {
      kind := kind, asked := state.now, deadline := state.now+config.budgetMs, behind := state.chain, phase := .waiting,
      settledAt := none, sent := false, concluded := kind = .call, knew := state.refuseBecause }) := by
  simp only [enqueue,getElem?_append] at is
  split at is
  · exact Or.inl is
  · next past =>
    right
    have length : id-state.entries.length = 0 := by
      by_contra more
      rw [getElem?_eq_none (by simp; omega)] at is
      cases is
    rw [length] at is
    exact ⟨by omega,(Option.some.inj is).symm⟩

theorem mem_enqueue {kind : Kind} {entry : Entry} (is : entry ∈ (enqueue config state kind).entries) :
    entry ∈ state.entries ∨ entry = {
      kind := kind, asked := state.now, deadline := state.now+config.budgetMs, behind := state.chain, phase := .waiting,
      settledAt := none, sent := false, concluded := kind = .call, knew := state.refuseBecause } := by
  simpa [enqueue] using is

theorem Chained.enqueue (chained : Chained config state) {kind : Kind} (allowed : kind = .call → state.refuseBecause = none) :
    Chained config (enqueue config state kind) where
  behind id entry is := by
    rcases getElem?_enqueue is with old | ⟨rfl,rfl⟩
    · exact chained.behind id entry old
    · exact chained.chain
  chain := by simp [Handshake.enqueue]
  first id entry is live before other earlier was := by
    rcases getElem?_enqueue is with old | ⟨rfl,rfl⟩
    · rcases getElem?_enqueue was with old' | ⟨rfl,_⟩
      · exact chained.first id entry old live before other earlier old'
      · have bound := (List.getElem?_eq_some_iff.mp old).1
        omega
    · exact absurd rfl live
  deadline entry is := by
    rcases mem_enqueue is with old | rfl
    · exact chained.deadline entry old
    · exact ⟨rfl,Nat.le_refl _⟩
  sorted first second one other before was is := by
    rcases getElem?_enqueue is with old | ⟨rfl,rfl⟩
    · rcases getElem?_enqueue was with old' | ⟨rfl,_⟩
      · exact chained.sorted first second one other before old' old
      · have bound := (List.getElem?_eq_some_iff.mp old).1
        omega
    · rcases getElem?_enqueue was with old' | ⟨_,rfl⟩
      · exact (chained.deadline one (mem_of_getElem? old')).2
      · exact Nat.le_refl _
  inTime entry is := by
    rcases mem_enqueue is with old | rfl
    · exact chained.inTime entry old
    · exact ⟨fun _ => Nat.le_add_right _ _,nofun⟩
  depth := by simp [Handshake.enqueue,chained.depth,Phase.settled]
  call entry is asked := by
    rcases mem_enqueue is with old | rfl
    · exact chained.call entry old asked
    · exact ⟨by simpa using asked,allowed asked⟩

theorem getElem?_set {entries : List Entry} {id other : Nat} {moved entry : Entry}
    (is : (entries.set id moved)[other]? = some entry) : (other = id ∧ entry = moved) ∨ (other ≠ id ∧ entries[other]? = some entry) := by
  rw [List.getElem?_set] at is
  split at is
  · next same =>
    obtain ⟨-,is⟩ := of_when is
    exact Or.inl ⟨same.symm,(Option.some.inj is).symm⟩
  · next apart => exact Or.inr ⟨Ne.symm apart,is⟩

private theorem countP_set_entry {entries : List Entry} {id : Nat} {entry moved : Entry} (is : entries[id]? = some entry)
    (live : entry.phase.settled = false) (ends : moved.phase.settled = true) :
    (entries.set id moved).countP (fun entry => !entry.phase.settled) = entries.countP (fun entry => !entry.phase.settled)-1 := by
  obtain ⟨bound,rfl⟩ := List.getElem?_eq_some_iff.mp is
  rw [countP_set bound]
  simp [live,ends]

private theorem countP_set_same {entries : List Entry} {id : Nat} {entry moved : Entry} (is : entries[id]? = some entry)
    (same : moved.phase.settled = entry.phase.settled) :
    (entries.set id moved).countP (fun entry => !entry.phase.settled) = entries.countP (fun entry => !entry.phase.settled) := by
  obtain ⟨bound,rfl⟩ := List.getElem?_eq_some_iff.mp is
  rw [countP_set bound]
  cases live : entries[id].phase.settled with
  | true => simp [live,same]
  | false =>
    have some : 0 < entries.countP (fun entry => !entry.phase.settled) :=
      countP_pos_iff.mpr ⟨entries[id],getElem_mem bound,by simp [live]⟩
    simp only [live,same,Bool.not_false,if_true]
    omega

theorem Chained.set (chained : Chained config state) {id depth : Nat} {entry moved : Entry} (is : state.entries[id]? = some entry)
    (onward : entry.Onward moved)
    (turn : moved.phase ≠ .waiting → ∀ (before : Nat) (other : Entry), before < id → state.entries[before]? = some other → other.phase.settled = true)
    (inTime : (moved.phase.settled = false → state.now ≤ entry.deadline) ∧
      ∀ time, moved.settledAt = some time → time ≤ entry.deadline)
    (counted : depth = (state.entries.set id moved).countP (fun entry => !entry.phase.settled)) :
    Chained config { state with entries := state.entries.set id moved, depth := depth } where
  behind other found was := by
    rcases getElem?_set was with ⟨rfl,rfl⟩ | ⟨_,old⟩
    · rw [onward.2.2.2.1]
      exact chained.behind other entry is
    · exact chained.behind other found old
  chain := by simpa using chained.chain
  first other found was live before earlier less there := by
    rcases getElem?_set was with ⟨rfl,rfl⟩ | ⟨_,old⟩
    · rcases getElem?_set there with ⟨rfl,_⟩ | ⟨_,there⟩
      · omega
      · exact turn live before earlier less there
    · rcases getElem?_set there with ⟨rfl,rfl⟩ | ⟨_,there⟩
      · exact onward.2.2.2.2.2.1 (chained.first other found old live before entry less is)
      · exact chained.first other found old live before earlier less there
  deadline found was := by
    rcases mem_or_eq_of_mem_set was with old | rfl
    · exact chained.deadline found old
    · rw [onward.2.1,onward.2.2.1]
      exact chained.deadline entry (mem_of_getElem? is)
  sorted first second one other before left right := by
    have asked : ∀ {place : Nat} {found : Entry}, (state.entries.set id moved)[place]? = some found →
        ∃ old, state.entries[place]? = some old ∧ found.asked = old.asked := by
      intro place found was
      rcases getElem?_set was with ⟨rfl,rfl⟩ | ⟨_,old⟩
      · exact ⟨entry,is,onward.2.1⟩
      · exact ⟨found,old,rfl⟩
    obtain ⟨one',left,same⟩ := asked left
    obtain ⟨other',right,same'⟩ := asked right
    rw [same,same']
    exact chained.sorted first second one' other' before left right
  inTime found was := by
    rcases mem_or_eq_of_mem_set was with old | rfl
    · exact chained.inTime found old
    · rw [onward.2.2.1]
      exact inTime
  depth := counted
  call found was asked := by
    rcases mem_or_eq_of_mem_set was with old | rfl
    · exact chained.call found old asked
    · rw [onward.1] at asked
      obtain ⟨concluded,knew⟩ := chained.call entry (mem_of_getElem? is) asked
      exact ⟨onward.2.2.2.2.2.2 concluded,onward.2.2.2.2.1.trans knew⟩

theorem Chained.of_eq {other : State} (chained : Chained config state) (entries : other.entries = state.entries)
    (chain : other.chain = state.chain) (depth : other.depth = state.depth) (now : other.now = state.now) :
    Chained config other := by
  obtain ⟨behind,chainIs,first,deadline,sorted,inTime,depthIs,call⟩ := chained
  constructor <;> simp only [entries,chain,depth,now] <;> assumption

theorem live_of_settled {phase : Phase} (settled : phase.settled = true) : phase ≠ .waiting := by
  rintro rfl
  cases settled

theorem Chained.released (chained : Chained config state) {id : Nat} {entry : Entry} (is : state.entries[id]? = some entry)
    (free : released state.entries entry = true) (before : Nat) (other : Entry) (less : before < id)
    (there : state.entries[before]? = some other) : other.phase.settled = true := by
  have behind := chained.behind id entry is
  rw [if_neg (by omega)] at behind
  simp only [Handshake.released,behind] at free
  obtain ⟨last,found,settled⟩ := (Option.any_eq_true _ _).mp free
  by_cases same : before = id-1
  · rw [same,found] at there
    exact Option.some.inj there ▸ settled
  · exact chained.first (id-1) last found (live_of_settled settled) before other (by omega) there

theorem Chained.unsettled (chained : Chained config state) {id : Nat} {entry : Entry} (is : state.entries[id]? = some entry)
    (live : entry.phase.settled = false) : state.now ≤ entry.deadline :=
  (chained.inTime entry (mem_of_getElem? is)).1 live

theorem Chained.settle (chained : Chained config state) {id : Nat} {entry : Entry} (is : state.entries[id]? = some entry)
    (live : entry.phase.settled = false) {phase : Phase} (ends : phase.settled = true)
    (turn : ∀ (before : Nat) (other : Entry), before < id → state.entries[before]? = some other → other.phase.settled = true) :
    Chained config (settle state id entry phase) := by
  refine chained.set is ?_ (fun _ => turn) ⟨?_,?_⟩ ?_
  · exact ⟨rfl,rfl,rfl,rfl,rfl,fun _ => ends,fun concluded => concluded⟩
  · intro unsettled
    rw [ends] at unsettled
    cases unsettled
  · intro time now
    cases now
    exact chained.unsettled is live
  · rw [countP_set_entry is live ends,chained.depth]

@[simp] theorem conclude_entries (state : State) (entry : Entry) : (conclude state entry).entries = state.entries := by
  unfold conclude
  repeat' split
  all_goals rfl

@[simp] theorem conclude_chain (state : State) (entry : Entry) : (conclude state entry).chain = state.chain := by
  unfold conclude
  repeat' split
  all_goals rfl

@[simp] theorem conclude_depth (state : State) (entry : Entry) : (conclude state entry).depth = state.depth := by
  unfold conclude
  repeat' split
  all_goals rfl

@[simp] theorem conclude_now (state : State) (entry : Entry) : (conclude state entry).now = state.now := by
  unfold conclude
  repeat' split
  all_goals rfl

@[simp] theorem conclude_initialised (state : State) (entry : Entry) :
    (conclude state entry).initialised = state.initialised := by
  unfold conclude
  repeat' split
  all_goals rfl

theorem Chained.initialises (chained : Chained config state) : Chained config { state with initialised := true } :=
  chained.of_eq rfl rfl rfl rfl

theorem Chained.passes (chained : Chained config state) {milliseconds : Nat}
    (idle : state.entries.any (ready state.entries) = false)
    (timers : ∀ entry ∈ state.entries, entry.phase = .exchanging → state.now+milliseconds ≤ entry.deadline) :
    Chained config { state with now := state.now+milliseconds } := by
  have waits : ∀ (id : Nat) (entry : Entry), state.entries[id]? = some entry → entry.phase.settled = false →
      state.now+milliseconds ≤ entry.deadline := by
    intro id
    induction id with
    | zero =>
      intro entry is live
      cases phase : entry.phase with
      | exchanging => exact timers entry (mem_of_getElem? is) phase
      | waiting =>
        have unready := (any_eq_false.mp idle) entry (mem_of_getElem? is)
        have behind := chained.behind 0 entry is
        rw [if_pos rfl] at behind
        simp [ready,phase,Handshake.released,behind] at unready
      | answered response | failed => simp [phase,Phase.settled] at live
    | succ id ih =>
      intro entry is live
      cases phase : entry.phase with
      | exchanging => exact timers entry (mem_of_getElem? is) phase
      | answered response | failed => simp [phase,Phase.settled] at live
      | waiting =>
        have bound := (List.getElem?_eq_some_iff.mp is).1
        have found : state.entries[id]? = some state.entries[id] := getElem?_eq_getElem (by omega)
        have unready := (any_eq_false.mp idle) entry (mem_of_getElem? is)
        have behind := chained.behind (id+1) entry is
        rw [if_neg (Nat.succ_ne_zero id),Nat.add_sub_cancel] at behind
        have unsettled : (state.entries[id]).phase.settled = false := by
          simpa [ready,phase,Handshake.released,behind,found,Phase.settled.eq_1] using unready
        have earlier := ih _ found unsettled
        have first := (chained.deadline _ (mem_of_getElem? found)).1
        have second := (chained.deadline entry (mem_of_getElem? is)).1
        have sorted := chained.sorted id (id+1) _ entry (Nat.le_succ id) found is
        omega
  obtain ⟨behind,chainIs,first,deadline,sorted,inTime,depthIs,call⟩ := chained
  refine ⟨behind,chainIs,first,?_,sorted,?_,depthIs,call⟩
  · intro entry is
    obtain ⟨exact',asked⟩ := deadline entry is
    exact ⟨exact',Nat.le_trans asked (Nat.le_add_right _ _)⟩
  · intro entry is
    obtain ⟨id,place⟩ := getElem?_of_mem is
    exact ⟨waits id entry place,(inTime entry is).2⟩

theorem step_chained (chained : Chained config state) (taken : step config state event = some next) : Chained config next := by
  cases event with simp only [step] at taken
  | onModuleInit =>
    obtain ⟨-,taken⟩ := of_unless taken
    split at taken
    · cases taken
      exact chained.initialises.enqueue nofun
    · cases taken
      exact chained.initialises
  | ensureAvailable =>
    split at taken
    · cases taken
      exact chained
    · split at taken
      · cases taken
        exact chained
      · split at taken
        · cases taken
          exact chained
        · cases taken
          have probed : Chained config { state with lastProbeAt := state.now } := chained.of_eq rfl rfl rfl rfl
          exact probed.enqueue nofun
  | call identified =>
    repeat' split at taken
    all_goals cases taken
    all_goals first | exact chained | skip
    next trusted _ _ => exact chained.enqueue (fun _ => by simpa using trusted)
  | starts id =>
    split at taken
    · next entry is =>
      obtain ⟨free,taken⟩ := of_when taken
      obtain ⟨waiting,free⟩ := (Bool.and_eq_true _ _).mp free
      have waiting : entry.phase = .waiting := of_decide_eq_true waiting
      have live : entry.phase.settled = false := by rw [waiting]; rfl
      have turn := chained.released is free
      split at taken
      · cases taken
        exact chained.settle is live rfl turn
      · cases taken
        have counted : state.depth = (state.entries.set id { entry with phase := .exchanging, sent := true }).countP
            (fun entry => !entry.phase.settled) := chained.depth.trans (countP_set_same is (by rw [live]; rfl)).symm
        refine (chained.set is ?_ (fun _ => turn) ⟨fun _ => chained.unsettled is live,?_⟩ counted).of_eq rfl rfl rfl rfl
        · exact ⟨rfl,rfl,rfl,rfl,rfl,(fun settled => absurd settled (by simp [live])),fun concluded => concluded⟩
        · exact (chained.inTime entry (mem_of_getElem? is)).2
    · cases taken
  | answers id response =>
    split at taken
    · next entry is =>
      obtain ⟨busy,taken⟩ := of_when taken
      have exchanging : entry.phase = .exchanging := of_decide_eq_true ((Bool.and_eq_true _ _).mp busy).1
      cases taken
      have settled : Chained config (settle state id entry (.answered response)) :=
        chained.settle is (by rw [exchanging]; rfl) rfl (chained.first id entry is (by rw [exchanging]; nofun))
      exact settled.of_eq rfl rfl rfl rfl
    · cases taken
  | fails id =>
    split at taken
    · next entry is =>
      obtain ⟨busy,taken⟩ := of_when taken
      have exchanging : entry.phase = .exchanging := of_decide_eq_true ((Bool.and_eq_true _ _).mp busy).1
      cases taken
      refine chained.settle is (by rw [exchanging]; rfl) rfl ?_
      exact chained.first id entry is (by rw [exchanging]; nofun)
    · cases taken
  | concludes id =>
    split at taken
    · next entry is =>
      obtain ⟨pending,taken⟩ := of_when taken
      obtain ⟨settled,_⟩ := (Bool.and_eq_true _ _).mp pending
      cases taken
      have counted : state.depth = (state.entries.set id { entry with concluded := true }).countP
          (fun entry => !entry.phase.settled) :=
        chained.depth.trans (@countP_set_same _ id entry { entry with concluded := true } is rfl).symm
      have onward : entry.Onward { entry with concluded := true } :=
        ⟨rfl,rfl,rfl,rfl,rfl,fun settled => settled,fun _ => rfl⟩
      exact (chained.set is onward (fun live => chained.first id entry is live)
        (chained.inTime entry (mem_of_getElem? is)) counted).of_eq
          (conclude_entries _ _) (conclude_chain _ _) (conclude_depth _ _) (conclude_now _ _)
    · cases taken
  | passes milliseconds =>
    obtain ⟨idle,taken⟩ := of_when taken
    obtain ⟨idle,timers⟩ := (Bool.and_eq_true _ _).mp idle
    cases taken
    refine chained.passes (by simpa using idle) (fun entry is exchanging => ?_)
    have timer := all_eq_true.mp timers entry is
    simpa [exchanging] using timer

inductive Change (config : Config) (state next : State) : Prop where
  | same (entries : next.entries = state.entries) (latch : next.available = state.available)
      (refuse : next.refuseBecause = state.refuseBecause)
  | asked (kind : Kind) (entries : next.entries = (enqueue config state kind).entries)
      (latch : next.available = state.available) (refuse : next.refuseBecause = state.refuseBecause)
      (trusted : state.refuseBecause = none ∨ state.initialised = false)
  | moved (id : Nat) (entry moved : Entry) (is : state.entries[id]? = some entry)
      (entries : next.entries = state.entries.set id moved) (live : entry.phase.settled = false)
      (onward : moved.kind = entry.kind ∧ moved.concluded = entry.concluded)
      (phase : moved.phase = .exchanging ∨ moved.phase = .failed)
      (latch : next.available = state.available) (refuse : next.refuseBecause = state.refuseBecause)
  | heard (id : Nat) (entry moved : Entry) (response : Response) (is : state.entries[id]? = some entry)
      (entries : next.entries = state.entries.set id moved) (live : entry.phase = .exchanging)
      (onward : moved.kind = entry.kind ∧ moved.concluded = entry.concluded) (phase : moved.phase = .answered response)
      (idle : state.entries.any (ready state.entries) = false) (latch : next.available = true)
      (refuse : next.refuseBecause = state.refuseBecause)
  | concluded (id : Nat) (entry : Entry) (is : state.entries[id]? = some entry)
      (entries : next.entries = state.entries.set id { entry with concluded := true })
      (settled : entry.phase.settled = true) (pending : entry.concluded = false)
      (latch : next.available = (conclude state entry).available)
      (refuse : next.refuseBecause = (conclude state entry).refuseBecause)

theorem conclude_latch (state other : State) (entry : Entry) (latch : other.available = state.available)
    (refuse : other.refuseBecause = state.refuseBecause) :
    (conclude other entry).available = (conclude state entry).available ∧
      (conclude other entry).refuseBecause = (conclude state entry).refuseBecause := by
  unfold conclude
  split <;> try split
  all_goals exact ⟨by simp [latch],by simp [refuse]⟩

theorem step_change (taken : step config state event = some next) : Change config state next := by
  cases event with simp only [step] at taken
  | onModuleInit =>
    obtain ⟨fresh,taken⟩ := of_unless taken
    split at taken
    · cases taken
      exact .asked .startup rfl rfl rfl (Or.inr (by simpa using fresh))
    · cases taken
      exact .same rfl rfl rfl
  | ensureAvailable =>
    split at taken
    · cases taken
      exact .same rfl rfl rfl
    · split at taken
      · cases taken
        exact .same rfl rfl rfl
      · next trusted =>
        split at taken
        · cases taken
          exact .same rfl rfl rfl
        · cases taken
          refine .asked .probe rfl rfl rfl (Or.inl ?_)
          rw [Bool.or_eq_true,not_or] at trusted
          simpa using trusted.2
  | call identified =>
    repeat' split at taken
    all_goals cases taken
    all_goals first | exact .same rfl rfl rfl | skip
    next trusted _ _ => exact .asked .call rfl rfl rfl (Or.inl (by simpa using trusted))
  | starts id =>
    split at taken
    · next entry is =>
      obtain ⟨free,taken⟩ := of_when taken
      have waiting : entry.phase = .waiting := of_decide_eq_true ((Bool.and_eq_true _ _).mp free).1
      have live : entry.phase.settled = false := by rw [waiting]; rfl
      split at taken
      · cases taken
        exact .moved id entry _ is rfl live ⟨rfl,rfl⟩ (Or.inr rfl) rfl rfl
      · cases taken
        exact .moved id entry _ is rfl live ⟨rfl,rfl⟩ (Or.inl rfl) rfl rfl
    · cases taken
  | answers id response =>
    split at taken
    · next entry is =>
      obtain ⟨busy,taken⟩ := of_when taken
      obtain ⟨exchanging,idle⟩ := (Bool.and_eq_true _ _).mp busy
      cases taken
      exact .heard id entry _ response is rfl (of_decide_eq_true exchanging) ⟨rfl,rfl⟩ rfl (by simpa using idle) rfl rfl
    · cases taken
  | fails id =>
    split at taken
    · next entry is =>
      obtain ⟨busy,taken⟩ := of_when taken
      have exchanging : entry.phase = .exchanging := of_decide_eq_true ((Bool.and_eq_true _ _).mp busy).1
      cases taken
      exact .moved id entry _ is rfl (by rw [exchanging]; rfl) ⟨rfl,rfl⟩ (Or.inr rfl) rfl rfl
    · cases taken
  | concludes id =>
    split at taken
    · next entry is =>
      obtain ⟨pending,taken⟩ := of_when taken
      obtain ⟨settled,pending⟩ := (Bool.and_eq_true _ _).mp pending
      cases taken
      obtain ⟨latch,refuse⟩ := conclude_latch state
        { state with entries := state.entries.set id { entry with concluded := true } } entry rfl rfl
      exact .concluded id entry is (conclude_entries _ _) settled (by simpa using pending) latch refuse
    · cases taken
  | passes milliseconds =>
    obtain ⟨-,taken⟩ := of_when taken
    cases taken
    exact .same rfl rfl rfl

def Entry.Opens (entry : Entry) : Prop :=
  entry.Verified ∨ (entry.kind = .call ∧ ∃ response, entry.phase = .answered response) ∨
    (entry.concluded = false ∧ ∃ response, entry.phase = .answered response)

structure Latched (state : State) : Prop where
  opened : state.available = true → ∃ (id : Nat) (entry : Entry), state.entries[id]? = some entry ∧ entry.Opens
  known : ∀ entry ∈ state.entries, entry.Mismatched → entry.concluded = true → state.refuseBecause ≠ none
  heard : ∀ (id : Nat) (entry : Entry), state.entries[id]? = some entry → (∃ response, entry.phase = .answered response) →
    ∀ (before : Nat) (other : Entry), before < id → state.entries[before]? = some other → other.concluded = true
  pending : ∀ entry ∈ state.entries, entry.kind ≠ .call → entry.phase.settled = false → entry.concluded = false
  later : ∀ (id : Nat) (entry : Entry), state.entries[id]? = some entry → entry.Mismatched → entry.concluded = true →
    state.available = true → id+1 < state.entries.length

theorem latched_initial (now : Nat) : Latched (State.initial now) := by
  constructor <;> simp [State.initial]

theorem mismatched_settled {entry : Entry} (mismatched : entry.Mismatched) : ∃ response, entry.phase = .answered response := by
  obtain ⟨_,version,is,_⟩ := mismatched
  exact ⟨_,is⟩

theorem Latched.asked (latched : Latched state) {kind : Kind} (entries : next.entries = (enqueue config state kind).entries)
    (latch : next.available = state.available) (refuse : next.refuseBecause = state.refuseBecause) : Latched next where
  opened open' := by
    rw [latch] at open'
    obtain ⟨id,entry,is,opens⟩ := latched.opened open'
    refine ⟨id,entry,?_,opens⟩
    rw [entries,Handshake.enqueue,List.getElem?_append_left (List.getElem?_eq_some_iff.mp is).1]
    exact is
  known entry is mismatched concluded := by
    rw [entries] at is
    rw [refuse]
    rcases mem_enqueue is with old | rfl
    · exact latched.known entry old mismatched concluded
    · obtain ⟨_,answered⟩ := mismatched_settled mismatched
      cases answered
  heard id entry is answered before other less there := by
    rw [entries] at is there
    rcases getElem?_enqueue is with old | ⟨rfl,rfl⟩
    · rcases getElem?_enqueue there with there | ⟨rfl,_⟩
      · exact latched.heard id entry old answered before other less there
      · have bound := (List.getElem?_eq_some_iff.mp old).1
        omega
    · obtain ⟨_,answered⟩ := answered
      cases answered
  pending entry is ping live := by
    rw [entries] at is
    rcases mem_enqueue is with old | rfl
    · exact latched.pending entry old ping live
    · simpa using ping
  later id entry is mismatched concluded open' := by
    rw [entries] at is ⊢
    rw [latch] at open'
    rcases getElem?_enqueue is with old | ⟨rfl,rfl⟩
    · have bound := latched.later id entry old mismatched concluded open'
      simp only [Handshake.enqueue,length_append,length_singleton]
      omega
    · obtain ⟨_,answered⟩ := mismatched_settled mismatched
      cases answered

theorem Latched.moved (latched : Latched state) {id : Nat} {entry moved : Entry} (is : state.entries[id]? = some entry)
    (entries : next.entries = state.entries.set id moved) (live : entry.phase.settled = false)
    (onward : moved.kind = entry.kind ∧ moved.concluded = entry.concluded)
    (phase : moved.phase = .exchanging ∨ moved.phase = .failed)
    (latch : next.available = state.available) (refuse : next.refuseBecause = state.refuseBecause) : Latched next := by
  have silent : ¬∃ response, moved.phase = .answered response := by
    rintro ⟨response,answered⟩
    rcases phase with is | is <;> rw [is] at answered <;> cases answered
  refine ⟨fun open' => ?_,?_,?_,?_,?_⟩
  · rw [latch] at open'
    obtain ⟨place,found,there,opens⟩ := latched.opened open'
    refine ⟨place,found,?_,opens⟩
    rw [entries,getElem?_set_ne]
    · exact there
    · rintro rfl
      rw [is] at there
      cases there
      rcases opens with ⟨_,answered⟩ | ⟨_,_,answered⟩ | ⟨_,_,answered⟩ <;> rw [answered] at live <;> cases live
  · intro found member mismatched concluded
    rw [entries] at member
    rw [refuse]
    rcases mem_or_eq_of_mem_set member with old | rfl
    · exact latched.known found old mismatched concluded
    · exact absurd (mismatched_settled mismatched) silent
  · intro place found there answered before other less was
    rw [entries] at there was
    rcases getElem?_set there with ⟨rfl,rfl⟩ | ⟨_,old⟩
    · exact absurd answered silent
    · rcases getElem?_set was with ⟨rfl,rfl⟩ | ⟨_,was⟩
      · rw [onward.2]
        exact latched.heard place found old answered before entry less is
      · exact latched.heard place found old answered before other less was
  · intro found member ping unsettled
    rw [entries] at member
    rcases mem_or_eq_of_mem_set member with old | rfl
    · exact latched.pending found old ping unsettled
    · rw [onward.2]
      exact latched.pending entry (mem_of_getElem? is) (onward.1 ▸ ping) live
  · intro place found there mismatched concluded open'
    rw [entries] at there ⊢
    rw [latch] at open'
    rw [length_set]
    rcases getElem?_set there with ⟨rfl,rfl⟩ | ⟨_,old⟩
    · exact absurd (mismatched_settled mismatched) silent
    · exact latched.later place found old mismatched concluded open'

theorem Latched.answered (latched : Latched state) (chained : Chained config state) {id : Nat} {entry moved : Entry}
    {response : Response} (is : state.entries[id]? = some entry) (entries : next.entries = state.entries.set id moved)
    (live : entry.phase = .exchanging) (onward : moved.kind = entry.kind ∧ moved.concluded = entry.concluded)
    (phase : moved.phase = .answered response) (idle : state.entries.any (ready state.entries) = false)
    (refuse : next.refuseBecause = state.refuseBecause) : Latched next := by
  have unsettled : entry.phase.settled = false := by rw [live]; rfl
  have turn := chained.first id entry is (by rw [live]; nofun)
  have there : next.entries[id]? = some moved := by
    rw [entries]
    exact List.getElem?_set_self (List.getElem?_eq_some_iff.mp is).1
  have old : ∀ found : Entry, found.concluded = true → found.Mismatched → found = moved → moved.concluded = true → False := by
    intro found _ mismatched same concluded
    rw [same] at mismatched
    have pending := latched.pending entry (mem_of_getElem? is) (onward.1 ▸ mismatched.1) unsettled
    rw [onward.2,pending] at concluded
    cases concluded
  refine ⟨fun _ => ⟨id,moved,there,?_⟩,?_,?_,?_,?_⟩
  · by_cases call : moved.kind = .call
    · exact Or.inr (Or.inl ⟨call,response,phase⟩)
    · refine Or.inr (Or.inr ⟨?_,response,phase⟩)
      rw [onward.2]
      exact latched.pending entry (mem_of_getElem? is) (onward.1 ▸ call) unsettled
  · intro found member mismatched concluded
    rw [entries] at member
    rw [refuse]
    rcases mem_or_eq_of_mem_set member with was | same
    · exact latched.known found was mismatched concluded
    · exact (old found concluded mismatched same (same ▸ concluded)).elim
  · intro place found here answered before other less was
    rw [entries] at here was
    rcases getElem?_set here with ⟨rfl,_⟩ | ⟨_,found⟩
    · rcases getElem?_set was with ⟨rfl,_⟩ | ⟨_,was⟩
      · omega
      · have settled := turn before other less was
        have unready := (any_eq_false.mp idle) other (mem_of_getElem? was)
        have gone : (other.phase = .waiting → released state.entries other = false) ∧ other.concluded = true := by
          simpa [ready,settled] using unready
        exact gone.2
    · rcases getElem?_set was with ⟨rfl,rfl⟩ | ⟨_,was⟩
      · rw [onward.2]
        exact latched.heard place _ found answered before entry less is
      · exact latched.heard place _ found answered before other less was
  · intro found member ping live
    rw [entries] at member
    rcases mem_or_eq_of_mem_set member with was | rfl
    · exact latched.pending found was ping live
    · rw [phase] at live
      cases live
  · intro place found here mismatched concluded _
    rw [entries] at here ⊢
    rw [length_set]
    rcases getElem?_set here with ⟨_,same⟩ | ⟨apart,was⟩
    · exact (old found concluded mismatched same (same ▸ concluded)).elim
    · have bound := (List.getElem?_eq_some_iff.mp is).1
      rcases Nat.lt_or_gt_of_ne apart with before | after
      · omega
      · obtain ⟨_,answered⟩ := mismatched_settled mismatched
        have settled := chained.first place found was (by rw [answered]; nofun) id entry after is
        rw [unsettled] at settled
        cases settled

theorem conclude_opens (state : State) (entry : Entry) (open' : (conclude state entry).available = true) :
    entry.Verified ∨ (state.available = true ∧ (∀ response, entry.phase = .answered response → entry.kind = .call)) := by
  unfold conclude at open'
  split at open'
  · next kind phase =>
    split at open'
    · next same => exact Or.inl ⟨by rw [kind]; nofun,by rw [phase,same]⟩
    · cases open'
  · cases open'
  · next kind phase =>
    split at open'
    · next same => exact Or.inl ⟨by rw [kind]; nofun,by rw [phase,same]⟩
    · cases open'
  · cases open'
  · next starting _ matched other =>
    refine Or.inr ⟨open',fun response answered => ?_⟩
    cases kind : entry.kind with
    | call => rfl
    | startup => exact absurd kind starting
    | probe =>
      cases response with
      | ok version => exact absurd answered (matched version kind)
      | other => exact absurd answered (other kind)

theorem conclude_mismatched (state : State) {entry : Entry} (mismatched : entry.Mismatched) :
    (conclude state entry).available = false ∧ (conclude state entry).refuseBecause ≠ none := by
  obtain ⟨ping,version,is,apart⟩ := mismatched
  unfold conclude
  cases kind : entry.kind with
  | call => exact absurd kind ping
  | startup => simp [is,apart]
  | probe => simp [is,apart]

theorem conclude_refuse (state : State) (entry : Entry) (known : state.refuseBecause ≠ none) :
    (conclude state entry).refuseBecause ≠ none := by
  unfold conclude
  repeat' split
  all_goals first | exact known | exact nofun

theorem Latched.concluded (latched : Latched state) {id : Nat} {entry : Entry}
    (is : state.entries[id]? = some entry) (entries : next.entries = state.entries.set id { entry with concluded := true })
    (settled : entry.phase.settled = true) (pending : entry.concluded = false)
    (latch : next.available = (conclude state entry).available)
    (refuse : next.refuseBecause = (conclude state entry).refuseBecause) : Latched next := by
  have bound := (List.getElem?_eq_some_iff.mp is).1
  refine ⟨fun open' => ?_,?_,?_,?_,?_⟩
  · rw [latch] at open'
    rcases conclude_opens state entry open' with verified | ⟨open',silent⟩
    · refine ⟨id,{ entry with concluded := true },?_,Or.inl verified⟩
      rw [entries]
      exact getElem?_set_self bound
    · obtain ⟨place,found,there,opens⟩ := latched.opened open'
      by_cases same : place = id
      · subst same
        rw [is] at there
        cases there
        refine ⟨place,{ entry with concluded := true },?_,?_⟩
        · rw [entries]
          exact getElem?_set_self bound
        · rcases opens with verified | called | ⟨_,response,answered⟩
          · exact Or.inl verified
          · exact Or.inr (Or.inl called)
          · exact Or.inr (Or.inl ⟨silent response answered,response,answered⟩)
      · refine ⟨place,found,?_,opens⟩
        rw [entries,getElem?_set_ne (Ne.symm same)]
        exact there
  · intro found member mismatched concluded
    rw [entries] at member
    rw [refuse]
    rcases mem_or_eq_of_mem_set member with was | rfl
    · exact conclude_refuse state entry (latched.known found was mismatched concluded)
    · have mismatched : entry.Mismatched := mismatched
      exact (conclude_mismatched state mismatched).2
  · intro place found here answered before other less was
    rw [entries] at here was
    rcases getElem?_set was with ⟨rfl,rfl⟩ | ⟨_,there⟩
    · rfl
    · rcases getElem?_set here with ⟨rfl,rfl⟩ | ⟨_,old⟩
      · exact latched.heard place entry is answered before other less there
      · exact latched.heard place found old answered before other less there
  · intro found member ping live
    rw [entries] at member
    rcases mem_or_eq_of_mem_set member with was | rfl
    · exact latched.pending found was ping live
    · rw [show entry.phase.settled = false from live] at settled
      cases settled
  · intro place found here mismatched concluded open'
    rw [entries] at here ⊢
    rw [latch] at open'
    rw [length_set]
    rcases getElem?_set here with ⟨rfl,rfl⟩ | ⟨apart,was⟩
    · have mismatched : entry.Mismatched := mismatched
      rw [(conclude_mismatched state mismatched).1] at open'
      cases open'
    · rcases Nat.lt_or_gt_of_ne apart with before | after
      · omega
      · -- whatever was before an answered request has gone on
        have gone := latched.heard place found was (mismatched_settled mismatched) id entry after is
        rw [pending] at gone
        cases gone

theorem step_latched (chained : Chained config state) (latched : Latched state)
    (taken : step config state event = some next) : Latched next := by
  cases step_change taken with
  | same entries latch refuse =>
    obtain ⟨opened,known,heard,pending,later⟩ := latched
    constructor <;> simp only [entries,latch,refuse] <;> assumption
  | asked kind entries latch refuse _ => exact latched.asked entries latch refuse
  | moved id entry moved is entries live onward phase latch refuse =>
    exact latched.moved is entries live onward phase latch refuse
  | heard id entry moved response is entries live onward phase idle _ refuse =>
    exact latched.answered chained is entries live onward phase idle refuse
  | concluded id entry is entries settled pending latch refuse =>
    exact latched.concluded is entries settled pending latch refuse

theorem step_known (taken : step config state event = some next) (known : state.refuseBecause ≠ none)
    (initialised : state.initialised = true) :
    next.refuseBecause ≠ none ∧ next.initialised = true ∧ next.entries.length = state.entries.length := by
  have stays : next.initialised = true := by
    cases event <;> simp only [step] at taken
    all_goals repeat' split at taken
    all_goals cases taken
    all_goals first | exact initialised | rfl | skip
    rw [conclude_initialised]
    exact initialised
  cases step_change taken with
  | same entries _ refuse => exact ⟨refuse ▸ known,stays,by rw [entries]⟩
  | asked kind _ _ _ trusted =>
    rcases trusted with none' | fresh
    · exact absurd none' known
    · rw [initialised] at fresh
      cases fresh
  | moved id entry moved is entries _ _ _ _ refuse | heard id entry moved response is entries _ _ _ _ _ refuse => exact ⟨refuse ▸ known,stays,by rw [entries,length_set]⟩
  | concluded id entry is entries _ _ _ refuse =>
    exact ⟨refuse ▸ conclude_refuse state entry known,stays,by rw [entries,length_set]⟩

theorem step_shut (taken : step config state event = some next) (shut : Shut state) :
    Shut next ∧ next.entries = state.entries := by
  obtain ⟨known,closed,initialised,quiet⟩ := shut
  obtain ⟨known',initialised',_⟩ := step_known taken known initialised
  cases step_change taken with
  | same entries latch _ => exact ⟨⟨known',latch.trans closed,initialised',by rw [Quiet,entries]; exact quiet⟩,entries⟩
  | asked kind _ _ _ trusted =>
    rcases trusted with none' | fresh
    · exact absurd none' known
    · rw [initialised] at fresh
      cases fresh
  | moved id entry moved is entries live =>
    rw [(quiet entry (mem_of_getElem? is)).1] at live
    cases live
  | heard id entry moved response is entries live =>
    have settled := (quiet entry (mem_of_getElem? is)).1
    rw [live] at settled
    cases settled
  | concluded id entry is entries _ pending =>
    rw [(quiet entry (mem_of_getElem? is)).2] at pending
    cases pending

variable {now : Nat} {events later : List Event} {final after : State}

theorem run_chained_latched (ran : Machine.run (step config) (State.initial now) events = some final) :
    Chained config final ∧ Latched final :=
  @run_invariant_always _ _ (step config) (fun state => Chained config state ∧ Latched state)
    (fun _ _ _ both taken => ⟨step_chained both.1 taken,step_latched both.1 both.2 taken⟩) _ _ _
    ⟨chained_initial config now,latched_initial now⟩ ran

/-- One exchange at a time, every request settled by its deadline and off the depth then; a request is
refused from the moment the code has seen that the agent speaks another version; and the latch is open,
when nothing is under way, only if a handshake has succeeded or a request was answered. Where the ping
that shows another version is the last in the queue, the latch is shut and nothing is sent any more. -/
theorem handshake_guards (ran : Machine.run (step config) (State.initial now) events = some final)
    (ranOn : Machine.run (step config) final later = some after) :
    (∀ (first second : Nat) (one other : Entry), final.entries[first]? = some one → final.entries[second]? = some other →
      one.phase = .exchanging → other.phase = .exchanging → first = second) ∧
    (∀ entry ∈ final.entries, (entry.phase.settled = false → final.now ≤ entry.asked+config.budgetMs) ∧
      ∀ time, entry.settledAt = some time → time ≤ entry.asked+config.budgetMs) ∧
    final.depth = final.entries.countP (fun entry => !entry.phase.settled) ∧
    (∀ entry ∈ final.entries, entry.kind = .call → entry.knew = none) ∧
    (∀ entry ∈ final.entries, entry.Mismatched → entry.concluded = true → final.refuseBecause ≠ none) ∧
    (final.refuseBecause ≠ none → final.initialised = true → after.entries.length = final.entries.length) ∧
    (Quiet final → final.available = true → ∃ entry ∈ final.entries,
      entry.Verified ∨ (entry.kind = .call ∧ ∃ response, entry.phase = .answered response)) ∧
    (Quiet final → ∀ entry, final.entries.getLast? = some entry → entry.Mismatched →
      final.available = false ∧ (final.initialised = true → after.available = false ∧ after.entries = final.entries)) := by
  obtain ⟨chained,latched⟩ := run_chained_latched ran
  refine ⟨?_,?_,chained.depth,?_,latched.known,?_,?_,?_⟩
  · intro first second one other there there' busy busy'
    rcases Nat.lt_trichotomy first second with before | same | behind
    · have settled := chained.first second other there' (by rw [busy']; nofun) first one before there
      rw [busy] at settled
      cases settled
    · exact same
    · have settled := chained.first first one there (by rw [busy]; nofun) second other behind there'
      rw [busy'] at settled
      cases settled
  · intro entry member
    rw [← (chained.deadline entry member).1]
    exact chained.inTime entry member
  · exact fun entry member call => (chained.call entry member call).2
  · intro known initialised
    have kept := @run_invariant_always _ _ (step config)
      (fun state => state.refuseBecause ≠ none ∧ state.initialised = true ∧
        state.entries.length = final.entries.length)
      (fun _ _ _ held taken => by
        obtain ⟨known,initialised,length⟩ := step_known taken held.1 held.2.1
        exact ⟨known,initialised,length.trans held.2.2⟩) _ _ _
      ⟨known,initialised,rfl⟩ ranOn
    exact kept.2.2
  · intro quiet open'
    obtain ⟨id,entry,there,opens⟩ := latched.opened open'
    have member := mem_of_getElem? there
    refine ⟨entry,member,?_⟩
    rcases opens with verified | called | ⟨pending,_⟩
    · exact Or.inl verified
    · exact Or.inr called
    · rw [(quiet entry member).2] at pending
      cases pending
  · intro quiet entry last mismatched
    rw [getLast?_eq_getElem?] at last
    have member := mem_of_getElem? last
    have concluded := (quiet entry member).2
    have shut : final.available = false := by
      rw [Bool.eq_false_iff]
      intro open'
      have bound := latched.later _ entry last mismatched concluded open'
      omega
    refine ⟨shut,fun initialised => ?_⟩
    have kept := @run_invariant_always _ _ (step config)
      (fun state => Shut state ∧ state.entries = final.entries)
      (fun _ _ _ held taken => by
        obtain ⟨shut,entries⟩ := step_shut taken held.1
        exact ⟨shut,entries.trans held.2⟩) _ _ _
      ⟨⟨latched.known entry member mismatched concluded,shut,initialised,quiet⟩,rfl⟩ ranOn
    exact ⟨kept.1.2.1,kept.2⟩

def fitting : List Event :=
  [.onModuleInit,.starts 0,.passes 5,.answers 0 (.ok 44),.concludes 0,.call true,.starts 1,.answers 1 .other]

theorem handshake_guards_fitting : ∃ final, Machine.run (step ⟨true,60000⟩) (State.initial 0) fitting = some final ∧
    final.depth = final.entries.countP (fun entry => !entry.phase.settled) ∧
    (Quiet final → final.available = true → ∃ entry ∈ final.entries,
      entry.Verified ∨ (entry.kind = .call ∧ ∃ response, entry.phase = .answered response)) := by
  have ends : (Machine.run (step ⟨true,60000⟩) (State.initial 0) fitting).isSome = true := by decide +kernel
  obtain ⟨final,ran⟩ := Option.isSome_iff_exists.mp ends
  have guards := handshake_guards ran (run_nil _ final)
  exact ⟨final,ran,guards.2.2.1,guards.2.2.2.2.2.2.1⟩

/-- After a handshake that failed, a request goes to an agent whose version nobody knows, and its answer
opens the latch; and a request queued behind the handshake goes to an agent that has shown another version. -/
theorem handshake_unguarded :
    (∃ final, Machine.run (step ⟨true,60000⟩) (State.initial 0)
        [.onModuleInit,.starts 0,.fails 0,.concludes 0,.call true,.starts 1,.answers 1 .other] = some final ∧
      (∃ entry ∈ final.entries, entry.kind = .call ∧ entry.sent = true) ∧
        final.available = true ∧ ∀ entry ∈ final.entries, ¬entry.Verified) ∧
    ∃ final, Machine.run (step ⟨true,60000⟩) (State.initial 0)
        [.onModuleInit,.call true,.starts 0,.answers 0 (.ok 43),.concludes 0] = some final ∧
      final.refuseBecause = some 43 ∧ ∃ after, step ⟨true,60000⟩ final (.starts 1) = some after ∧
        ∃ entry ∈ after.entries, entry.kind = .call ∧ entry.sent = true := by
  constructor
  · have sends : (Machine.run (step ⟨true,60000⟩) (State.initial 0)
        [.onModuleInit,.starts 0,.fails 0,.concludes 0,.call true,.starts 1,.answers 1 .other]).any (fun final =>
          (final.entries.any (fun entry => decide (entry.kind = .call) && entry.sent)) && final.available &&
            final.entries.all (fun entry => decide (¬(entry.kind ≠ .call ∧ entry.phase = .answered (.ok 44))))) = true := by
      decide +kernel
    obtain ⟨final,ran,sends⟩ := (Option.any_eq_true _ _).mp sends
    rw [Bool.and_eq_true,Bool.and_eq_true,any_eq_true,all_eq_true] at sends
    obtain ⟨⟨⟨entry,member,sent⟩,open'⟩,unverified⟩ := sends
    rw [Bool.and_eq_true] at sent
    exact ⟨final,ran,⟨entry,member,of_decide_eq_true sent.1,sent.2⟩,open',
      fun other member verified => of_decide_eq_true (unverified other member) verified⟩
  · have sends : (Machine.run (step ⟨true,60000⟩) (State.initial 0)
        [.onModuleInit,.call true,.starts 0,.answers 0 (.ok 43),.concludes 0]).any (fun final =>
          decide (final.refuseBecause = some 43) && (step ⟨true,60000⟩ final (.starts 1)).any (fun after =>
            after.entries.any (fun entry => decide (entry.kind = .call) && entry.sent))) = true := by decide +kernel
    obtain ⟨final,ran,sends⟩ := (Option.any_eq_true _ _).mp sends
    obtain ⟨known,sends⟩ := (Bool.and_eq_true _ _).mp sends
    obtain ⟨after,taken,sends⟩ := (Option.any_eq_true _ _).mp sends
    obtain ⟨entry,member,sent⟩ := any_eq_true.mp sends
    rw [Bool.and_eq_true] at sent
    exact ⟨final,ran,of_decide_eq_true known,after,taken,entry,member,of_decide_eq_true sent.1,sent.2⟩

end Depsis.Agent.Handshake

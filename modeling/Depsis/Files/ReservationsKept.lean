import Depsis.Files.Reservations

/-! Chunks that come one at a time, stream what they open and answer once their connection
is over leave no reservation behind: whoever holds the name is the chunk being served.
-/
namespace Depsis.Files.Reservations

open Depsis.Agent Depsis.Foundation Depsis.Files.Uploads AList Option

structure Backed (transfers : Transfers) : Prop where
  held : ∀ key token, transfers.registry.byName.lookup key = some token → ∃ transfer,
    transfers.registry.pending.lookup token = some transfer ∧ transfer.direction = .receive ∧ transfer.key = key
  numbered : ∀ guard held, transfers.guards.lookup guard = some held → guard < transfers.nextGuard

section Registry

variable {registry : TransferRegistry} {key : Agent.Key} {token : String} {now : Nat}

private theorem held_swept (held : ∀ key token, registry.byName.lookup key = some token → ∃ transfer,
      registry.pending.lookup token = some transfer ∧ transfer.direction = .receive ∧ transfer.key = key)
    (found : (registry.expireOld now).byName.lookup key = some token) : ∃ transfer,
      (registry.expireOld now).pending.lookup token = some transfer ∧ transfer.direction = .receive ∧
        transfer.key = key := by
  obtain ⟨before,kept⟩ := TransferRegistry.expireOld_byName.mp found
  obtain ⟨transfer,present,way,same⟩ := held key token before
  refine ⟨transfer,?_,way,same⟩
  rw [TransferRegistry.expireOld_pending,present,filter_some,kept token transfer present same]
  rfl

private theorem held_redeemed {name : Agent.Key} {holder : String} {transfer : PendingTransfer}
    (held : ∀ key token, registry.byName.lookup key = some token → ∃ transfer,
      registry.pending.lookup token = some transfer ∧ transfer.direction = .receive ∧ transfer.key = key)
    (present : registry.pending.lookup token = some transfer) (fresh : transfer.alive now = true)
    (found : ((registry.expireOld now).redeem now token transfer).byName.lookup name = some holder) :
    ∃ owner, ((registry.expireOld now).redeem now token transfer).pending.lookup holder = some owner ∧
      owner.direction = .receive ∧ owner.key = name := by
  have kept : (registry.expireOld now).pending.lookup token = some transfer := by
    rw [TransferRegistry.expireOld_pending,present,filter_some,fresh]
    rfl
  simp only [TransferRegistry.redeem] at found ⊢
  split at found
  next receives =>
    obtain ⟨apart,found⟩ := lookup_erase_some found
    obtain ⟨owner,here,way,same⟩ := held_swept held found
    refine ⟨owner,?_,way,same⟩
    refine (lookup_erase_ne ?_).trans here
    rintro rfl
    rw [kept] at here
    cases here
    exact apart same.symm
  next sends =>
    obtain ⟨owner,here,way,same⟩ := held_swept held found
    refine ⟨owner,?_,way,same⟩
    refine (lookup_erase_ne ?_).trans here
    rintro rfl
    rw [kept] at here
    cases here
    exact sends way

theorem Backed.step {transfers next : Transfers} {event : Agent.Event} (ledger : Ledger transfers)
    (taken : transfers.step event = some next) (backed : Backed transfers) : Backed next := by
  rcases step_cases taken with ⟨token,transfer,rfl,fresh,rfl⟩ | ⟨token,peer,error,registry,rfl,outcome,rfl⟩ |
    ⟨token,peer,transfer,key,registry,rfl,outcome,rfl⟩ | ⟨share,stagingName,rfl,rfl⟩ |
    ⟨id,guard,rfl,held,rfl⟩ | ⟨elapsed,rfl,rfl⟩
  · refine ⟨fun key holder found => ?_,backed.numbered⟩
    have unused : transfers.registry.pending.lookup token = none := by
      cases present : transfers.registry.pending.lookup token with
      | none => rfl
      | some old => exact absurd (List.mem_map_of_mem (ledger.opened token old present)) fresh
    have other (old : (transfers.registry.expireOld transfers.now).byName.lookup key = some holder) :
        holder ≠ token ∧ ∃ transfer, (transfers.registry.expireOld transfers.now).pending.lookup holder = some transfer ∧
          transfer.direction = .receive ∧ transfer.key = key := by
      refine ⟨?_,held_swept backed.held old⟩
      rintro rfl
      obtain ⟨_,present,_⟩ := backed.held key holder (TransferRegistry.expireOld_byName.mp old).1
      rw [unused] at present
      cases present
    rcases TransferRegistry.insert_cases transfers.now token transfer transfers.registry with ⟨outcome,_,_⟩ | outcome |
      ⟨_,_,⟨way,_,outcome⟩ | ⟨_,outcome⟩⟩ <;> simp only [outcome] at found ⊢
    · exact (other found).2
    · exact (other found).2
    · rcases lookup_insert_cases found with ⟨same,rfl⟩ | ⟨-,found⟩
      · exact ⟨transfer,lookup_insert _,way,same.symm⟩
      · obtain ⟨apart,owner,present,rest⟩ := other found
        exact ⟨owner,by rw [lookup_insert_ne apart]; exact present,rest⟩
    · obtain ⟨apart,owner,present,rest⟩ := other found
      exact ⟨owner,by rw [lookup_insert_ne apart]; exact present,rest⟩
  · have same := claim_refused outcome
    refine ⟨fun key holder found => ?_,backed.numbered⟩
    rw [same.byName] at found
    rw [same.pending]
    exact held_swept backed.held found
  · obtain ⟨present,fresh,_,_,same⟩ := claim_granted outcome
    refine ⟨fun name holder found => ?_,fun guard held found => ?_⟩
    · change registry.byName.lookup name = some holder at found
      change ∃ transfer, registry.pending.lookup holder = some transfer ∧ _
      rw [same.byName] at found
      rw [same.pending]
      exact held_redeemed backed.held present fresh found
    · simp only [Transfers.handOver] at found ⊢
      split at found
      next =>
        rw [lookup_insert_eq] at found
        split at found
        next new => omega
        next =>
          have before := backed.numbered guard held found
          omega
      next =>
        have before := backed.numbered guard held found
        omega
  · refine ⟨fun key holder found => ?_,backed.numbered⟩
    rcases TransferRegistry.abandon_cases share stagingName transfers.registry with outcome | ⟨token,reserved,outcome⟩ <;>
      simp only [outcome] at found ⊢
    · exact backed.held key holder found
    · obtain ⟨apart,found⟩ := lookup_erase_some found
      obtain ⟨transfer,present,way,same⟩ := backed.held key holder found
      refine ⟨transfer,?_,way,same⟩
      refine (lookup_erase_ne ?_).trans present
      rintro rfl
      obtain ⟨twin,also,_,here⟩ := backed.held _ holder reserved
      rw [present] at also
      cases also
      exact apart (same.symm.trans here)
  · refine ⟨backed.held,fun other kept found => ?_⟩
    obtain ⟨-,found⟩ := lookup_erase_some found
    exact backed.numbered other kept found
  · exact ⟨backed.held,backed.numbered⟩

structure Quieter (key : Agent.Key) (before after : Transfers) : Prop where
  names : ∀ token, after.registry.byName.lookup key = some token → before.registry.byName.lookup key = some token
  marks : ∀ mark, after.registry.inFlight.lookup key = some mark → before.registry.inFlight.lookup key = some mark
  guards : ∀ guard held, before.guards.lookup guard = some held → held.key = key →
    after.guards.lookup guard = some held

private theorem mark_before {mark : InFlight} (found : (registry.expireOld now).inFlight.lookup key = some mark) :
    registry.inFlight.lookup key = some mark := by
  rw [TransferRegistry.expireOld_inFlight,filter_eq_some_iff] at found
  exact found.1

theorem foreign_quieter {setting : Setting} {state : State} {next : Transfers} {event : Agent.Event}
    (foreign : isForeign setting state event = true) (taken : state.agent.step event = some next)
    (backed : Backed state.agent) : Quieter setting.key state.agent next := by
  rcases step_cases taken with ⟨token,transfer,rfl,fresh,rfl⟩ | ⟨token,peer,error,registry,rfl,outcome,rfl⟩ |
    ⟨token,peer,transfer,key,registry,rfl,outcome,rfl⟩ | ⟨share,stagingName,rfl,rfl⟩ |
    ⟨id,guard,rfl,held,rfl⟩ | ⟨elapsed,rfl,rfl⟩
  · simp only [isForeign,Bool.or_eq_true,decide_eq_true_eq] at foreign
    refine ⟨fun holder found => ?_,fun mark found => ?_,fun _ _ found _ => found⟩
    · rcases TransferRegistry.insert_cases state.agent.now token transfer state.agent.registry with ⟨outcome,_,_⟩ | outcome |
        ⟨_,_,⟨way,_,outcome⟩ | ⟨_,outcome⟩⟩ <;> simp only [outcome] at found
      · exact (TransferRegistry.expireOld_byName.mp found).1
      · exact (TransferRegistry.expireOld_byName.mp found).1
      · rw [way] at foreign
        rw [lookup_insert_ne (Ne.symm (foreign.resolve_left nofun))] at found
        exact (TransferRegistry.expireOld_byName.mp found).1
      · exact (TransferRegistry.expireOld_byName.mp found).1
    · change (state.agent.registry.insert state.agent.now token transfer).2.inFlight.lookup _ = _ at found
      rw [TransferRegistry.insert_inFlight] at found
      exact mark_before found
  · have same := claim_refused outcome
    refine ⟨fun holder found => ?_,fun mark found => ?_,fun _ _ found _ => found⟩
    · rw [same.byName] at found
      exact (TransferRegistry.expireOld_byName.mp found).1
    · rw [same.inFlight] at found
      exact mark_before found
  · obtain ⟨present,_,owner,_,same⟩ := claim_granted outcome
    simp only [isForeign,present,all_some,Bool.or_eq_true,decide_eq_true_eq] at foreign
    have other : transfer.direction = .receive → setting.key ≠ transfer.key := by
      intro receives here
      rcases foreign with (sends | apart) | stranger
      · rw [receives] at sends; cases sends
      · exact apart here.symm
      · exact stranger owner
    refine ⟨fun holder found => ?_,fun mark found => ?_,fun id held found here => ?_⟩
    · change registry.byName.lookup _ = _ at found
      rw [same.byName,TransferRegistry.redeem] at found
      dsimp only at found
      split at found
      next receives =>
        rw [lookup_erase_ne (other receives)] at found
        exact (TransferRegistry.expireOld_byName.mp found).1
      next => exact (TransferRegistry.expireOld_byName.mp found).1
    · change registry.inFlight.lookup _ = _ at found
      rw [same.inFlight,TransferRegistry.redeem] at found
      dsimp only at found
      split at found
      next receives =>
        rw [lookup_insert_ne (other receives)] at found
        exact mark_before found
      next => exact mark_before found
    · have before := backed.numbered id held found
      simp only [Transfers.handOver]
      split
      next => rw [lookup_insert_ne (by omega)]; exact found
      next => exact found
  · refine ⟨fun holder found => ?_,fun mark found => ?_,fun _ _ found _ => found⟩
    · rcases TransferRegistry.abandon_cases share stagingName state.agent.registry with outcome | ⟨token,_,outcome⟩ <;>
        simp only [outcome] at found
      · exact found
      · obtain ⟨-,found⟩ := lookup_erase_some found
        exact found
    · rcases TransferRegistry.abandon_cases share stagingName state.agent.registry with outcome | ⟨token,_,outcome⟩ <;>
        simp only [outcome] at found <;> exact found
  · simp only [isForeign,held,all_some,decide_eq_true_eq] at foreign
    refine ⟨fun _ found => found,fun mark found => ?_,fun other kept found here => ?_⟩
    · change (state.agent.registry.inFlight.erase guard.key).lookup _ = _ at found
      rw [lookup_erase_ne (Ne.symm foreign)] at found
      exact found
    · refine (lookup_erase_ne ?_).trans found
      rintro rfl
      rw [held] at found
      cases found
      exact foreign here
  · exact ⟨fun _ found => found,fun _ found => found,fun _ _ found _ => found⟩

end Registry

def Phase.isEarly : Phase → Bool
  | .loading | .sharing _ | .opening _ | .correcting _ _ | .connecting _ _ _ => true
  | .sending _ _ | .discarding | .restarting | .counting _ _ | .finishing _ => false

def Phase.token : Phase → Option String
  | .connecting _ _ token => some token
  | _ => none

def Connection.token : Connection → Option String
  | .waiting preamble => some preamble.token
  | _ => none

def Connection.guard : Connection → Option Nat
  | .streaming _ guard | .answering guard _ => some guard
  | .waiting _ | .returned _ => none

def Connection.isReturned : Connection → Bool
  | .returned _ => true
  | _ => false

def Holds (state : State) (id : Nat) (phase : Phase) (token : String) : Prop :=
  phase.token = some token ∨ ∃ connection, state.connections.lookup id = some connection ∧ connection.token = some token

def Guards (setting : Setting) (state : State) (id : Nat) : Prop :=
  ∃ connection guard held, state.connections.lookup id = some connection ∧ connection.guard = some guard ∧
    state.agent.guards.lookup guard = some held ∧ held.key = setting.key

structure Kept (setting : Setting) (state : State) : Prop where
  ledger : Ledger state.agent
  backed : Backed state.agent
  ours : ∀ token transfer, state.agent.registry.byName.lookup setting.key = some token →
    state.agent.registry.pending.lookup token = some transfer → transfer.openedBy.uid = setting.api.uid
  single : ∀ id other one two, state.patches.lookup id = some one → state.patches.lookup other = some two → id = other
  early : ∀ id serving, state.patches.lookup id = some serving → serving.phase.isEarly = true →
    state.connections.lookup id = none
  live : ∀ id connection, state.connections.lookup id = some connection → connection.isReturned = false →
    ∃ serving, state.patches.lookup id = some serving
  reserved : ∀ token, state.agent.registry.byName.lookup setting.key = some token → ∃ id serving,
    state.patches.lookup id = some serving ∧ Holds state id serving.phase token
  marked : ∀ mark, state.agent.registry.inFlight.lookup setting.key = some mark → ∃ id, Guards setting state id
  unblocked : Unblocked state

namespace Kept

variable {setting : Setting} {state : State} {id : Nat} {serving : Serving}

theorem begins (session : Option SessionRow) (staged : Option (List UInt8)) (now : Nat) :
    Kept setting (start session staged now) where
  ledger := (Agent.Kept.start now).ledger
  backed := ⟨fun _ _ found => (nomatch found),fun _ _ found => (nomatch found)⟩
  ours _ _ name := by cases name
  single _ _ _ _ found := by cases found
  early _ _ found := by cases found
  live _ _ found := by cases found
  reserved _ name := by cases name
  marked _ name := by cases name
  unblocked := ⟨fun _ member => (nomatch member),fun member => (nomatch member)⟩

theorem named_by (kept : Kept setting state) (found : state.patches.lookup id = some serving) {token : String}
    (name : state.agent.registry.byName.lookup setting.key = some token) : Holds state id serving.phase token := by
  obtain ⟨other,one,present,holds⟩ := kept.reserved token name
  cases kept.single id other serving one found present
  rw [found] at present
  cases present
  exact holds

theorem marked_by (kept : Kept setting state) (found : state.patches.lookup id = some serving) {mark : InFlight}
    (name : state.agent.registry.inFlight.lookup setting.key = some mark) : Guards setting state id := by
  obtain ⟨other,connection,guard,held,here,own,guarded,same⟩ := kept.marked mark name
  have running : connection.isReturned = false := by cases connection <;> first | rfl | cases own
  obtain ⟨one,present⟩ := kept.live other connection here running
  cases kept.single id other serving one found present
  exact ⟨connection,guard,held,here,own,guarded,same⟩

theorem free (kept : Kept setting state) (found : state.patches.lookup id = some serving)
    (bare : serving.phase.token = none)
    (ended : ∀ connection, state.connections.lookup id = some connection → connection.isReturned = true) :
    state.agent.registry.isBusy setting.share setting.stagingName = false := by
  rw [Bool.eq_false_iff]
  intro busy
  rcases TransferRegistry.isBusy_iff.mp busy with ⟨token,name⟩ | ⟨mark,name⟩
  · rcases kept.named_by found name with own | ⟨connection,here,own⟩
    · rw [bare] at own
      cases own
    · have ended := ended connection here
      cases connection <;> cases ended
      cases own
  · obtain ⟨connection,guard,held,here,own,_⟩ := kept.marked_by found name
    have ended := ended connection here
    cases connection <;> cases ended
    cases own

theorem unconnected (kept : Kept setting state) (found : state.patches.lookup id = some serving)
    (first : serving.phase.isEarly = true) :
    ∀ connection, state.connections.lookup id = some connection → connection.isReturned = true := by
  intro connection here
  rw [kept.early id serving found first] at here
  cases here

theorem returned_ends (over' : hasReturned state id = true) :
    ∀ connection, state.connections.lookup id = some connection → connection.isReturned = true := by
  intro connection here
  rw [hasReturned,here] at over'
  cases connection <;> first | rfl | cases over'

theorem dress (kept : Kept setting state) (session : Option SessionRow) (staged : Option (List UInt8)) :
    Kept setting { state with
      session := session
      staged := staged } :=
  ⟨kept.ledger,kept.backed,kept.ours,kept.single,kept.early,kept.live,kept.reserved,kept.marked,
    ⟨kept.unblocked.free,kept.unblocked.accepted⟩⟩

theorem answer (kept : Kept setting state)
    (ended : ∀ connection, state.connections.lookup id = some connection → connection.isReturned = true)
    (free : state.agent.registry.isBusy setting.share setting.stagingName = false) (reply : Except Problem Unit)
    (uploadOffset : Option Nat) : Kept setting (state.answer setting id reply uploadOffset) := by
  have remains {other : Nat} {serving : Serving} (found : (state.patches.erase id).lookup other = some serving) :
      other ≠ id ∧ state.patches.lookup other = some serving := by
    obtain ⟨apart,found⟩ := lookup_erase_some found
    exact ⟨apart,found⟩
  have unnamed (token : String) : ¬state.agent.registry.byName.lookup setting.key = some token := by
    intro name
    rw [TransferRegistry.isBusy_iff.mpr (.inl ⟨token,name⟩)] at free
    cases free
  have unmarked (mark : InFlight) : ¬state.agent.registry.inFlight.lookup setting.key = some mark := by
    intro name
    rw [TransferRegistry.isBusy_iff.mpr (.inr ⟨mark,name⟩)] at free
    cases free
  constructor
  · exact kept.ledger
  · exact kept.backed
  · exact kept.ours
  · exact fun first second one two left right =>
      kept.single first second one two (remains left).2 (remains right).2
  · exact fun other serving found => kept.early other serving (remains found).2
  · intro other connection here running
    obtain ⟨serving,present⟩ := kept.live other connection here running
    refine ⟨serving,?_⟩
    change (state.patches.erase id).lookup other = some serving
    refine (lookup_erase_ne ?_).trans present
    rintro rfl
    rw [ended connection here] at running
    cases running
  · exact fun token name => absurd name (unnamed token)
  · exact fun mark name => absurd name (unmarked mark)
  · refine ⟨fun sent member => ?_,kept.unblocked.accepted⟩
    rcases List.mem_cons.mp member with rfl | before
    · exact free
    · exact kept.unblocked.free sent before

theorem awaits (kept : Kept setting state) (found : state.patches.lookup id = some serving) (request : Patch)
    {phase : Phase} (early : phase.isEarly = true → state.connections.lookup id = none)
    (holds : ∀ token, serving.phase.token = some token → phase.token = some token) :
    Kept setting (state.awaits id request phase) := by
  constructor
  · exact kept.ledger
  · exact kept.backed
  · exact kept.ours
  · intro first second one two left right
    have known {other : Nat} {one : Serving} (here : (state.patches.insert id ⟨request,phase⟩).lookup other = some one) :
        ∃ before, state.patches.lookup other = some before := by
      rw [lookup_insert_eq] at here
      split at here
      next same => exact ⟨serving,same ▸ found⟩
      next => exact ⟨one,here⟩
    obtain ⟨before,left⟩ := known left
    obtain ⟨after,right⟩ := known right
    exact kept.single first second before after left right
  · intro other one here first
    change (state.patches.insert id ⟨request,phase⟩).lookup other = some one at here
    rcases lookup_insert_cases here with ⟨same,rfl⟩ | ⟨-,here⟩
    · exact same ▸ early first
    · exact kept.early other one here first
  · intro other connection here running
    obtain ⟨one,present⟩ := kept.live other connection here running
    change ∃ serving, (state.patches.insert id ⟨request,phase⟩).lookup other = some serving
    rw [lookup_insert_eq]
    split
    next => exact ⟨_,rfl⟩
    next => exact ⟨one,present⟩
  · intro token name
    obtain ⟨other,one,present,has⟩ := kept.reserved token name
    cases kept.single id other serving one found present
    rw [found] at present
    cases present
    refine ⟨id,⟨request,phase⟩,lookup_insert _,?_⟩
    rcases has with own | live
    · exact .inl (holds token own)
    · exact .inr live
  · exact kept.marked
  · exact ⟨kept.unblocked.free,kept.unblocked.accepted⟩

theorem onto {agent : Transfers} {event : Agent.Event} (kept : Kept setting state)
    (taken : state.agent.step event = some agent) (quieter : Quieter setting.key state.agent agent) :
    Kept setting { state with agent := agent } := by
  have backed := kept.backed.step kept.ledger taken
  constructor
  · exact kept.ledger.step taken
  · exact backed
  · intro token transfer name present
    obtain ⟨before,old,_⟩ := kept.backed.held _ token (quieter.names token name)
    rcases pending_step taken present with same | rfl
    · exact kept.ours token transfer (quieter.names token name) same
    · have issued := List.mem_map_of_mem (f := Prod.fst) (kept.ledger.opened token before old)
      simp only [Transfers.step,if_pos issued] at taken
      cases taken
  · exact kept.single
  · exact kept.early
  · exact kept.live
  · exact fun token name => kept.reserved token (quieter.names token name)
  · intro mark name
    obtain ⟨other,connection,guard,held,here,own,guarded,same⟩ := kept.marked mark (quieter.marks mark name)
    exact ⟨other,connection,guard,held,here,own,quieter.guards guard held guarded same,same⟩
  · exact ⟨kept.unblocked.free,kept.unblocked.accepted⟩

theorem connected (kept : Kept setting state) {agent : Transfers} (found : state.patches.lookup id = some serving)
    (late : serving.phase.isEarly = false) {connection : Connection} {staged : Option (List UInt8)}
    (ledger : Ledger agent) (backed : Backed agent)
    (names : ∀ token, agent.registry.byName.lookup setting.key = some token →
      state.agent.registry.byName.lookup setting.key = some token ∧ connection.token = some token)
    (owners : ∀ token transfer, agent.registry.byName.lookup setting.key = some token →
      agent.registry.pending.lookup token = some transfer → transfer.openedBy.uid = setting.api.uid)
    (marks : ∀ mark, agent.registry.inFlight.lookup setting.key = some mark → ∃ guard held,
      connection.guard = some guard ∧ agent.guards.lookup guard = some held ∧ held.key = setting.key) :
    Kept setting { state with
      agent := agent
      staged := staged
      connections := state.connections.insert id connection } := by
  constructor
  · exact ledger
  · exact backed
  · exact owners
  · exact kept.single
  · intro other one here first
    have apart : other ≠ id := by
      rintro rfl
      rw [found] at here
      cases here
      rw [late] at first
      cases first
    change (state.connections.insert id connection).lookup other = none
    rw [lookup_insert_ne apart]
    exact kept.early other one here first
  · intro other live here running
    rcases lookup_insert_cases here with ⟨rfl,rfl⟩ | ⟨_,before⟩
    · exact ⟨serving,found⟩
    · exact kept.live other live before running
  · intro token name
    exact ⟨id,serving,found,.inr ⟨connection,lookup_insert _,(names token name).2⟩⟩
  · intro mark name
    obtain ⟨guard,held,own,guarded,same⟩ := marks mark name
    exact ⟨id,connection,guard,held,lookup_insert _,own,guarded,same⟩
  · exact ⟨kept.unblocked.free,kept.unblocked.accepted⟩

theorem running (kept : Kept setting state) {connection : Connection}
    (here : state.connections.lookup id = some connection) (live : connection.isReturned = false) :
    ∃ serving, state.patches.lookup id = some serving ∧ serving.phase.isEarly = false := by
  obtain ⟨serving,found⟩ := kept.live id connection here live
  refine ⟨serving,found,?_⟩
  rw [Bool.eq_false_iff]
  intro first
  rw [kept.early id serving found first] at here
  cases here

theorem late_token {phase : Phase} (late : phase.isEarly = false) : phase.token = none := by
  cases phase <;> first | rfl | cases late

theorem connect (kept : Kept setting state) {request : Patch} {declared : Declared} {expected : Option (List UInt8)}
    {token : String} (found : state.patches.lookup id = some ⟨request,.connecting declared expected token⟩)
    (offset length : Nat) (body : List UInt8) :
    Kept setting { state.awaits id request (.sending declared expected) with
      connections := state.connections.insert id (.waiting ⟨token,offset,length,body⟩) } := by
  have fresh := kept.early id _ found rfl
  have known {other : Nat} {one : Serving}
      (here : (state.patches.insert id ⟨request,.sending declared expected⟩).lookup other = some one) : other = id := by
    rcases lookup_insert_cases here with ⟨same,_⟩ | ⟨_,before⟩
    · exact same
    · exact kept.single other id one _ before found
  constructor
  · exact kept.ledger
  · exact kept.backed
  · exact kept.ours
  · exact fun first second one two left right => (known left).trans (known right).symm
  · intro other one here first
    cases known here
    rw [show one = _ from Option.some.inj (here.symm.trans (lookup_insert _))] at first
    cases first
  · intro other connection here running
    rcases lookup_insert_cases here with ⟨rfl,_⟩ | ⟨_,before⟩
    · exact ⟨_,lookup_insert _⟩
    · obtain ⟨one,present⟩ := kept.live other connection before running
      cases kept.single id other _ one found present
      exact ⟨_,lookup_insert _⟩
  · intro holder name
    refine ⟨id,_,lookup_insert _,.inr ⟨_,lookup_insert _,?_⟩⟩
    rcases kept.named_by found name with own | ⟨connection,here,_⟩
    · exact own
    · rw [fresh] at here
      cases here
  · intro mark name
    obtain ⟨connection,_,_,here,_⟩ := kept.marked_by found name
    rw [fresh] at here
    cases here
  · exact ⟨kept.unblocked.free,kept.unblocked.accepted⟩

theorem claim_unnamed (kept : Kept setting state) (found : state.patches.lookup id = some serving)
    (late : serving.phase.isEarly = false) {preamble : Preamble}
    (here : state.connections.lookup id = some (.waiting preamble)) (holder : String) :
    ¬(state.agent.registry.claim state.agent.now preamble.token setting.api).2.byName.lookup setting.key = some holder := by
  have presented {holder : String} (name : state.agent.registry.byName.lookup setting.key = some holder) :
      preamble.token = holder := by
    rcases kept.named_by found name with own | ⟨connection,also,own⟩
    · rw [late_token late] at own
      cases own
    · rw [here] at also
      cases also
      exact Option.some.inj own
  intro name
  rcases TransferRegistry.claim_swept state.agent.now preamble.token setting.api state.agent.registry with
    ⟨error,refused,same⟩ | ⟨transfer,present,_,_,_,same⟩
  · rw [same.byName] at name
    obtain ⟨before,fresh⟩ := TransferRegistry.expireOld_byName.mp name
    cases presented before
    obtain ⟨transfer,present,_,key⟩ := kept.backed.held _ _ before
    have alive := fresh _ transfer present key
    have owner := kept.ours _ transfer before present
    rcases TransferRegistry.claim_cases state.agent.now preamble.token setting.api state.agent.registry with
      ⟨absent,_⟩ | ⟨other,also,⟨dead,_⟩ | ⟨_,stranger,_⟩ | ⟨_,_,_,taken⟩ | ⟨_,_,_,taken⟩⟩
    · rw [absent] at present
      cases present
    · rw [present] at also
      cases also
      rw [alive] at dead
      cases dead
    · rw [present] at also
      cases also
      exact stranger owner
    all_goals
      rw [taken] at refused
      cases refused
  · rw [same.byName,TransferRegistry.redeem] at name
    dsimp only at name
    split at name
    next =>
      obtain ⟨apart,name⟩ := lookup_erase_some name
      have before := (TransferRegistry.expireOld_byName.mp name).1
      cases presented before
      obtain ⟨other,also,_,key⟩ := kept.backed.held _ _ before
      rw [present] at also
      cases also
      exact apart key.symm
    next sends =>
      have before := (TransferRegistry.expireOld_byName.mp name).1
      cases presented before
      obtain ⟨other,also,way,_⟩ := kept.backed.held _ _ before
      rw [present] at also
      cases also
      exact sends way

theorem claim (kept : Kept setting state) {preamble : Preamble} {next : State}
    (here : state.connections.lookup id = some (.waiting preamble))
    (taken : Reservations.claim setting state id preamble = some next) : Kept setting next := by
  obtain ⟨serving,found,late⟩ := kept.running here rfl
  obtain ⟨agent,stepped,rfl⟩ := map_eq_some_iff.mp taken
  have ledger := kept.ledger.step stepped
  have backed := kept.backed.step kept.ledger stepped
  have unmarked (mark : InFlight) : ¬state.agent.registry.inFlight.lookup setting.key = some mark := by
    intro name
    obtain ⟨connection,_,_,also,own,_⟩ := kept.marked_by found name
    rw [here] at also
    cases also
    cases own
  have unnamed := kept.claim_unnamed found late here
  rcases step_cases stepped with ⟨_,_,event,_⟩ | ⟨token,peer,error,registry,event,outcome,rfl⟩ |
    ⟨token,peer,transfer,key,registry,event,outcome,rfl⟩ | ⟨_,_,event,_⟩ | ⟨_,_,event,_⟩ | ⟨_,event,_⟩ <;> cases event
  · rw [outcome] at unnamed ⊢
    refine kept.connected found late ledger backed (fun holder name => absurd name (unnamed holder))
      (fun holder _ name => absurd name (unnamed holder)) (fun mark name => ?_)
    rw [(claim_refused outcome).inFlight] at name
    exact absurd (mark_before name) (unmarked mark)
  · rw [outcome] at unnamed ⊢
    refine kept.connected found late ledger backed (fun holder name => absurd name (unnamed holder))
      (fun holder _ name => absurd name (unnamed holder)) (fun mark name => ?_)
    obtain ⟨_,_,_,_,same⟩ := claim_granted outcome
    change registry.inFlight.lookup _ = _ at name
    rw [same.inFlight,TransferRegistry.redeem] at name
    dsimp only at name
    split at name
    next receives =>
      rcases lookup_insert_cases name with ⟨own,_⟩ | ⟨_,before⟩
      · refine ⟨state.agent.nextGuard,⟨transfer.key,transfer.file,state.agent.now⟩,rfl,?_,own.symm⟩
        simp only [Transfers.handOver,if_pos receives]
        exact lookup_insert _
      · exact absurd (mark_before before) (unmarked mark)
    next => exact absurd (mark_before name) (unmarked mark)

theorem replied (kept : Kept setting state) {preamble : Preamble} {guard : Nat}
    (here : state.connections.lookup id = some (.streaming preamble guard)) (answer : Except String Nat)
    (staged : Option (List UInt8)) : Kept setting { state with
      staged := staged
      connections := state.connections.insert id (.answering guard answer) } := by
  obtain ⟨serving,found,late⟩ := kept.running here rfl
  have unnamed (token : String) : ¬state.agent.registry.byName.lookup setting.key = some token := by
    intro name
    rcases kept.named_by found name with own | ⟨connection,also,own⟩
    · rw [late_token late] at own
      cases own
    · rw [here] at also
      cases also
      cases own
  refine kept.connected found late kept.ledger kept.backed (fun token name => absurd name (unnamed token))
    (fun token _ name => absurd name (unnamed token)) (fun mark name => ?_)
  obtain ⟨connection,held,entry,also,own,guarded,same⟩ := kept.marked_by found name
  rw [here] at also
  cases also
  exact ⟨held,entry,own,guarded,same⟩

theorem drop (kept : Kept setting state) {guard : Nat} {answer : Except String Nat} {agent : Transfers}
    (here : state.connections.lookup id = some (.answering guard answer))
    (stepped : state.agent.step (.drop guard) = some agent) : Kept setting { state with
      agent := agent
      connections := state.connections.insert id (.returned answer) } := by
  obtain ⟨serving,found,late⟩ := kept.running here rfl
  have ledger := kept.ledger.step stepped
  have backed := kept.backed.step kept.ledger stepped
  rcases step_cases stepped with ⟨_,_,event,_⟩ | ⟨_,_,_,_,event,_⟩ | ⟨_,_,_,_,_,event,_⟩ | ⟨_,_,event,_⟩ |
    ⟨_,entry,event,guarded,rfl⟩ | ⟨_,event,_⟩ <;> cases event
  have unnamed (token : String) : ¬state.agent.registry.byName.lookup setting.key = some token := by
    intro name
    rcases kept.named_by found name with own | ⟨connection,also,own⟩
    · rw [late_token late] at own
      cases own
    · rw [here] at also
      cases also
      cases own
  refine kept.connected found late ledger backed (fun token name => absurd name (unnamed token))
    (fun token _ name => absurd name (unnamed token)) (fun mark name => ?_)
  change (state.agent.registry.inFlight.erase entry.key).lookup setting.key = some mark at name
  obtain ⟨apart,name⟩ := lookup_erase_some name
  obtain ⟨connection,own,held,also,same,kept',key⟩ := kept.marked_by found name
  rw [here] at also
  cases also
  cases same
  rw [guarded] at kept'
  cases kept'
  exact absurd key.symm apart

theorem hear (kept : Kept setting state) {request : Patch} {declared : Declared} {expected : Option (List UInt8)}
    (found : state.patches.lookup id = some ⟨request,.sending declared expected⟩) {connection : Connection}
    (here : state.connections.lookup id = some connection) {answer : Except String Nat}
    (ended : answer.isOk = false → connection.isReturned = true) :
    Kept setting (Reservations.hear setting state id request declared expected answer) := by
  cases answer with
  | error reason =>
    have over' : ∀ other, state.connections.lookup id = some other → other.isReturned = true := by
      intro other also
      rw [here] at also
      cases also
      exact ended rfl
    exact kept.answer over' (kept.free found rfl over') _ _
  | ok stored =>
    simp only [Reservations.hear]
    split
    all_goals exact kept.awaits found request nofun nofun

theorem load (kept : Kept setting state) {request : Patch}
    (found : state.patches.lookup id = some ⟨request,.loading⟩) :
    Kept setting (Reservations.load setting state id request) := by
  have fresh := kept.early id _ found rfl
  have answered (reply : Except Problem Unit) (uploadOffset : Option Nat) :
      Kept setting (state.answer setting id reply uploadOffset) := by
    have ended := kept.unconnected found rfl
    exact kept.answer ended (kept.free found rfl ended) reply uploadOffset
  unfold Reservations.load
  split
  · exact answered _ _
  · split
    · exact answered _ _
    · split
      · exact kept.awaits found request (fun _ => fresh) nofun
      all_goals exact answered _ _

private theorem swept_quieter {key : Agent.Key} {transfers : Transfers} {issued : List (String × Nat)} :
    Quieter key transfers { transfers with
      registry := transfers.registry.expireOld transfers.now
      issued := issued } where
  names _ name := (TransferRegistry.expireOld_byName.mp name).1
  marks _ name := mark_before name
  guards _ _ found _ := found

theorem reserve (kept : Kept setting state) {request : Patch} {declared : Declared} {token : String} {agent : Transfers}
    (found : state.patches.lookup id = some ⟨request,.opening declared⟩)
    (stepped : state.agent.step (.insert token (pendingFor setting state)) = some agent)
    (names : ∀ holder, agent.registry.byName.lookup setting.key = some holder → holder = token)
    (owner : agent.registry.pending.lookup token = some (pendingFor setting state))
    (marks : agent.registry.inFlight = (state.agent.registry.expireOld state.agent.now).inFlight)
    (expected : Option (List UInt8)) (staged : Option (List UInt8)) :
    Kept setting ({ state with
      agent := agent
      staged := staged }.awaits id request (.connecting declared expected token)) := by
  have fresh := kept.early id _ found rfl
  have known {other : Nat} {one : Serving}
      (here : (state.patches.insert id ⟨request,.connecting declared expected token⟩).lookup other = some one) :
      other = id := by
    rcases lookup_insert_cases here with ⟨same,_⟩ | ⟨_,before⟩
    · exact same
    · exact kept.single other id one _ before found
  constructor
  · exact kept.ledger.step stepped
  · exact kept.backed.step kept.ledger stepped
  · intro holder transfer name present
    change agent.registry.pending.lookup holder = some transfer at present
    rw [names holder name,owner] at present
    cases present
    rfl
  · exact fun first second one two left right => (known left).trans (known right).symm
  · intro other one here _
    cases known here
    exact fresh
  · intro other connection here running
    obtain ⟨one,present⟩ := kept.live other connection here running
    cases kept.single id other _ one found present
    exact ⟨_,lookup_insert _⟩
  · intro holder name
    cases names holder name
    exact ⟨id,_,lookup_insert _,.inl rfl⟩
  · intro mark name
    change agent.registry.inFlight.lookup setting.key = some mark at name
    rw [marks] at name
    obtain ⟨connection,_,_,here,_⟩ := kept.marked_by found (mark_before name)
    rw [fresh] at here
    cases here
  · exact ⟨kept.unblocked.free,kept.unblocked.accepted⟩

theorem openTransfer (kept : Kept setting state) {request : Patch} {declared : Declared} {token : String}
    {delivery : Delivery} {next : State} (found : state.patches.lookup id = some ⟨request,.opening declared⟩)
    (taken : Reservations.openTransfer setting state id request declared token delivery = some next)
    (spared : spares setting state (.openTransfer id token delivery) = true) : Kept setting next := by
  have fresh := kept.early id _ found rfl
  have ended : ∀ connection, state.connections.lookup id = some connection → connection.isReturned = true := by
    intro connection here
    rw [fresh] at here
    cases here
  have free := kept.free found rfl ended
  cases delivery with
  | lost | failed reason => cases taken; exact kept.answer ended free _ _
  | unheard => simp [spares] at spared
  | served =>
    simp only [spares,found,Bool.and_eq_true,decide_eq_true_eq] at spared
    obtain ⟨size,checksum⟩ := spared
    obtain ⟨agent,stepped,rfl⟩ := map_eq_some_iff.mp taken
    rcases step_cases stepped with ⟨_,_,event,_,rfl⟩ | ⟨_,_,_,_,event,_⟩ | ⟨_,_,_,_,_,event,_⟩ | ⟨_,_,event,_⟩ |
      ⟨_,_,event,_⟩ | ⟨_,event,_⟩ <;> cases event
    rcases TransferRegistry.insert_cases state.agent.now token (pendingFor setting state) state.agent.registry with
      ⟨_,_,busy⟩ | outcome | ⟨answer,_,⟨_,_,outcome⟩ | ⟨sends,_⟩⟩
    · have before : state.agent.registry.isBusy setting.share setting.stagingName = true := by
        rcases TransferRegistry.isBusy_iff.mp busy with ⟨holder,name⟩ | ⟨mark,name⟩
        · exact TransferRegistry.isBusy_iff.mpr (.inl ⟨holder,(TransferRegistry.expireOld_byName.mp name).1⟩)
        · exact TransferRegistry.isBusy_iff.mpr (.inr ⟨mark,mark_before name⟩)
      rw [free] at before
      cases before
    · rw [outcome] at stepped ⊢
      have swept := (kept.onto stepped swept_quieter).dress state.session (some (state.staged.getD []))
      have answered := swept.answer ended (swept.free found rfl ended)
        (.error (.unexpectedStatus (setting.stagingName ++ " is refused"))) none
      refine ⟨answered.ledger,answered.backed,answered.ours,answered.single,answered.early,answered.live,
        answered.reserved,answered.marked,answered.unblocked.free,fun member => ?_⟩
      rcases List.mem_cons.mp member with same | before
      · cases same
      · exact kept.unblocked.accepted before
    · rw [answer]
      have reserved (expected : Option (List UInt8)) := @reserve setting state id kept request declared token _ found stepped
        (fun holder name => by
          change (state.agent.registry.insert _ _ _).2.byName.lookup _ = _ at name
          rw [outcome] at name
          rcases lookup_insert_cases name with ⟨_,same⟩ | ⟨apart,_⟩
          · exact same
          · exact absurd rfl apart)
        (by
          change (state.agent.registry.insert _ _ _).2.pending.lookup _ = _
          rw [outcome]
          exact lookup_insert _)
        (by
          change (state.agent.registry.insert _ _ _).2.inFlight = _
          rw [outcome])
        expected (some (state.staged.getD []))
      cases parsed : parseChecksum setting.env request.uploadChecksum with
      | error problem => rw [parsed] at checksum; cases checksum
      | ok expected =>
        simp only [opened,getD_some,size,ne_eq,not_true,if_false,parsed]
        exact reserved expected
    · cases sends

theorem abandoned (kept : Kept setting state) : Kept setting (Reservations.abandoned setting state) := by
  have stepped : state.agent.step (.abandon setting.share setting.stagingName) = some { state.agent with
      registry := (state.agent.registry.abandon setting.share setting.stagingName).2 } := rfl
  exact (kept.onto stepped (foreign_quieter rfl stepped kept.backed)).dress state.session _

theorem discard (kept : Kept setting state) {request : Patch} {delivery : Delivery}
    (found : state.patches.lookup id = some ⟨request,.discarding⟩) (over' : hasReturned state id = true) :
    Kept setting (Reservations.discard setting state id request delivery) := by
  have ended := returned_ends over'
  have stays := kept.answer ended (kept.free found rfl ended) (.error .notCleaned) none
  cases delivery with
  | lost => exact stays
  | failed reason => exact stays
  | unheard => exact kept.abandoned.answer ended (kept.abandoned.free found rfl ended) _ _
  | served =>
    simp only [Reservations.discard]
    split
    · exact stays
    · exact kept.abandoned.awaits found request nofun nofun

theorem count (kept : Kept setting state) {request : Patch} {upload : SessionRow} {next : Nat} {done : Bool}
    (found : state.patches.lookup id = some ⟨request,.counting upload next⟩) (over' : hasReturned state id = true) :
    Kept setting (Reservations.count setting state id request upload next done) := by
  have ended := returned_ends over'
  have dressed : Kept setting (withOffset state next) := kept.dress _ state.staged
  unfold Reservations.count
  split
  · exact kept.answer ended (kept.free found rfl ended) _ _
  · split
    · exact dressed.answer ended (dressed.free found rfl ended) _ _
    · exact dressed.awaits found request nofun nofun

theorem request (kept : Kept setting state) (fresh : state.connections.lookup id = none)
    (alone : state.patches.entries = []) (request : Patch) : Kept setting (state.awaits id request .loading) := by
  have empty (other : Nat) (one : Serving) : ¬state.patches.lookup other = some one := by
    rw [show state.patches = ∅ from AList.ext alone]
    exact nofun
  have known {other : Nat} {one : Serving}
      (here : (state.patches.insert id ⟨request,.loading⟩).lookup other = some one) : other = id := by
    rcases lookup_insert_cases here with ⟨same,_⟩ | ⟨_,before⟩
    · exact same
    · exact absurd before (empty other one)
  constructor
  · exact kept.ledger
  · exact kept.backed
  · exact kept.ours
  · exact fun first second one two left right => (known left).trans (known right).symm
  · intro other one here _
    cases known here
    exact fresh
  · intro other connection here running
    obtain ⟨one,present⟩ := kept.live other connection here running
    exact absurd present (empty other one)
  · intro token name
    obtain ⟨other,one,present,_⟩ := kept.reserved token name
    exact absurd present (empty other one)
  · exact kept.marked
  · exact ⟨kept.unblocked.free,kept.unblocked.accepted⟩

theorem step (kept : Kept setting state) {event : Event} {next : State}
    (taken : Reservations.step setting state event = some next) (spared : spares setting state event = true) :
    Kept setting next := by
  cases event with simp only [Reservations.step] at taken
  | request id request =>
    obtain ⟨new,taken⟩ := of_unless taken
    cases taken
    simp only [Bool.or_eq_true,not_or,not_isSome_iff_eq_none] at new
    exact kept.request new.2 (of_decide_eq_true spared) request
  | load id done =>
    split at taken <;> cases taken
    next request found =>
      split
      · exact kept.load found
      · exact kept.answer (kept.unconnected found rfl) (kept.free found rfl (kept.unconnected found rfl)) _ _
  | share id refusal =>
    split at taken <;> cases taken
    next request declared found =>
      cases refusal with
      | some problem => exact kept.answer (kept.unconnected found rfl) (kept.free found rfl (kept.unconnected found rfl)) _ _
      | none => exact kept.awaits found request (fun _ => kept.early id _ found rfl) nofun
  | openTransfer id token delivery =>
    split at taken
    next request declared found => exact kept.openTransfer found taken spared
    next => cases taken
  | correct id =>
    split at taken <;> cases taken
    next request opened offset found =>
      have dressed : Kept setting (withOffset state opened) := kept.dress _ state.staged
      exact dressed.answer (kept.unconnected found rfl) (kept.free found rfl (kept.unconnected found rfl)) _ _
  | connect id made =>
    split at taken <;> cases taken
    next request declared expected token found =>
      simp only [spares] at spared
      rw [if_pos spared]
      exact kept.connect found _ _ _
  | claim id =>
    split at taken
    next preamble here => exact kept.claim here taken
    next => cases taken
  | reply id fault =>
    split at taken <;> cases taken
    next preamble guard here =>
      unfold Reservations.reply
      split
      · exact kept.replied here _ state.staged
      · split
        · exact kept.replied here _ state.staged
        · exact kept.replied here _ _
  | drop id =>
    split at taken
    next guard answer here =>
      obtain ⟨agent,stepped,rfl⟩ := map_eq_some_iff.mp taken
      exact kept.drop here stepped
    next => cases taken
  | hear id =>
    split at taken
    next request declared expected guard answer found here =>
      cases taken
      refine kept.hear found here (fun failed => ?_)
      cases answer with
      | ok stored => cases failed
      | error reason => simp [spares,here] at spared
    next request declared expected answer found here =>
      cases taken
      exact kept.hear found here (fun _ => rfl)
    next => cases taken
  | giveUp id reason =>
    split at taken <;> cases taken
    next request declared expected found => exact kept.answer (returned_ends spared) (kept.free found rfl (returned_ends spared)) _ _
  | discard id delivery =>
    split at taken <;> cases taken
    next request found => exact kept.discard found spared
  | restart id done =>
    split at taken <;> cases taken
    next request found =>
      have ended := returned_ends spared
      split
      · have dressed : Kept setting (withOffset state 0) := kept.dress _ state.staged
        exact dressed.answer ended (dressed.free found rfl ended) _ _
      · exact kept.answer ended (kept.free found rfl ended) _ _
  | count id done =>
    split at taken <;> cases taken
    next request upload next found => exact kept.count found spared
  | finish id refusal =>
    split at taken <;> cases taken
    next request next found =>
      have ended := returned_ends spared
      cases refusal with
      | some problem => exact kept.answer ended (kept.free found rfl ended) _ _
      | none =>
        have dressed : Kept setting (completed state request.entryId) := kept.dress _ none
        exact dressed.answer ended (dressed.free found rfl ended) _ _
  | elsewhere session staged =>
    cases taken
    exact kept.dress session staged
  | other event =>
    obtain ⟨foreign,taken⟩ := of_when taken
    obtain ⟨agent,stepped,rfl⟩ := map_eq_some_iff.mp taken
    exact kept.onto stepped (foreign_quieter foreign stepped kept.backed)

end Kept

/-- In every run that keeps clear of a response under a reservation, whatever the session and
whatever happens to other transfers in between, no response leaves the name held and no chunk
finds it occupied. -/
theorem chunks_unblocked (setting : Setting) (session : Option SessionRow) (staged : Option (List UInt8)) (now : Nat)
    {events : List Event} {final : State}
    (spared : Machine.Meets (step setting) (fun state event => spares setting state event = true)
      (start session staged now) events)
    (ran : Machine.run (step setting) (start session staged now) events = some final) : Unblocked final :=
  (Machine.run_invariant (step setting) (fun _ _ _ kept spared taken => Kept.step kept taken spared)
    (Kept.begins session staged now) spared ran).unblocked

section Ahead

def docs : Setting := ⟨⟨id,fun _ => [],fun _ => []⟩,"docs","u.part",⟨1000,1000,1⟩⟩

def fourBytes : SessionRow := ⟨"a.txt",none,4,0,none⟩

def pair (offset : Nat) : Patch := ⟨some offset,some 2,none,[7,7],"e"⟩

def streamed : List Event :=
  [.request 0 (pair 0),.load 0 true,.share 0 none,.openTransfer 0 "t" .served,.connect 0 true,.claim 0,.reply 0 none,
    .drop 0,.hear 0,.count 0 true]

def ahead : List Event :=
  [.request 0 (pair 0),.load 0 true,.share 0 none,.openTransfer 0 "t" .served,.correct 0,
    .request 1 (pair 2),.load 1 true,.share 1 none,.openTransfer 1 "u" .served]

private theorem streamed_spared : Machine.Meets (step docs) (fun state event => spares docs state event = true)
    (start (some fourBytes) none 0) streamed := by decide +kernel

theorem streamed_unblocked : ∃ final, Machine.run (step docs) (start (some fourBytes) none 0) streamed = some final ∧
    Unblocked final := by
  have runs : (Machine.run (step docs) (start (some fourBytes) none 0) streamed).isSome = true := by decide +kernel
  obtain ⟨final,ran⟩ := isSome_iff_exists.mp runs
  exact ⟨final,ran,chunks_unblocked docs (some fourBytes) none 0 streamed_spared ran⟩

/-- A chunk that is told where the staged file is finds it occupied when it resumes there. -/
theorem ahead_blocked : ¬∀ (setting : Setting) (session : Option SessionRow) (staged : Option (List UInt8)) (now : Nat)
    (events : List Event) (final : State),
    Machine.run (step setting) (start session staged now) events = some final → Unblocked final := by
  intro always
  have stuck : (Machine.run (step docs) (start (some fourBytes) (some [7,7]) 0) ahead).any (fun final =>
      final.sent.any Sent.held && final.refusals.contains .occupied) = true := by decide +kernel
  obtain ⟨final,ran,held⟩ := (any_eq_true _ _).mp stuck
  rw [Bool.and_eq_true] at held
  obtain ⟨sent,member,kept⟩ := List.any_eq_true.mp held.1
  have free := (always _ _ _ _ _ final ran).free sent member
  rw [kept] at free
  cases free

end Ahead

end Depsis.Files.Reservations

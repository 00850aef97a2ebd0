import Depsis.Agent.TransferRegistry

/-! What the transfer registry keeps over whole runs: an upload's name stays
taken while it waits and while it streams, a download moves no bookkeeping, and
a token is spent once. The data connections (`data.rs`) contribute the guards.
-/
namespace Depsis.Agent

open Depsis.Foundation TransferRegistry List AList

structure Guard where
  key : Key
  file : Nat
  since : Nat
  deriving DecidableEq

/-- `issued` and `redeemed` record which uid opened and which redeemed a token. -/
structure Transfers where
  now : Nat
  registry : TransferRegistry
  guards : Table Nat Guard
  nextGuard : Nat
  issued : List (String × Nat)
  redeemed : List (String × Nat)

inductive Event where
  | insert (token : String) (transfer : PendingTransfer)
  | claim (token : String) (peer : PeerIdentity)
  | abandon (share stagingName : String)
  | drop (guard : Nat)
  | advance (elapsed : Nat)

/-- The registry's methods that begin with `expire_old`. -/
def Event.sweeps : Event → Bool
  | .insert _ _ | .claim _ _ => true
  | .abandon _ _ | .drop _ | .advance _ => false

namespace Transfers

def start (now : Nat) : Transfers := ⟨now,.new,∅,0,[],[]⟩

/-- A successful claim hands its transfer to a data connection, which takes a
guard for an upload only. -/
def handOver (transfers : Transfers) (token : String) (peer : PeerIdentity) (transfer : PendingTransfer)
    (registry : TransferRegistry) : Transfers :=
  { transfers with
    registry := registry
    redeemed := (token,peer.uid)::transfers.redeemed
    guards :=
      if transfer.direction = .receive then
        transfers.guards.insert transfers.nextGuard ⟨transfer.key,transfer.file,transfers.now⟩
      else transfers.guards
    nextGuard := transfers.nextGuard + 1 }

def step (transfers : Transfers) : Event → Option Transfers
  | .insert token transfer =>
    if token ∈ transfers.issued.map Prod.fst then none
    else some { transfers with
      registry := (transfers.registry.insert transfers.now token transfer).2
      issued := (token,transfer.openedBy.uid)::transfers.issued }
  | .claim token peer =>
    match transfers.registry.claim transfers.now token peer with
    | (.ok (transfer,_),registry) => some (transfers.handOver token peer transfer registry)
    | (.error _,registry) => some { transfers with registry := registry }
  | .abandon share stagingName =>
    some { transfers with registry := (transfers.registry.abandon share stagingName).2 }
  | .drop guard =>
    (transfers.guards.lookup guard).map (fun held => { transfers with
      registry := transfers.registry.release held.key
      guards := transfers.guards.erase guard })
  | .advance elapsed => some { transfers with now := transfers.now + elapsed }

end Transfers

def TransferRegistry.sweepsClean (now : Nat) (registry : TransferRegistry) : Bool :=
  registry.pending.all (fun _ transfer =>
    transfer.direction = .receive || transfer.alive now ||
      match registry.byName.lookup transfer.key with
      | none => true
      | some holder => (registry.pending.lookup holder).all (fun owner => !owner.alive now))

/-- The steps on which the bookkeeping of one transfer is never touched by
another: a sweep finds no expired download under a live reservation, and no guard
is dropped while a younger claim of the same name streams. -/
def orderly (transfers : Transfers) : Event → Bool
  | .insert _ _ | .claim _ _ => transfers.registry.sweepsClean transfers.now
  | .drop guard => transfers.guards.all (fun other held =>
      other = guard || decide (CLAIMED_TTL < transfers.now - held.since) ||
        decide ((transfers.guards.lookup guard).map Guard.key ≠ some held.key))
  | .abandon _ _ | .advance _ => true

variable {event : Event} {next transfers : Transfers} {now : Nat} {peer : PeerIdentity}
  {registry : TransferRegistry} {token : String} {transfer : PendingTransfer}

theorem sweepsClean_iff :
    registry.sweepsClean now = true ↔ ∀ token transfer holder owner,
      registry.pending.lookup token = some transfer → transfer.direction = .send →
      transfer.alive now = false → registry.byName.lookup transfer.key = some holder →
      registry.pending.lookup holder = some owner → owner.alive now = false := by
  simp only [sweepsClean,all_iff,Bool.or_eq_true,decide_eq_true_eq]
  constructor
  · intro clean token transfer holder owner found way late reserved owned
    have here := clean token transfer found
    simpa [way,late,reserved,owned] using here
  · intro clean token transfer found
    cases way : transfer.direction with
    | receive => simp
    | send =>
      cases late : transfer.alive now with
      | true => simp
      | false =>
        cases reserved : registry.byName.lookup transfer.key with
        | none => simp
        | some holder =>
          cases owned : registry.pending.lookup holder with
          | none => simp [owned]
          | some owner => simp [owned,clean token transfer holder owner found way late reserved owned]

/-- A reservation belongs to a pending upload of that name, every pending upload
has one, and no name is both reserved and in flight. -/
structure Booked (registry : TransferRegistry) : Prop where
  held : ∀ key token, registry.byName.lookup key = some token → ∃ transfer,
    registry.pending.lookup token = some transfer ∧ transfer.direction = .receive ∧ transfer.key = key
  reserved : ∀ token transfer, registry.pending.lookup token = some transfer →
    transfer.direction = .receive → registry.byName.lookup transfer.key = some token
  exclusive : ∀ key token, registry.byName.lookup key = some token → registry.inFlight.lookup key = none

namespace Booked

variable {registry : TransferRegistry}

theorem congr {other : TransferRegistry} (same : SameEntries other registry) (booked : Booked registry) :
    Booked other where
  held key token found := by
    rw [same.byName] at found
    simpa only [same.pending] using booked.held key token found
  reserved token transfer found way := by
    rw [same.pending] at found
    rw [same.byName]
    exact booked.reserved token transfer found way
  exclusive key token found := by
    rw [same.byName] at found
    rw [same.inFlight]
    exact booked.exclusive key token found

theorem expireOld (clean : registry.sweepsClean now = true) (booked : Booked registry) :
    Booked (registry.expireOld now) where
  held key token found := by
    obtain ⟨before,kept⟩ := expireOld_byName.mp found
    obtain ⟨transfer,present,way,same⟩ := booked.held key token before
    refine ⟨transfer,?_,way,same⟩
    rw [expireOld_pending,present,Option.filter_some,kept token transfer present same]
    rfl
  reserved token transfer found way := by
    rw [expireOld_pending,Option.filter_eq_some_iff] at found
    obtain ⟨present,fresh⟩ := found
    have before := booked.reserved token transfer present way
    refine expireOld_byName.mpr ⟨before,fun other dead found same => ?_⟩
    by_contra late
    have late : dead.alive now = false := by simpa using late
    -- a dead download is excluded by the sweep being clean, a dead upload by holding the name itself
    cases turn : dead.direction with
    | send =>
      have late' := sweepsClean_iff.mp clean other dead token transfer found turn late (same ▸ before) present
      rw [fresh] at late'
      cases late'
    | receive =>
      have holder := booked.reserved other dead found turn
      rw [same,before,Option.some.injEq] at holder
      subst holder
      cases Option.some.inj (present.symm.trans found)
      rw [fresh] at late
      cases late
  exclusive key token found := by
    rw [expireOld_inFlight,booked.exclusive key token (expireOld_byName.mp found).1]
    rfl

private theorem insert_send (way : transfer.direction = .send)
    (unused : registry.pending.lookup token = none) (booked : Booked registry) :
    Booked { registry with pending := registry.pending.insert token transfer } where
  held key holder found := by
    obtain ⟨owner,present,receives,same⟩ := booked.held key holder found
    refine ⟨owner,?_,receives,same⟩
    refine (lookup_insert_ne ?_).trans present
    rintro rfl
    rw [unused] at present
    cases present
  reserved other owner found receives := by
    rcases lookup_insert_cases found with ⟨-,is⟩ | ⟨-,found⟩
    · cases is.symm; rw [way] at receives; cases receives
    · exact booked.reserved other owner found receives
  exclusive := booked.exclusive

private theorem insert_receive
    (way : transfer.direction = .receive) (unused : registry.pending.lookup token = none)
    (free : registry.isBusy transfer.share transfer.stagingName = false) (booked : Booked registry) :
    Booked { registry with
      byName := registry.byName.insert transfer.key token
      pending := registry.pending.insert token transfer } := by
  have absent : registry.byName.lookup transfer.key = none ∧ registry.inFlight.lookup transfer.key = none := by
    simpa [isBusy,PendingTransfer.key] using free
  constructor
  · intro key holder found
    rcases lookup_insert_cases found with ⟨same,is⟩ | ⟨-,found⟩
    · cases is.symm
      exact ⟨transfer,lookup_insert _,way,same.symm⟩
    · obtain ⟨owner,present,receives,same⟩ := booked.held key holder found
      refine ⟨owner,?_,receives,same⟩
      refine (lookup_insert_ne ?_).trans present
      rintro rfl
      rw [unused] at present
      cases present
  · intro other owner found receives
    rcases lookup_insert_cases found with ⟨same,is⟩ | ⟨-,found⟩
    · cases is.symm
      rw [same]
      exact lookup_insert _
    · have holds := booked.reserved other owner found receives
      refine (lookup_insert_ne ?_).trans holds
      intro same
      rw [same,absent.1] at holds
      cases holds
  · intro key holder found
    rw [lookup_insert_eq] at found
    split at found
    next same => rw [same]; exact absent.2
    next => exact booked.exclusive key holder found

theorem insert
    (unused : registry.pending.lookup token = none) (clean : registry.sweepsClean now = true)
    (booked : Booked registry) : Booked (registry.insert now token transfer).2 := by
  have swept := booked.expireOld clean
  have unused : (registry.expireOld now).pending.lookup token = none := by
    rw [expireOld_pending,unused]
    rfl
  rcases insert_cases now token transfer registry with ⟨outcome,_,_⟩ | outcome |
    ⟨_,_,⟨way,free,outcome⟩ | ⟨way,outcome⟩⟩
  · rw [outcome]; exact swept
  · rw [outcome]; exact swept
  · rw [outcome]; exact swept.insert_receive way unused free
  · rw [outcome]; exact swept.insert_send way unused

theorem redeem
    (present : registry.pending.lookup token = some transfer) (booked : Booked registry) :
    Booked (registry.redeem now token transfer) := by
  cases way : transfer.direction with
  | send =>
    simp only [TransferRegistry.redeem,way,reduceCtorEq,if_false]
    refine ⟨fun key holder found => ?_,fun other owner found receives => ?_,booked.exclusive⟩
    · obtain ⟨owner,held,receives,same⟩ := booked.held key holder found
      refine ⟨owner,?_,receives,same⟩
      refine (lookup_erase_ne ?_).trans held
      rintro rfl
      cases Option.some.inj (held.symm.trans present)
      rw [way] at receives
      cases receives
    · obtain ⟨-,found⟩ := lookup_erase_some found
      exact booked.reserved other owner found receives
  | receive =>
    have mine := booked.reserved token transfer present way
    simp only [TransferRegistry.redeem,way,if_true]
    refine ⟨fun key holder found => ?_,fun other owner found receives => ?_,fun key holder found => ?_⟩
    · obtain ⟨elsewhere,found⟩ := lookup_erase_some found
      obtain ⟨owner,held,receives,same⟩ := booked.held key holder found
      refine ⟨owner,?_,receives,same⟩
      refine (lookup_erase_ne ?_).trans held
      rintro rfl
      cases Option.some.inj (held.symm.trans present)
      exact elsewhere same.symm
    · obtain ⟨different,found⟩ := lookup_erase_some found
      have holds := booked.reserved other owner found receives
      refine (lookup_erase_ne ?_).trans holds
      intro same
      rw [same,mine] at holds
      exact different (Option.some.inj holds).symm
    · obtain ⟨elsewhere,found⟩ := lookup_erase_some found
      rw [lookup_insert_eq,if_neg elsewhere]
      exact booked.exclusive key holder found

theorem claim (token : String) (peer : PeerIdentity) (clean : registry.sweepsClean now = true)
    (booked : Booked registry) : Booked (registry.claim now token peer).2 := by
  have swept := booked.expireOld clean
  rcases claim_swept now token peer registry with ⟨_,_,same⟩ | ⟨transfer,found,fresh,_,_,same⟩
  · exact swept.congr same
  · refine (swept.redeem ?_).congr same
    rw [expireOld_pending,found,Option.filter_some,fresh]
    rfl

theorem abandon (share stagingName : String) (booked : Booked registry) :
    Booked (registry.abandon share stagingName).2 := by
  rcases abandon_cases share stagingName registry with outcome | ⟨token,reserved,outcome⟩
  · rw [outcome]; exact booked
  · obtain ⟨transfer,present,way,same⟩ := booked.held _ token reserved
    rw [outcome]
    refine ⟨fun key holder found => ?_,fun other owner found receives => ?_,fun key holder found => ?_⟩
    · obtain ⟨elsewhere,found⟩ := lookup_erase_some found
      obtain ⟨owner,held,receives,at_key⟩ := booked.held key holder found
      refine ⟨owner,?_,receives,at_key⟩
      refine (lookup_erase_ne ?_).trans held
      rintro rfl
      cases Option.some.inj (held.symm.trans present)
      exact elsewhere (at_key.symm.trans same)
    · obtain ⟨different,found⟩ := lookup_erase_some found
      have holds := booked.reserved other owner found receives
      refine (lookup_erase_ne ?_).trans holds
      intro at_key
      rw [at_key,reserved] at holds
      exact different (Option.some.inj holds).symm
    · obtain ⟨-,found⟩ := lookup_erase_some found
      exact booked.exclusive key holder found

theorem release (key : Key) (booked : Booked registry) : Booked (registry.release key) where
  held := booked.held
  reserved := booked.reserved
  exclusive other token found := by
    simp only [TransferRegistry.release,lookup_erase_eq]
    split
    next => rfl
    next => exact booked.exclusive other token found

end Booked

def Marked (transfers : Transfers) : Prop :=
  ∀ id guard, transfers.guards.lookup id = some guard → transfers.now - guard.since ≤ CLAIMED_TTL →
    transfers.registry.inFlight.lookup guard.key = some ⟨guard.since⟩

structure Ledger (transfers : Transfers) : Prop where
  opened : ∀ token transfer, transfers.registry.pending.lookup token = some transfer →
    (token,transfer.openedBy.uid) ∈ transfers.issued
  distinct : (transfers.issued.map Prod.fst).Nodup
  accounted : ∀ entry ∈ transfers.redeemed, entry ∈ transfers.issued
  spent : ∀ entry ∈ transfers.redeemed, transfers.registry.pending.lookup entry.1 = none
  once : (transfers.redeemed.map Prod.fst).Nodup
  bounded : transfers.registry.pending.size ≤ MAX_PENDING_TRANSFERS

theorem step_cases
    (taken : transfers.step event = some next) :
    (∃ token transfer, event = .insert token transfer ∧ token ∉ transfers.issued.map Prod.fst ∧
      next = { transfers with
        registry := (transfers.registry.insert transfers.now token transfer).2
        issued := (token,transfer.openedBy.uid)::transfers.issued }) ∨
    (∃ token peer error registry, event = .claim token peer ∧
      transfers.registry.claim transfers.now token peer = (.error error,registry) ∧
      next = { transfers with registry := registry }) ∨
    (∃ token peer transfer key registry, event = .claim token peer ∧
      transfers.registry.claim transfers.now token peer = (.ok (transfer,key),registry) ∧
      next = transfers.handOver token peer transfer registry) ∨
    (∃ share stagingName, event = .abandon share stagingName ∧
      next = { transfers with registry := (transfers.registry.abandon share stagingName).2 }) ∨
    (∃ id guard, event = .drop id ∧ transfers.guards.lookup id = some guard ∧
      next = { transfers with
        registry := transfers.registry.release guard.key
        guards := transfers.guards.erase id }) ∨
    (∃ elapsed, event = .advance elapsed ∧ next = { transfers with now := transfers.now + elapsed }) := by
  cases event with
  | insert token transfer =>
    simp only [Transfers.step] at taken
    obtain ⟨fresh,taken⟩ := of_unless taken
    exact .inl ⟨token,transfer,rfl,fresh,(Option.some.inj taken).symm⟩
  | claim token peer =>
    simp only [Transfers.step] at taken
    split at taken
    next transfer key registry outcome =>
      exact .inr (.inr (.inl ⟨token,peer,transfer,key,registry,rfl,outcome,(Option.some.inj taken).symm⟩))
    next error registry outcome =>
      exact .inr (.inl ⟨token,peer,error,registry,rfl,outcome,(Option.some.inj taken).symm⟩)
  | abandon share stagingName =>
    exact .inr (.inr (.inr (.inl ⟨share,stagingName,rfl,(Option.some.inj taken).symm⟩)))
  | drop id =>
    obtain ⟨guard,held,same⟩ := Option.map_eq_some_iff.mp taken
    exact .inr (.inr (.inr (.inr (.inl ⟨id,guard,rfl,held,same.symm⟩))))
  | advance elapsed =>
    exact .inr (.inr (.inr (.inr (.inr ⟨elapsed,rfl,(Option.some.inj taken).symm⟩))))

theorem step_now
    (taken : transfers.step event = some next) : transfers.now ≤ next.now := by
  rcases step_cases taken with ⟨_,_,_,_,rfl⟩ | ⟨_,_,_,_,_,_,rfl⟩ | ⟨_,_,_,_,_,_,_,rfl⟩ | ⟨_,_,_,rfl⟩ |
    ⟨_,_,_,_,rfl⟩ | ⟨elapsed,_,rfl⟩
  all_goals simp [Transfers.handOver]

theorem claim_refused {after : TransferRegistry}
    {error : ClaimError} (outcome : registry.claim now token peer = (.error error,after)) :
    SameEntries after (registry.expireOld now) := by
  rcases claim_swept now token peer registry with ⟨_,_,same⟩ | ⟨_,_,_,_,answer,_⟩
  · rwa [outcome] at same
  · rw [outcome] at answer
    cases answer

theorem claim_granted {after : TransferRegistry}
    {key : Key}
    (outcome : registry.claim now token peer = (.ok (transfer,key),after)) :
    registry.pending.lookup token = some transfer ∧ transfer.alive now = true ∧
      transfer.openedBy.uid = peer.uid ∧ key = transfer.key ∧
      SameEntries after ((registry.expireOld now).redeem now token transfer) := by
  rcases claim_swept now token peer registry with ⟨_,answer,_⟩ | ⟨other,found,fresh,owner,answer,same⟩
  · rw [outcome] at answer
    cases answer
  · rw [outcome] at answer same
    cases answer
    exact ⟨found,fresh,owner,rfl,same⟩

theorem Booked.step (ledger : Ledger transfers)
    (admitted : orderly transfers event = true) (taken : transfers.step event = some next)
    (booked : Booked transfers.registry) : Booked next.registry := by
  rcases step_cases taken with ⟨token,transfer,rfl,fresh,rfl⟩ | ⟨token,peer,error,registry,rfl,outcome,rfl⟩ |
    ⟨token,peer,transfer,key,registry,rfl,outcome,rfl⟩ | ⟨share,stagingName,rfl,rfl⟩ |
    ⟨id,guard,rfl,held,rfl⟩ | ⟨elapsed,rfl,rfl⟩
  · refine booked.insert ?_ admitted
    cases present : transfers.registry.pending.lookup token with
    | none => rfl
    | some old => exact absurd (mem_map_of_mem (ledger.opened token old present)) fresh
  · have kept := booked.claim token peer admitted
    rwa [outcome] at kept
  · have kept := booked.claim token peer admitted
    rwa [outcome] at kept
  · exact booked.abandon share stagingName
  · exact booked.release guard.key
  · exact booked

private theorem pending_after_claim {other : String}
    {entry : PendingTransfer}
    (found : (registry.claim now token peer).2.pending.lookup other = some entry) :
    registry.pending.lookup other = some entry := by
  have swept : (registry.expireOld now).pending.lookup other = some entry →
      registry.pending.lookup other = some entry := by
    rw [expireOld_pending,Option.filter_eq_some_iff]
    exact And.left
  rcases claim_swept now token peer registry with ⟨_,_,same⟩ | ⟨transfer,_,_,_,_,same⟩
  · exact swept ((same.pending other).symm.trans found)
  · rw [same.pending,TransferRegistry.redeem,lookup_erase_eq] at found
    obtain ⟨-,found⟩ := of_unless found
    exact swept found

theorem Ledger.step (taken : transfers.step event = some next)
    (ledger : Ledger transfers) : Ledger next := by
  rcases step_cases taken with ⟨token,transfer,rfl,fresh,rfl⟩ | ⟨token,peer,error,registry,rfl,outcome,rfl⟩ |
    ⟨token,peer,transfer,key,registry,rfl,outcome,rfl⟩ | ⟨share,stagingName,rfl,rfl⟩ |
    ⟨id,guard,rfl,held,rfl⟩ | ⟨elapsed,rfl,rfl⟩
  · refine ⟨fun other entry found => ?_,?_,fun entry member => ?_,fun entry member => ?_,ledger.once,
      insert_size ledger.bounded⟩
    · rcases insert_pending found with before | ⟨rfl,rfl⟩
      · exact mem_cons_of_mem _ (ledger.opened other entry before)
      · exact mem_cons_self
    · exact nodup_cons.mpr ⟨fresh,ledger.distinct⟩
    · exact mem_cons_of_mem _ (ledger.accounted entry member)
    · cases found : (transfers.registry.insert transfers.now token transfer).2.pending.lookup entry.1 with
      | none => rfl
      | some present =>
        rcases insert_pending found with before | ⟨same,_⟩
        · rw [ledger.spent entry member] at before
          cases before
        · exact absurd (same ▸ mem_map_of_mem (ledger.accounted entry member)) fresh
  · have kept {other entry} (found : registry.pending.lookup other = some entry) :
        transfers.registry.pending.lookup other = some entry :=
      pending_after_claim (by rw [outcome]; exact found)
    refine ⟨fun other entry found => ledger.opened other entry (kept found),ledger.distinct,
      ledger.accounted,fun entry member => ?_,ledger.once,?_⟩
    · cases found : registry.pending.lookup entry.1 with
      | none => rfl
      | some present => exact (kept found).symm.trans (ledger.spent entry member)
    · have size := claim_size transfers.now token peer transfers.registry
      rw [outcome] at size
      exact Nat.le_trans size ledger.bounded
  · have kept {other entry} (found : registry.pending.lookup other = some entry) :
        transfers.registry.pending.lookup other = some entry :=
      pending_after_claim (by rw [outcome]; exact found)
    obtain ⟨present,fresh,owner,_,same⟩ := claim_granted outcome
    have mine : (token,peer.uid) ∈ transfers.issued := owner ▸ ledger.opened token transfer present
    have gone : registry.pending.lookup token = none := by
      rw [same.pending,TransferRegistry.redeem]
      exact lookup_erase _ _
    refine ⟨fun other entry found => ledger.opened other entry (kept found),ledger.distinct,
      fun entry member => ?_,fun entry member => ?_,?_,?_⟩
    · rcases mem_cons.mp member with rfl | earlier
      · exact mine
      · exact ledger.accounted entry earlier
    · rcases mem_cons.mp member with rfl | earlier
      · exact gone
      · cases found : registry.pending.lookup entry.1 with
        | none => exact found
        | some old => exact absurd ((ledger.spent entry earlier).symm.trans (kept found)) (by simp)
    · refine nodup_cons.mpr ⟨fun again => ?_,ledger.once⟩
      obtain ⟨entry,earlier,token_same⟩ := mem_map.mp again
      have none := ledger.spent entry earlier
      rw [token_same,present] at none
      cases none
    · have size := claim_size transfers.now token peer transfers.registry
      rw [outcome] at size
      exact Nat.le_trans size ledger.bounded
  · rcases abandon_cases share stagingName transfers.registry with outcome | ⟨token,reserved,outcome⟩
    · rw [outcome]
      exact ledger
    · rw [outcome]
      refine ⟨fun other entry found => ?_,ledger.distinct,ledger.accounted,fun entry member => ?_,
        ledger.once,?_⟩
      · obtain ⟨-,found⟩ := lookup_erase_some found
        exact ledger.opened other entry found
      · rw [lookup_erase_eq]
        split
        next => rfl
        next => exact ledger.spent entry member
      · exact Nat.le_trans (size_erase_le _ _) ledger.bounded
  all_goals exact ⟨ledger.opened,ledger.distinct,ledger.accounted,ledger.spent,ledger.once,ledger.bounded⟩

private theorem mark_after_sweep {guard : Guard}
    (marked : registry.inFlight.lookup guard.key = some ⟨guard.since⟩)
    (young : now - guard.since ≤ CLAIMED_TTL) :
    (registry.expireOld now).inFlight.lookup guard.key = some ⟨guard.since⟩ := by
  rw [expireOld_inFlight,marked,Option.filter_some]
  simp [InFlight.alive,young]

theorem mark_step {id : Nat} {guard : Guard}
    (booked : Booked transfers.registry) (taken : transfers.step event = some next)
    (held : transfers.guards.lookup id = some guard) (still : next.guards.lookup id = some guard)
    (young : event.sweeps = true → transfers.now - guard.since ≤ CLAIMED_TTL)
    (apart : ∀ other dropped, event = .drop other → transfers.guards.lookup other = some dropped →
      other ≠ id → dropped.key ≠ guard.key)
    (marked : transfers.registry.inFlight.lookup guard.key = some ⟨guard.since⟩) :
    next.registry.inFlight.lookup guard.key = some ⟨guard.since⟩ := by
  rcases step_cases taken with ⟨token,transfer,rfl,fresh,rfl⟩ | ⟨token,peer,error,registry,rfl,outcome,rfl⟩ |
    ⟨token,peer,transfer,key,registry,rfl,outcome,rfl⟩ | ⟨share,stagingName,rfl,rfl⟩ |
    ⟨gone,dropped,rfl,present,rfl⟩ | ⟨elapsed,rfl,rfl⟩
  · change (transfers.registry.insert transfers.now token transfer).2.inFlight.lookup guard.key = _
    rw [insert_inFlight]
    exact mark_after_sweep marked (young rfl)
  · change registry.inFlight.lookup guard.key = _
    rw [(claim_refused outcome).inFlight]
    exact mark_after_sweep marked (young rfl)
  · obtain ⟨present,_,_,_,same⟩ := claim_granted outcome
    have swept := mark_after_sweep marked (young rfl)
    change registry.inFlight.lookup guard.key = _
    rw [same.inFlight,TransferRegistry.redeem]
    cases way : transfer.direction with
    | send => simpa only [way,reduceCtorEq,if_false] using swept
    | receive =>
      simp only [if_true]
      refine (lookup_insert_ne ?_).trans swept
      -- the pending upload's reservation excludes a mark under the same name
      intro clash
      have free := booked.exclusive _ _ (booked.reserved token transfer present way)
      rw [← clash,marked] at free
      cases free
  · change (transfers.registry.abandon share stagingName).2.inFlight.lookup guard.key = _
    rcases abandon_cases share stagingName transfers.registry with outcome | ⟨token,_,outcome⟩ <;>
      rw [outcome] <;> exact marked
  · have other : gone ≠ id := by
      rintro rfl
      change (transfers.guards.erase gone).lookup gone = some guard at still
      rw [lookup_erase] at still
      cases still
    change (transfers.registry.inFlight.erase dropped.key).lookup guard.key = _
    rw [lookup_erase_eq,if_neg (apart gone dropped rfl present other).symm]
    exact marked
  · exact marked

theorem pending_step
    (taken : transfers.step event = some next)
    (found : next.registry.pending.lookup token = some transfer) :
    transfers.registry.pending.lookup token = some transfer ∨ event = .insert token transfer := by
  rcases step_cases taken with ⟨_,_,rfl,_,rfl⟩ | ⟨_,_,_,registry,rfl,outcome,rfl⟩ |
    ⟨_,_,_,_,registry,rfl,outcome,rfl⟩ | ⟨share,stagingName,rfl,rfl⟩ | ⟨_,_,rfl,_,rfl⟩ | ⟨_,rfl,rfl⟩
  · rcases insert_pending found with before | ⟨rfl,rfl⟩
    · exact .inl before
    · exact .inr rfl
  · exact .inl (pending_after_claim (by rw [outcome]; exact found))
  · exact .inl (pending_after_claim (by rw [outcome]; exact found))
  · rcases abandon_cases share stagingName transfers.registry with outcome | ⟨held,_,outcome⟩ <;>
      rw [outcome] at found
    · exact .inl found
    · obtain ⟨-,found⟩ := lookup_erase_some found
      exact .inl found
  · exact .inl found
  · exact .inl found

theorem guard_step {id : Nat} {guard : Guard}
    (taken : transfers.step event = some next) (held : next.guards.lookup id = some guard) :
    transfers.guards.lookup id = some guard ∨
    ∃ token peer transfer, event = .claim token peer ∧ id = transfers.nextGuard ∧
      transfers.registry.pending.lookup token = some transfer ∧ transfer.direction = .receive ∧
      guard = ⟨transfer.key,transfer.file,transfers.now⟩ ∧
      next.registry.inFlight.lookup guard.key = some ⟨guard.since⟩ := by
  rcases step_cases taken with ⟨token,transfer,rfl,fresh,rfl⟩ | ⟨token,peer,error,registry,rfl,outcome,rfl⟩ |
    ⟨token,peer,transfer,key,registry,rfl,outcome,rfl⟩ | ⟨share,stagingName,rfl,rfl⟩ |
    ⟨gone,dropped,rfl,present,rfl⟩ | ⟨elapsed,rfl,rfl⟩
  · exact .inl held
  · exact .inl held
  · obtain ⟨present,_,_,_,same⟩ := claim_granted outcome
    change (if transfer.direction = .receive then
      transfers.guards.insert transfers.nextGuard ⟨transfer.key,transfer.file,transfers.now⟩
      else transfers.guards).lookup id = some guard at held
    split at held
    next way =>
      rcases lookup_insert_cases held with ⟨newest,is⟩ | ⟨-,held⟩
      · cases is.symm
        refine .inr ⟨token,peer,transfer,rfl,newest,present,way,rfl,?_⟩
        change registry.inFlight.lookup transfer.key = _
        rw [same.inFlight,TransferRegistry.redeem]
        simp only [way,if_true]
        exact lookup_insert _
      · exact .inl held
    next => exact .inl held
  · exact .inl held
  · change (transfers.guards.erase gone).lookup id = some guard at held
    obtain ⟨-,held⟩ := lookup_erase_some held
    exact .inl held
  · exact .inl held

theorem Marked.step (booked : Booked transfers.registry)
    (admitted : orderly transfers event = true) (taken : transfers.step event = some next)
    (marked : Marked transfers) : Marked next := by
  intro id guard held young
  rcases guard_step taken held with before | ⟨_,_,_,_,_,_,_,_,mark⟩
  · have earlier : transfers.now - guard.since ≤ CLAIMED_TTL := by
      have later := step_now taken
      omega
    refine mark_step booked taken before held (fun _ => earlier) ?_ (marked id guard before earlier)
    rintro other dropped rfl present different
    simp only [orderly,all_iff] at admitted
    have apart := admitted id guard before
    simp only [Ne.symm different,decide_false,Bool.false_or,Bool.or_eq_true,decide_eq_true_eq,present,
      Option.map_some,ne_eq,Option.some.injEq] at apart
    rcases apart with old | elsewhere
    · exact absurd earlier (Nat.not_le_of_lt old)
    · exact elsewhere
  · exact mark

structure Kept (transfers : Transfers) : Prop where
  booked : Booked transfers.registry
  marked : Marked transfers
  ledger : Ledger transfers

theorem Kept.start (now : Nat) : Kept (.start now) where
  booked := ⟨fun _ _ found => (nomatch found),fun _ _ found => (nomatch found),fun _ _ found => (nomatch found)⟩
  marked := fun _ _ found => (nomatch found)
  ledger := ⟨fun _ _ found => (nomatch found),nodup_nil,fun _ member => (nomatch member),
    fun _ member => (nomatch member),nodup_nil,Nat.zero_le _⟩

theorem Kept.step (transfers : Transfers) (event : Event) (next : Transfers) (kept : Kept transfers)
    (admitted : orderly transfers event = true) (taken : transfers.step event = some next) : Kept next where
  booked := kept.booked.step kept.ledger admitted taken
  marked := kept.marked.step kept.booked admitted taken
  ledger := kept.ledger.step taken

/-- An upload under this name waits within `TRANSFER_TTL` or streams within
`CLAIMED_TTL`. -/
def Uploading (transfers : Transfers) (key : Key) : Prop :=
  (∃ token transfer, transfers.registry.pending.lookup token = some transfer ∧
    transfer.direction = .receive ∧ transfer.key = key ∧ transfer.alive transfers.now = true) ∨
  (∃ id guard, transfers.guards.lookup id = some guard ∧ guard.key = key ∧
    transfers.now - guard.since ≤ CLAIMED_TTL)

/-- Every reservation, in-flight mark and guard that a step adds or removes is
the business of an upload of that name. -/
structure UploadsOnly (before : Transfers) (event : Event) (after : Transfers) : Prop where
  reserves : ∀ key token, after.registry.byName.lookup key = some token →
    before.registry.byName.lookup key = some token ∨
    ∃ transfer, event = .insert token transfer ∧ transfer.direction = .receive ∧ transfer.key = key
  frees : ∀ key token, before.registry.byName.lookup key = some token →
    after.registry.byName.lookup key = some token ∨
    ∃ transfer, before.registry.pending.lookup token = some transfer ∧ transfer.direction = .receive ∧
      transfer.key = key ∧ (transfer.alive before.now = false ∨
        (∃ peer, event = .claim token peer ∧ transfer.openedBy.uid = peer.uid) ∨
        event = .abandon key.1 key.2)
  marks : ∀ key mark, after.registry.inFlight.lookup key = some mark →
    before.registry.inFlight.lookup key = some mark ∨
    ∃ token peer transfer, event = .claim token peer ∧
      before.registry.pending.lookup token = some transfer ∧ transfer.direction = .receive ∧
      transfer.key = key
  unmarks : ∀ key mark, before.registry.inFlight.lookup key = some mark →
    after.registry.inFlight.lookup key = some mark ∨ mark.alive before.now = false ∨
    ∃ id guard, event = .drop id ∧ before.guards.lookup id = some guard ∧ guard.key = key
  guards : ∀ id guard, after.guards.lookup id = some guard → before.guards.lookup id = some guard ∨
    ∃ token peer transfer, event = .claim token peer ∧
      before.registry.pending.lookup token = some transfer ∧ transfer.direction = .receive ∧
      transfer.key = guard.key

private theorem reservation_expires {key : Key}
    (booked : Booked registry) (clean : registry.sweepsClean now = true)
    (reserved : registry.byName.lookup key = some token) :
    (registry.expireOld now).byName.lookup key = some token ∨
    ∃ transfer, registry.pending.lookup token = some transfer ∧ transfer.direction = .receive ∧
      transfer.key = key ∧ transfer.alive now = false := by
  obtain ⟨transfer,present,way,same⟩ := booked.held key token reserved
  cases fresh : transfer.alive now with
  | false => exact .inr ⟨transfer,present,way,same,fresh⟩
  | true =>
    have swept : (registry.expireOld now).pending.lookup token = some transfer := by
      rw [expireOld_pending,present,Option.filter_some,fresh]
      rfl
    exact .inl (same ▸ (booked.expireOld clean).reserved token transfer swept way)

private theorem mark_expires (now : Nat) {key : Key} {mark : InFlight}
    (found : registry.inFlight.lookup key = some mark) :
    (registry.expireOld now).inFlight.lookup key = some mark ∨ mark.alive now = false := by
  rw [expireOld_inFlight,found,Option.filter_some]
  cases mark.alive now <;> simp

private theorem mark_before_sweep {key : Key} {mark : InFlight}
    (found : (registry.expireOld now).inFlight.lookup key = some mark) :
    registry.inFlight.lookup key = some mark := by
  rw [expireOld_inFlight,Option.filter_eq_some_iff] at found
  exact found.1

private theorem uploadsOnly_insert
    (booked : Booked transfers.registry) (clean : transfers.registry.sweepsClean transfers.now = true) :
    UploadsOnly transfers (.insert token transfer) { transfers with
      registry := (transfers.registry.insert transfers.now token transfer).2
      issued := (token,transfer.openedBy.uid)::transfers.issued } := by
  refine ⟨fun key holder found => ?_,fun key holder reserved => ?_,fun key mark found => ?_,
    fun key mark found => ?_,fun id guard held => .inl held⟩
  · rcases insert_cases transfers.now token transfer transfers.registry with ⟨outcome,_,_⟩ | outcome |
      ⟨_,_,⟨way,_,outcome⟩ | ⟨_,outcome⟩⟩ <;> simp only [outcome] at found
    · exact .inl (expireOld_byName.mp found).1
    · exact .inl (expireOld_byName.mp found).1
    · rcases lookup_insert_cases found with ⟨same,is⟩ | ⟨-,found⟩
      · exact .inr ⟨transfer,by rw [is.symm],way,same.symm⟩
      · exact .inl (expireOld_byName.mp found).1
    · exact .inl (expireOld_byName.mp found).1
  · rcases reservation_expires booked clean reserved with kept | ⟨owner,present,way,same,late⟩
    · rcases insert_cases transfers.now token transfer transfers.registry with ⟨outcome,_,_⟩ | outcome |
        ⟨_,_,⟨_,free,outcome⟩ | ⟨_,outcome⟩⟩ <;> simp only [outcome]
      · exact .inl kept
      · exact .inl kept
      · rw [lookup_insert_eq]
        split
        next same =>
          have busy : (transfers.registry.expireOld transfers.now).isBusy transfer.share
              transfer.stagingName = true := by
            rw [same] at kept
            exact isBusy_iff.mpr (.inl ⟨holder,kept⟩)
          rw [free] at busy
          cases busy
        next => exact .inl kept
      · exact .inl kept
    · exact .inr ⟨owner,present,way,same,.inl late⟩
  · rw [insert_inFlight] at found
    exact .inl (mark_before_sweep found)
  · rw [insert_inFlight]
    rcases mark_expires _ found with kept | late
    · exact .inl kept
    · exact .inr (.inl late)

private theorem uploadsOnly_refused
    (booked : Booked transfers.registry)
    (clean : transfers.registry.sweepsClean transfers.now = true)
    (same : SameEntries registry (transfers.registry.expireOld transfers.now)) :
    UploadsOnly transfers (.claim token peer) { transfers with registry := registry } := by
  refine ⟨fun key holder found => ?_,fun key holder reserved => ?_,fun key mark found => ?_,
    fun key mark found => ?_,fun id guard held => .inl held⟩
  · exact .inl (expireOld_byName.mp ((same.byName key).symm.trans found)).1
  · rcases reservation_expires booked clean reserved with kept | ⟨owner,present,way,at_key,late⟩
    · exact .inl ((same.byName key).trans kept)
    · exact .inr ⟨owner,present,way,at_key,.inl late⟩
  · exact .inl (mark_before_sweep ((same.inFlight key).symm.trans found))
  · rcases mark_expires _ found with kept | late
    · exact .inl ((same.inFlight key).trans kept)
    · exact .inr (.inl late)

private theorem uploadsOnly_granted
    (booked : Booked transfers.registry)
    (clean : transfers.registry.sweepsClean transfers.now = true)
    (present : transfers.registry.pending.lookup token = some transfer)
    (owner : transfer.openedBy.uid = peer.uid)
    (same : SameEntries registry ((transfers.registry.expireOld transfers.now).redeem transfers.now token transfer)) :
    UploadsOnly transfers (.claim token peer) (transfers.handOver token peer transfer registry) := by
  refine ⟨fun key holder found => ?_,fun key holder reserved => ?_,fun key mark found => ?_,
    fun key mark found => ?_,fun id guard held => ?_⟩
  · change registry.byName.lookup key = some holder at found
    rw [same.byName,TransferRegistry.redeem] at found
    simp only at found
    split at found
    next =>
      obtain ⟨-,found⟩ := lookup_erase_some found
      exact .inl (expireOld_byName.mp found).1
    next => exact .inl (expireOld_byName.mp found).1
  · change registry.byName.lookup key = some holder ∨ _
    rw [same.byName,TransferRegistry.redeem]
    simp only
    rcases reservation_expires booked clean reserved with kept | ⟨other,held,way,at_key,late⟩
    · split
      next way =>
        rw [lookup_erase_eq]
        split
        next here =>
          have mine := booked.reserved token transfer present way
          rw [← here,reserved,Option.some.injEq] at mine
          exact .inr ⟨transfer,mine ▸ present,way,here.symm,.inr (.inl ⟨peer,by rw [mine],owner⟩)⟩
        next => exact .inl kept
      next => exact .inl kept
    · exact .inr ⟨other,held,way,at_key,.inl late⟩
  · change registry.inFlight.lookup key = some mark at found
    rw [same.inFlight,TransferRegistry.redeem] at found
    simp only at found
    split at found
    next way =>
      rw [lookup_insert_eq] at found
      split at found
      next here => exact .inr ⟨token,peer,transfer,rfl,present,way,here.symm⟩
      next => exact .inl (mark_before_sweep found)
    next => exact .inl (mark_before_sweep found)
  · change registry.inFlight.lookup key = some mark ∨ _
    rw [same.inFlight,TransferRegistry.redeem]
    simp only
    rcases mark_expires transfers.now found with kept | late
    · split
      next way =>
        rw [lookup_insert_eq]
        split
        next here =>
          have free := booked.exclusive _ _ (booked.reserved token transfer present way)
          rw [← here,found] at free
          cases free
        next => exact .inl kept
      next => exact .inl kept
    · exact .inr (.inl late)
  · change (if transfer.direction = .receive then
      transfers.guards.insert transfers.nextGuard ⟨transfer.key,transfer.file,transfers.now⟩
      else transfers.guards).lookup id = some guard at held
    split at held
    next way =>
      rcases lookup_insert_cases held with ⟨-,is⟩ | ⟨-,held⟩
      · exact .inr ⟨token,peer,transfer,rfl,present,way,by rw [← is.symm]⟩
      · exact .inl held
    next => exact .inl held

theorem uploadsOnly_step (kept : Kept transfers)
    (admitted : orderly transfers event = true) (taken : transfers.step event = some next) :
    UploadsOnly transfers event next := by
  rcases step_cases taken with ⟨token,transfer,rfl,_,rfl⟩ | ⟨token,peer,error,registry,rfl,outcome,rfl⟩ |
    ⟨token,peer,transfer,key,registry,rfl,outcome,rfl⟩ | ⟨share,stagingName,rfl,rfl⟩ |
    ⟨id,guard,rfl,held,rfl⟩ | ⟨elapsed,rfl,rfl⟩
  · exact uploadsOnly_insert kept.booked admitted
  · exact uploadsOnly_refused kept.booked admitted (claim_refused outcome)
  · obtain ⟨present,_,owner,_,same⟩ := claim_granted outcome
    exact uploadsOnly_granted kept.booked admitted present owner same
  · rcases abandon_cases share stagingName transfers.registry with outcome | ⟨token,reserved,outcome⟩ <;>
      rw [outcome]
    · exact ⟨fun _ _ => .inl,fun _ _ => .inl,fun _ _ => .inl,fun _ _ => .inl,fun _ _ => .inl⟩
    · refine ⟨fun key holder found => ?_,fun key holder found => ?_,fun _ _ => .inl,fun _ _ => .inl,
        fun _ _ => .inl⟩
      · obtain ⟨-,found⟩ := lookup_erase_some found
        exact .inl found
      · rw [lookup_erase_eq]
        split
        next here =>
          obtain ⟨transfer,present,way,same⟩ := kept.booked.held key holder found
          exact .inr ⟨transfer,present,way,same,.inr (.inr (by rw [here]))⟩
        next => exact .inl found
  · refine ⟨fun _ _ => .inl,fun _ _ => .inl,fun key mark found => ?_,fun key mark found => ?_,
      fun other entry found => ?_⟩
    · simp only [TransferRegistry.release,lookup_erase_eq] at found
      obtain ⟨-,found⟩ := of_unless found
      exact .inl found
    · simp only [TransferRegistry.release,lookup_erase_eq]
      split
      next here => exact .inr (.inr ⟨id,guard,rfl,held,here.symm⟩)
      next => exact .inl found
    · obtain ⟨-,found⟩ := lookup_erase_some found
      exact .inl found
  · exact ⟨fun _ _ => .inl,fun _ _ => .inl,fun _ _ => .inl,fun _ _ => .inl,fun _ _ => .inl⟩

private theorem uploading_busy {key : Key} (kept : Kept transfers)
    (uploading : Uploading transfers key) : transfers.registry.isBusy key.1 key.2 = true := by
  apply isBusy_iff.mpr
  rcases uploading with ⟨token,transfer,present,way,rfl,_⟩ | ⟨id,guard,held,rfl,young⟩
  · exact .inl ⟨token,kept.booked.reserved token transfer present way⟩
  · exact .inr ⟨_,kept.marked id guard held young⟩

private theorem uploading_occupied
    (kept : Kept transfers) (uploading : Uploading transfers transfer.key)
    (clean : transfers.registry.sweepsClean transfers.now = true) (way : transfer.direction = .receive) :
    (transfers.registry.insert transfers.now token transfer).1 = .error .occupied := by
  have busy : (transfers.registry.expireOld transfers.now).isBusy transfer.share transfer.stagingName = true := by
    apply isBusy_iff.mpr
    rcases uploading with ⟨holder,owner,present,receives,same,fresh⟩ | ⟨id,guard,held,same,young⟩
    · have swept : (transfers.registry.expireOld transfers.now).pending.lookup holder = some owner := by
        rw [expireOld_pending,present,Option.filter_some,fresh]
        rfl
      have reserved := (kept.booked.expireOld clean).reserved holder owner swept receives
      rw [same] at reserved
      exact .inl ⟨holder,reserved⟩
    · have mark := mark_after_sweep (kept.marked id guard held young) young
      rw [same] at mark
      exact .inr ⟨_,mark⟩
  simp [TransferRegistry.insert,way,busy]

/-- What the registry promises in a state: an uploading name is taken, steps keep
to their own bookkeeping, tokens are spent once and by their opener, a stranger's
claim is only a sweep, and the descriptor budget holds. -/
structure Safe (transfers : Transfers) : Prop where
  interlocked : ∀ key, Uploading transfers key → transfers.registry.isBusy key.1 key.2 = true ∧
    ∀ token transfer, orderly transfers (.insert token transfer) = true →
      transfer.direction = .receive → transfer.key = key →
      (transfers.registry.insert transfers.now token transfer).1 = .error .occupied
  neutral : ∀ event next, orderly transfers event = true → transfers.step event = some next →
    UploadsOnly transfers event next
  once : (transfers.redeemed.map Prod.fst).Nodup
  opener : ∀ entry ∈ transfers.redeemed, entry ∈ transfers.issued
  distinct : (transfers.issued.map Prod.fst).Nodup
  stranger : ∀ token transfer peer, transfers.registry.pending.lookup token = some transfer →
    transfer.openedBy.uid ≠ peer.uid →
    SameEntries (transfers.registry.claim transfers.now token peer).2
      (transfers.registry.expireOld transfers.now)
  bounded : transfers.registry.pendingCount ≤ MAX_PENDING_TRANSFERS

theorem Kept.safe (kept : Kept transfers) : Safe transfers where
  interlocked key uploading := by
    refine ⟨uploading_busy kept uploading,fun token transfer clean way same => ?_⟩
    exact uploading_occupied kept (same ▸ uploading) clean way
  neutral _ _ admitted taken := uploadsOnly_step kept admitted taken
  once := kept.ledger.once
  opener := kept.ledger.accounted
  distinct := kept.ledger.distinct
  stranger token transfer peer present other := by
    rcases claim_swept transfers.now token peer transfers.registry with ⟨_,_,same⟩ | ⟨owned,found,_,owner,_,_⟩
    · exact same
    · cases Option.some.inj (present.symm.trans found)
      exact absurd owner other
  bounded := kept.ledger.bounded

/-- The registry is safe after every run that steps orderly. -/
theorem transfer_registry_safe (now : Nat) (events : List Event) (transfers : Transfers)
    (met : Machine.Meets Transfers.step (fun state event => orderly state event = true) (.start now) events)
    (ran : Machine.run Transfers.step (.start now) events = some transfers) : Safe transfers :=
  (Machine.run_invariant Transfers.step Kept.step (Kept.start now) met ran).safe

section Runs

def api : PeerIdentity := ⟨999,999,1234⟩

def transferOf (direction : Direction) (stagingName : String) (openedAt : Nat) : PendingTransfer :=
  ⟨7,direction,"alice",stagingName,api,"c-1","upload",openedAt⟩

def uploadBesideDownloads : List Event := [
  .insert "up" (transferOf .receive "x.part" 0),.insert "down" (transferOf .send "rapor.txt" 0),
  .advance (seconds 200),.claim "up" api,.advance (seconds 200),
  .insert "next" (transferOf .send "x.part" (seconds 400)),.drop 0]

theorem transfer_registry_safe_upload : ∃ transfers,
    Machine.run Transfers.step (.start 0) uploadBesideDownloads = some transfers ∧ Safe transfers :=
  ⟨_,rfl,transfer_registry_safe 0 uploadBesideDownloads _ (by decide) rfl⟩

/-- A download of `x.part` in the share's root expires and takes the reservation
of the upload staged as `x.part` with it; and a guard that outlives
`CLAIMED_TTL` clears the mark of the upload that was let in after it. -/
theorem upload_loses_its_name :
    (∃ transfers, Machine.run Transfers.step (.start 0) [
        .insert "down" (transferOf .send "x.part" 0),.advance (seconds 200),
        .insert "up" (transferOf .receive "x.part" (seconds 200)),.advance (seconds 150),
        .insert "other" (transferOf .send "rapor.txt" (seconds 350))] = some transfers ∧
      transfers.registry.pending.lookup "up" = some (transferOf .receive "x.part" (seconds 200)) ∧
      (transferOf .receive "x.part" (seconds 200)).alive transfers.now = true ∧
      transfers.registry.isBusy "alice" "x.part" = false ∧
      (transfers.registry.insert transfers.now "second"
        (transferOf .receive "x.part" (seconds 350))).1 = .ok ()) ∧
    (∃ transfers, Machine.run Transfers.step (.start 0) [
        .insert "first" (transferOf .receive "x.part" 0),.claim "first" api,.advance (seconds 86401),
        .insert "later" (transferOf .receive "x.part" (seconds 86401)),.claim "later" api,
        .drop 0] = some transfers ∧
      transfers.guards.lookup 1 = some ⟨("alice","x.part"),7,seconds 86401⟩ ∧
      transfers.now = seconds 86401 ∧ transfers.registry.isBusy "alice" "x.part" = false) :=
  ⟨⟨_,rfl,by decide⟩,⟨_,rfl,by decide⟩⟩

end Runs

end Depsis.Agent

import Depsis.Foundation.Machine
import Depsis.Foundation.Table

/-! The registry that ties a one-time token to an already-resolved staging file
(`services/system-agent/src/transfer.rs`), with the data connections that hold
its guards and the clock its lifetimes are measured on. Every method reads the
clock once.
-/
namespace Depsis.Agent

open Depsis.Foundation AList

def seconds (count : Nat) : Nat := count * 1000000000

def TRANSFER_TTL : Nat := seconds 300
def CLAIMED_TTL : Nat := seconds (24 * 60 * 60)
def MAX_PENDING_TRANSFERS : Nat := 64

inductive Direction where
  | receive
  | send
  deriving DecidableEq

structure PeerIdentity where
  uid : Nat
  gid : Nat
  pid : Nat
  deriving DecidableEq

abbrev Key := String × String

structure PendingTransfer where
  file : Nat
  direction : Direction
  share : String
  stagingName : String
  openedBy : PeerIdentity
  correlationId : String
  reason : String
  openedAt : Nat
  deriving DecidableEq

def PendingTransfer.key (transfer : PendingTransfer) : Key := (transfer.share,transfer.stagingName)

/-- `opened_at.elapsed() <= TRANSFER_TTL`; `elapsed` saturates at zero. -/
def PendingTransfer.alive (now : Nat) (transfer : PendingTransfer) : Bool :=
  decide (now - transfer.openedAt ≤ TRANSFER_TTL)

structure InFlight where
  since : Nat

def InFlight.alive (now : Nat) (mark : InFlight) : Bool := decide (now - mark.since ≤ CLAIMED_TTL)

inductive ClaimError where
  | unknown
  | expired
  | notYours
  deriving DecidableEq

inductive Abandoned where
  | released
  | streaming
  | notKnown
  deriving DecidableEq

inductive InsertError where
  | occupied
  | full
  deriving DecidableEq

structure TransferRegistry where
  pending : Table String PendingTransfer
  byName : Table Key String
  inFlight : Table Key InFlight

namespace TransferRegistry

def new : TransferRegistry := ⟨∅,∅,∅⟩

def releaseNames (dead : List PendingTransfer) (byName : Table Key String) : Table Key String :=
  dead.foldl (fun names transfer => names.erase transfer.key) byName

def dead (now : Nat) (pending : Table String PendingTransfer) : List PendingTransfer :=
  (pending.rows.map Prod.snd).filter (fun transfer => !transfer.alive now)

def expireOld (now : Nat) (registry : TransferRegistry) : TransferRegistry where
  pending := registry.pending.retain (fun _ transfer => transfer.alive now)
  byName := releaseNames (dead now registry.pending) registry.byName
  inFlight := registry.inFlight.retain (fun _ mark => mark.alive now)

def isBusy (registry : TransferRegistry) (share stagingName : String) : Bool :=
  (registry.byName.lookup (share,stagingName)).isSome ||
    (registry.inFlight.lookup (share,stagingName)).isSome

def insert (now : Nat) (token : String) (transfer : PendingTransfer) (registry : TransferRegistry) :
    Except InsertError Unit × TransferRegistry :=
  let swept := registry.expireOld now
  let reserves := decide (transfer.direction = .receive)
  if reserves && swept.isBusy transfer.share transfer.stagingName then (.error .occupied,swept)
  else if MAX_PENDING_TRANSFERS ≤ swept.pending.size then (.error .full,swept)
  else (.ok (),{
    swept with
    byName := if reserves then swept.byName.insert transfer.key token else swept.byName
    pending := swept.pending.insert token transfer })

def claim (now : Nat) (token : String) (peer : PeerIdentity) (registry : TransferRegistry) :
    Except ClaimError (PendingTransfer × Key) × TransferRegistry :=
  let claimed := registry.pending.lookup token
  let swept := expireOld now { registry with pending := registry.pending.erase token }
  match claimed with
  | none => (.error .unknown,swept)
  | some transfer =>
    if !transfer.alive now then
      (.error .expired,{ swept with byName := swept.byName.erase transfer.key })
    else if transfer.openedBy.uid ≠ peer.uid then
      (.error .notYours,{ swept with pending := swept.pending.insert token transfer })
    else if transfer.direction = .receive then
      (.ok (transfer,transfer.key),{
        swept with
        byName := swept.byName.erase transfer.key
        inFlight := swept.inFlight.insert transfer.key ⟨now⟩ })
    else (.ok (transfer,transfer.key),swept)

def abandon (share stagingName : String) (registry : TransferRegistry) : Abandoned × TransferRegistry :=
  let key := (share,stagingName)
  if (registry.inFlight.lookup key).isSome then (.streaming,registry)
  else match registry.byName.lookup key with
    | some token => (.released,{
        registry with
        byName := registry.byName.erase key
        pending := registry.pending.erase token })
    | none => (.notKnown,registry)

def pendingCount (registry : TransferRegistry) : Nat := registry.pending.size

def release (key : Key) (registry : TransferRegistry) : TransferRegistry :=
  { registry with inFlight := registry.inFlight.erase key }

private theorem lookup_releaseNames (dead : List PendingTransfer) (byName : Table Key String) (key : Key) :
    (releaseNames dead byName).lookup key =
      if ∃ transfer ∈ dead, transfer.key = key then none else byName.lookup key := by
  induction dead generalizing byName with
  | nil => simp [releaseNames]
  | cons transfer rest ih =>
    change (releaseNames rest (byName.erase transfer.key)).lookup key = _
    rw [ih,lookup_erase_eq]
    by_cases later : ∃ other ∈ rest, other.key = key
    · rw [if_pos later,if_pos (by obtain ⟨other,member,same⟩ := later; exact ⟨other,by simp [member],same⟩)]
    · rw [if_neg later]
      by_cases here : key = transfer.key
      · rw [if_pos here,if_pos ⟨transfer,by simp,here.symm⟩]
      · rw [if_neg here,if_neg]
        rintro ⟨other,member,same⟩
        rcases List.mem_cons.mp member with head | tail
        · exact here (head ▸ same.symm)
        · exact later ⟨other,tail,same⟩

private theorem mem_dead {now : Nat} {pending : Table String PendingTransfer} {transfer : PendingTransfer} :
    transfer ∈ dead now pending ↔
      ∃ token, pending.lookup token = some transfer ∧ transfer.alive now = false := by
  simp only [dead,List.mem_filter,List.mem_map,Prod.exists,exists_eq_right,mem_rows,
    Bool.not_eq_true']
  constructor
  · rintro ⟨⟨token,found⟩,late⟩
    exact ⟨token,found,late⟩
  · rintro ⟨token,found,late⟩
    exact ⟨⟨token,found⟩,late⟩

theorem expireOld_pending (now : Nat) (registry : TransferRegistry) (token : String) :
    (registry.expireOld now).pending.lookup token =
      (registry.pending.lookup token).filter (fun transfer => transfer.alive now) :=
  lookup_retain _ _ _

theorem expireOld_inFlight (now : Nat) (registry : TransferRegistry) (key : Key) :
    (registry.expireOld now).inFlight.lookup key =
      (registry.inFlight.lookup key).filter (fun mark => mark.alive now) :=
  lookup_retain _ _ _

variable {registry : TransferRegistry}

theorem expireOld_byName {now : Nat} {key : Key} {token : String} :
    (registry.expireOld now).byName.lookup key = some token ↔
      registry.byName.lookup key = some token ∧
        ∀ other transfer, registry.pending.lookup other = some transfer → transfer.key = key →
          transfer.alive now = true := by
  simp only [expireOld,lookup_releaseNames]
  split
  next gone =>
    obtain ⟨transfer,member,same⟩ := gone
    obtain ⟨other,found,late⟩ := mem_dead.mp member
    refine ⟨fun impossible => (nomatch impossible),fun ⟨_,kept⟩ => ?_⟩
    rw [kept other transfer found same] at late
    cases late
  next kept =>
    refine ⟨fun reserved => ⟨reserved,fun other transfer found same => ?_⟩,fun ⟨reserved,_⟩ => reserved⟩
    by_contra late
    exact kept ⟨transfer,mem_dead.mpr ⟨other,found,by simpa using late⟩,same⟩

theorem expireOld_size (now : Nat) (registry : TransferRegistry) :
    (registry.expireOld now).pending.size ≤ registry.pending.size :=
  size_retain_le _ _

theorem isBusy_iff {share stagingName : String} :
    registry.isBusy share stagingName = true ↔
      (∃ token, registry.byName.lookup (share,stagingName) = some token) ∨
      (∃ mark, registry.inFlight.lookup (share,stagingName) = some mark) := by
  simp [isBusy,Option.isSome_iff_exists]

theorem insert_cases (now : Nat) (token : String) (transfer : PendingTransfer) (registry : TransferRegistry) :
    (registry.insert now token transfer = (.error .occupied,registry.expireOld now) ∧
      transfer.direction = .receive ∧
      (registry.expireOld now).isBusy transfer.share transfer.stagingName = true) ∨
    (registry.insert now token transfer = (.error .full,registry.expireOld now)) ∨
    ((registry.insert now token transfer).1 = .ok () ∧
      (registry.expireOld now).pending.size < MAX_PENDING_TRANSFERS ∧
      ((transfer.direction = .receive ∧
        (registry.expireOld now).isBusy transfer.share transfer.stagingName = false ∧
        (registry.insert now token transfer).2 = {
          registry.expireOld now with
          byName := (registry.expireOld now).byName.insert transfer.key token
          pending := (registry.expireOld now).pending.insert token transfer }) ∨
       (transfer.direction = .send ∧
        (registry.insert now token transfer).2 = {
          registry.expireOld now with
          pending := (registry.expireOld now).pending.insert token transfer }))) := by
  unfold insert
  cases way : transfer.direction <;>
    by_cases full : MAX_PENDING_TRANSFERS ≤ (registry.expireOld now).pending.size <;>
    cases busy : (registry.expireOld now).isBusy transfer.share transfer.stagingName <;>
    simp [full,busy,Nat.lt_of_not_le]

/-- Everything `claim` can do; `swept` is the registry after the token is taken
out and the old entries are dropped. -/
theorem claim_cases (now : Nat) (token : String) (peer : PeerIdentity) (registry : TransferRegistry) :
    let swept := expireOld now { registry with pending := registry.pending.erase token }
    (registry.pending.lookup token = none ∧ registry.claim now token peer = (.error .unknown,swept)) ∨
    ∃ transfer, registry.pending.lookup token = some transfer ∧
      ((transfer.alive now = false ∧ registry.claim now token peer =
          (.error .expired,{ swept with byName := swept.byName.erase transfer.key })) ∨
       (transfer.alive now = true ∧ transfer.openedBy.uid ≠ peer.uid ∧ registry.claim now token peer =
          (.error .notYours,{ swept with pending := swept.pending.insert token transfer })) ∨
       (transfer.alive now = true ∧ transfer.openedBy.uid = peer.uid ∧ transfer.direction = .receive ∧
        registry.claim now token peer = (.ok (transfer,transfer.key),{
          swept with
          byName := swept.byName.erase transfer.key
          inFlight := swept.inFlight.insert transfer.key ⟨now⟩ })) ∨
       (transfer.alive now = true ∧ transfer.openedBy.uid = peer.uid ∧ transfer.direction = .send ∧
        registry.claim now token peer = (.ok (transfer,transfer.key),swept))) := by
  intro swept
  unfold claim
  cases found : registry.pending.lookup token with
  | none => exact .inl ⟨rfl,rfl⟩
  | some transfer =>
    refine .inr ⟨transfer,rfl,?_⟩
    cases fresh : transfer.alive now with
    | false => exact .inl ⟨rfl,by simp [fresh,swept]⟩
    | true =>
      by_cases owner : transfer.openedBy.uid = peer.uid
      · cases way : transfer.direction <;> simp [fresh,owner,way,swept]
      · exact .inr (.inl ⟨rfl,owner,by simp [fresh,owner,swept]⟩)

theorem abandon_cases (share stagingName : String) (registry : TransferRegistry) :
    (registry.abandon share stagingName).2 = registry ∨
    ∃ token, registry.byName.lookup (share,stagingName) = some token ∧
      (registry.abandon share stagingName).2 = {
        registry with
        byName := registry.byName.erase (share,stagingName)
        pending := registry.pending.erase token } := by
  simp only [abandon]
  by_cases streaming : (registry.inFlight.lookup (share,stagingName)).isSome = true
  · exact .inl (by rw [if_pos streaming])
  · rw [if_neg streaming]
    cases registry.byName.lookup (share,stagingName) with
    | none => exact .inl rfl
    | some token => exact .inr ⟨token,rfl,rfl⟩

structure SameEntries (first second : TransferRegistry) : Prop where
  pending : ∀ token, first.pending.lookup token = second.pending.lookup token
  byName : ∀ key, first.byName.lookup key = second.byName.lookup key
  inFlight : ∀ key, first.inFlight.lookup key = second.inFlight.lookup key

def redeem (now : Nat) (token : String) (transfer : PendingTransfer) (registry : TransferRegistry) :
    TransferRegistry where
  pending := registry.pending.erase token
  byName := if transfer.direction = .receive then registry.byName.erase transfer.key else registry.byName
  inFlight :=
    if transfer.direction = .receive then registry.inFlight.insert transfer.key ⟨now⟩
    else registry.inFlight

section ClaimOrder

variable {now : Nat} {token : String} {registry : TransferRegistry}

private theorem erase_first_pending (other : String) :
    (expireOld now { registry with pending := registry.pending.erase token }).pending.lookup other =
      ((registry.expireOld now).pending.erase token).lookup other := by
  rw [expireOld_pending,lookup_erase_eq,lookup_erase_eq,expireOld_pending]
  split <;> rfl

private theorem erase_first_byName (key : Key) (harmless : ∀ transfer,
    registry.pending.lookup token = some transfer → transfer.key = key → transfer.alive now = true) :
    (expireOld now { registry with pending := registry.pending.erase token }).byName.lookup key =
      (registry.expireOld now).byName.lookup key := by
  apply Option.ext
  intro holder
  rw [expireOld_byName,expireOld_byName]
  refine and_congr_right (fun _ => ⟨fun kept other transfer found same => ?_,
    fun kept other transfer found same => ?_⟩)
  · by_cases taken : other = token
    · exact harmless transfer (taken ▸ found) same
    · exact kept other transfer ((lookup_erase_ne taken).trans found) same
  · by_cases taken : other = token
    · subst taken
      rw [lookup_erase] at found
      cases found
    · exact kept other transfer ((lookup_erase_ne taken).symm.trans found) same

end ClaimOrder

/-- Taking the token out before the sweep changes nothing but the answer: a
claim is the sweep, followed on success by `redeem`. -/
theorem claim_swept (now : Nat) (token : String) (peer : PeerIdentity) (registry : TransferRegistry) :
    (∃ error, (registry.claim now token peer).1 = .error error ∧
      SameEntries (registry.claim now token peer).2 (registry.expireOld now)) ∨
    ∃ transfer, registry.pending.lookup token = some transfer ∧ transfer.alive now = true ∧
      transfer.openedBy.uid = peer.uid ∧
      (registry.claim now token peer).1 = .ok (transfer,transfer.key) ∧
      SameEntries (registry.claim now token peer).2 ((registry.expireOld now).redeem now token transfer) := by
  rcases claim_cases now token peer registry with ⟨absent,outcome⟩ |
    ⟨transfer,found,⟨late,outcome⟩ | ⟨fresh,_,outcome⟩ | ⟨fresh,owner,way,outcome⟩ | ⟨fresh,owner,way,outcome⟩⟩ <;>
    rw [outcome]
  · refine .inl ⟨_,rfl,⟨fun other => ?_,fun key => erase_first_byName key (by simp [absent]),fun _ => rfl⟩⟩
    rw [erase_first_pending,lookup_erase_eq]
    split
    next same => rw [same,expireOld_pending,absent]; rfl
    next => rfl
  · refine .inl ⟨_,rfl,⟨fun other => ?_,fun key => ?_,fun _ => rfl⟩⟩
    · change (expireOld now { registry with pending := registry.pending.erase token }).pending.lookup other = _
      rw [erase_first_pending,lookup_erase_eq]
      split
      next same => rw [same,expireOld_pending,found,Option.filter_some,late]; rfl
      next => rfl
    · rw [lookup_erase_eq]
      split
      next same =>
        cases reserved : (registry.expireOld now).byName.lookup key with
        | none => rfl
        | some holder =>
          have alive := (expireOld_byName.mp reserved).2 token transfer found same.symm
          rw [late] at alive
          cases alive
      next different =>
        apply erase_first_byName
        intro other present same
        cases Option.some.inj (found.symm.trans present)
        exact absurd same.symm different
  · refine .inl ⟨_,rfl,⟨fun other => ?_,fun key => ?_,fun _ => rfl⟩⟩
    · rw [lookup_insert_eq,erase_first_pending,lookup_erase_eq]
      split
      next same => rw [same,expireOld_pending,found,Option.filter_some,fresh]; rfl
      next => rfl
    · apply erase_first_byName
      intro other present _
      cases Option.some.inj (found.symm.trans present)
      exact fresh
  all_goals
    have harmless : ∀ key other, registry.pending.lookup token = some other → other.key = key →
        other.alive now = true := by
      intro key other present _
      cases Option.some.inj (found.symm.trans present)
      exact fresh
    refine .inr ⟨transfer,found,fresh,owner,rfl,⟨fun other => erase_first_pending other,fun key => ?_,fun key => ?_⟩⟩
  · simp only [redeem,if_pos way,lookup_erase_eq,erase_first_byName key (harmless key)]
  · simp only [redeem,if_pos way]
    rfl
  · simp only [redeem,way,reduceCtorEq,if_false,erase_first_byName key (harmless key)]
  · simp only [redeem,way,reduceCtorEq,if_false]
    rfl

theorem insert_pending {now : Nat} {token other : String} {transfer entry : PendingTransfer}
   
    (found : (registry.insert now token transfer).2.pending.lookup other = some entry) :
    registry.pending.lookup other = some entry ∨ (other = token ∧ entry = transfer) := by
  have swept : (registry.expireOld now).pending.lookup other = some entry →
      registry.pending.lookup other = some entry := by
    rw [expireOld_pending,Option.filter_eq_some_iff]
    exact And.left
  rcases insert_cases now token transfer registry with ⟨outcome,_,_⟩ | outcome |
    ⟨_,_,⟨_,_,outcome⟩ | ⟨_,outcome⟩⟩ <;> rw [outcome] at found
  · exact .inl (swept found)
  · exact .inl (swept found)
  all_goals
    rcases lookup_insert_cases found with ⟨same,is⟩ | ⟨-,found⟩
    · exact .inr ⟨same,is⟩
    · exact .inl (swept found)

theorem insert_size {now : Nat} {token : String} {transfer : PendingTransfer}
    (bound : registry.pending.size ≤ MAX_PENDING_TRANSFERS) :
    (registry.insert now token transfer).2.pending.size ≤ MAX_PENDING_TRANSFERS := by
  have swept := expireOld_size now registry
  have added := size_insert_le (registry.expireOld now).pending token transfer
  have erased := size_erase_le (registry.expireOld now).pending token
  rcases insert_cases now token transfer registry with ⟨outcome,_,_⟩ | outcome |
    ⟨_,room,⟨_,_,outcome⟩ | ⟨_,outcome⟩⟩ <;> rw [outcome]
  · exact Nat.le_trans swept bound
  · exact Nat.le_trans swept bound
  · simp only; omega
  · simp only; omega

theorem insert_inFlight (now : Nat) (token : String) (transfer : PendingTransfer)
    (registry : TransferRegistry) :
    (registry.insert now token transfer).2.inFlight = (registry.expireOld now).inFlight := by
  rcases insert_cases now token transfer registry with ⟨outcome,_,_⟩ | outcome |
    ⟨_,_,⟨_,_,outcome⟩ | ⟨_,outcome⟩⟩ <;> rw [outcome]

theorem claim_size (now : Nat) (token : String) (peer : PeerIdentity) (registry : TransferRegistry) :
    (registry.claim now token peer).2.pending.size ≤ registry.pending.size := by
  have swept := expireOld_size now { registry with pending := registry.pending.erase token }
  have erased := size_erase_le registry.pending token
  simp only at swept
  rcases claim_cases now token peer registry with ⟨_,outcome⟩ |
    ⟨transfer,found,⟨_,outcome⟩ | ⟨_,_,outcome⟩ | ⟨_,_,_,outcome⟩ | ⟨_,_,_,outcome⟩⟩ <;>
    rw [outcome] <;> simp only
  · omega
  · omega
  · have back := size_insert_le
      (expireOld now { registry with pending := registry.pending.erase token }).pending token transfer
    have again := size_erase_le
      (expireOld now { registry with pending := registry.pending.erase token }).pending token
    have counted := size_erase_of_lookup found
    omega
  · omega
  · omega

end TransferRegistry

end Depsis.Agent

import Depsis.Agent.TransferSafety

/-! The agent's three loops over one staging area: the control thread opens,
publishes and discards, data threads append, and the sweeper (`sweep.rs`) lists
stale files, asks the registry about each and unlinks. Every lock acquisition and
every file-system call is one turn.
-/
namespace Depsis.Agent

open Depsis.Foundation TransferRegistry AList

inductive Control where
  | idle
  | opened (key : Key) (file : Nat)
  | publishing (key : Key)
  | discarding (key : Key)
  deriving DecidableEq

/-- `checked`: the registry answered that the name is not busy and the lock is
released; `remove_file` is next. -/
inductive Sweeper where
  | walking (share : String) (names : List String)
  | checked (share name : String) (names : List String)

/-- `staging` links names to inodes, `modified` holds the inodes' mtimes. -/
structure SystemAgent where
  transfers : Transfers
  staging : Table Key Nat
  modified : Table Nat Nat
  nextInode : Nat
  maxAge : Nat
  control : Control
  sweeper : Sweeper

inductive Turn where
  | openTransfer (share stagingName : String)
  | register (token : String) (peer : PeerIdentity) (correlationId reason : String)
  | openDownload (token : String) (transfer : PendingTransfer)
  | publishCheck (share stagingName : String)
  | publishRename
  | discardAbandon (share stagingName : String)
  | discardUnlink
  | giveUp
  | claim (token : String) (peer : PeerIdentity)
  | append (guard : Nat)
  | drop (guard : Nat)
  | list (share : String)
  | check
  | unlink (removed : Bool)
  | advance (elapsed : Nat)

namespace SystemAgent

def listStaleFiles (agent : SystemAgent) (share : String) : List String :=
  (agent.staging.rows.filter (fun row => row.1.1 = share &&
    decide (agent.maxAge < agent.transfers.now - (agent.modified.lookup row.2).getD agent.transfers.now))).map
    (fun row => row.1.2)

def withTransfers (agent : SystemAgent) (event : Event) : Option SystemAgent :=
  (agent.transfers.step event).map (fun transfers => { agent with transfers := transfers })

def turn (agent : SystemAgent) : Turn → Option SystemAgent
  -- `open_transfer`: `OpenIntent::Append` creates a missing file and continues an existing one
  | .openTransfer share stagingName =>
    if agent.control = .idle then
      match agent.staging.lookup (share,stagingName) with
      | some file => some { agent with control := .opened (share,stagingName) file }
      | none => some { agent with
          staging := agent.staging.insert (share,stagingName) agent.nextInode
          modified := agent.modified.insert agent.nextInode agent.transfers.now
          nextInode := agent.nextInode + 1
          control := .opened (share,stagingName) agent.nextInode }
    else none
  | .register token peer correlationId reason =>
    match agent.control with
    | .opened key file =>
      (agent.withTransfers (.insert token
        ⟨file,.receive,key.1,key.2,peer,correlationId,reason,agent.transfers.now⟩)).map
        (fun next => { next with control := .idle })
    | _ => none
  | .openDownload token transfer =>
    if agent.control = .idle ∧ transfer.direction = .send then agent.withTransfers (.insert token transfer)
    else none
  | .publishCheck share stagingName =>
    if agent.control = .idle then
      if agent.transfers.registry.isBusy share stagingName then some agent
      else some { agent with control := .publishing (share,stagingName) }
    else none
  | .publishRename =>
    match agent.control with
    | .publishing key => some { agent with staging := agent.staging.erase key, control := .idle }
    | _ => none
  | .discardAbandon share stagingName =>
    if agent.control = .idle then
      (agent.withTransfers (.abandon share stagingName)).map (fun next =>
        if (agent.transfers.registry.abandon share stagingName).1 = .streaming then next
        else { next with control := .discarding (share,stagingName) })
    else none
  | .discardUnlink =>
    match agent.control with
    | .discarding key => some { agent with staging := agent.staging.erase key, control := .idle }
    | _ => none
  -- any refusal or error the control thread answers between two of its steps
  | .giveUp => some { agent with control := .idle }
  | .claim token peer => agent.withTransfers (.claim token peer)
  | .append guard =>
    (agent.transfers.guards.lookup guard).map (fun held =>
      { agent with modified := agent.modified.insert held.file agent.transfers.now })
  | .drop guard => agent.withTransfers (.drop guard)
  | .list share =>
    match agent.sweeper with
    | .walking _ [] => some { agent with sweeper := .walking share (agent.listStaleFiles share) }
    | _ => none
  | .check =>
    match agent.sweeper with
    | .walking share (name::names) =>
      if agent.transfers.registry.isBusy share name then some { agent with sweeper := .walking share names }
      else some { agent with sweeper := .checked share name names }
    | _ => none
  -- `remove_file` may also fail and leave the file
  | .unlink removed =>
    match agent.sweeper with
    | .checked share name names => some { agent with
        staging := if removed then agent.staging.erase (share,name) else agent.staging
        sweeper := .walking share names }
    | _ => none
  | .advance elapsed => agent.withTransfers (.advance elapsed)

def start (now maxAge nextInode : Nat) (staging : Table Key Nat) (modified : Table Nat Nat) : SystemAgent :=
  ⟨.start now,staging,modified,nextInode,maxAge,.idle,.walking "" []⟩

end SystemAgent

def InUse (transfers : Transfers) (key : Key) (file : Nat) : Prop :=
  (∃ token transfer, transfers.registry.pending.lookup token = some transfer ∧
    transfer.direction = .receive ∧ transfer.key = key ∧ transfer.file = file) ∨
  (∃ id guard, transfers.guards.lookup id = some guard ∧ guard.key = key ∧ guard.file = file)

/-- A registry sweep finds no expired download under a live reservation, and no
guard past `CLAIMED_TTL`. -/
def tidy (transfers : Transfers) : Bool :=
  transfers.registry.sweepsClean transfers.now &&
    transfers.guards.all (fun _ guard => decide (transfers.now - guard.since ≤ CLAIMED_TTL))

/-- The turns on which the sweeper's window and the control thread's do not
overlap on one name, and the registry sweeps tidily. -/
def undisturbed (agent : SystemAgent) : Turn → Bool
  | .openTransfer share stagingName =>
    match agent.sweeper with
    | .checked other name _ => decide ((other,name) ≠ (share,stagingName))
    | .walking _ _ => true
  | .check =>
    match agent.sweeper,agent.control with
    | .walking share (name::_),.opened key _ => agent.transfers.registry.isBusy share name ||
        decide (key ≠ (share,name))
    | _,_ => true
  | .register _ _ _ _ | .openDownload _ _ | .claim _ _ => tidy agent.transfers
  | _ => true

variable {event : Event} {transfers : Transfers}

theorem tidy_iff : tidy transfers = true ↔
    transfers.registry.sweepsClean transfers.now = true ∧
    ∀ id guard, transfers.guards.lookup id = some guard → transfers.now - guard.since ≤ CLAIMED_TTL := by
  simp [tidy,all_iff]

structure Streams (transfers : Transfers) : Prop where
  marked : ∀ id guard, transfers.guards.lookup id = some guard →
    transfers.registry.inFlight.lookup guard.key = some ⟨guard.since⟩
  sole : ∀ id other first second, transfers.guards.lookup id = some first →
    transfers.guards.lookup other = some second → first.key = second.key → id = other

private theorem orderly_of_tidy (streams : Streams transfers)
    (admitted : event.sweeps = true → tidy transfers = true) : orderly transfers event = true := by
  cases event with
  | insert token transfer | claim token peer => exact (tidy_iff.mp (admitted rfl)).1
  | abandon share stagingName => rfl
  | advance elapsed => rfl
  | drop gone =>
    simp only [orderly,all_iff]
    intro id guard held
    cases present : transfers.guards.lookup gone with
    | none => simp
    | some dropped =>
      by_cases same : dropped.key = guard.key
      · simp [streams.sole gone id dropped guard present held same]
      · simp [same]

theorem Streams.step {next : Transfers} (booked : Booked transfers.registry)
    (admitted : event.sweeps = true → tidy transfers = true) (taken : transfers.step event = some next)
    (streams : Streams transfers) : Streams next := by
  have older {id guard} (before : transfers.guards.lookup id = some guard)
      (held : next.guards.lookup id = some guard) :
      next.registry.inFlight.lookup guard.key = some ⟨guard.since⟩ := by
    refine mark_step booked taken before held (fun sweeps => ?_) ?_ (streams.marked id guard before)
    · exact (tidy_iff.mp (admitted sweeps)).2 id guard before
    · intro other dropped _ present different same
      exact different (streams.sole other id dropped guard present before same)
  -- a claimed name had no mark, so no older guard shares the new guard's key
  have apart {token : String} {transfer id} {guard : Guard}
      (present : transfers.registry.pending.lookup token = some transfer) (way : transfer.direction = .receive)
      (held : transfers.guards.lookup id = some guard) : guard.key ≠ transfer.key := by
    intro same
    have free := booked.exclusive _ _ (booked.reserved token transfer present way)
    rw [← same,streams.marked id guard held] at free
    cases free
  refine ⟨fun id guard held => ?_,fun id other first second heldFirst heldSecond same => ?_⟩
  · rcases guard_step taken held with before | ⟨_,_,_,_,_,_,_,_,mark⟩
    · exact older before held
    · exact mark
  · rcases guard_step taken heldFirst with before | ⟨_,_,_,_,newest,present,way,rfl,_⟩ <;>
      rcases guard_step taken heldSecond with earlier | ⟨_,_,_,_,newest',present',way',rfl,_⟩
    · exact streams.sole id other first second before earlier same
    · exact absurd same (apart present' way' before)
    · exact absurd same.symm (apart present way earlier)
    · rw [newest,newest']

theorem inUse_step {next : Transfers} {key : Key} {file : Nat}
    (taken : transfers.step event = some next) (used : InUse next key file) :
    InUse transfers key file ∨ ∃ token transfer, event = .insert token transfer ∧
      transfer.direction = .receive ∧ transfer.key = key ∧ transfer.file = file := by
  rcases used with ⟨token,transfer,present,way,same,wrote⟩ | ⟨id,guard,held,same,wrote⟩
  · rcases pending_step taken present with before | inserted
    · exact .inl (.inl ⟨token,transfer,before,way,same,wrote⟩)
    · exact .inr ⟨token,transfer,inserted,way,same,wrote⟩
  · rcases guard_step taken held with before | ⟨token,_,transfer,_,_,present,way,rfl,_⟩
    · exact .inl (.inr ⟨id,guard,before,same,wrote⟩)
    · exact .inl (.inl ⟨token,transfer,present,way,same,wrote⟩)

theorem inUse_busy {key : Key} {file : Nat} (booked : Booked transfers.registry)
    (streams : Streams transfers) (used : InUse transfers key file) :
    transfers.registry.isBusy key.1 key.2 = true := by
  apply isBusy_iff.mpr
  rcases used with ⟨token,transfer,present,way,rfl,_⟩ | ⟨id,guard,held,rfl,_⟩
  · exact .inl ⟨token,booked.reserved token transfer present way⟩
  · exact .inr ⟨_,streams.marked id guard held⟩

private theorem abandoned_unused {next : Transfers} {share stagingName : String} {file : Nat}
    (booked : Booked transfers.registry) (streams : Streams transfers)
    (taken : transfers.step (.abandon share stagingName) = some next)
    (stopped : (transfers.registry.abandon share stagingName).1 ≠ .streaming) :
    ¬ InUse next (share,stagingName) file := by
  have mine : next.registry = (transfers.registry.abandon share stagingName).2 := by
    rw [← Option.some.inj taken]
  have still : next.guards = transfers.guards := by
    rw [← Option.some.inj taken]
  have quiet : transfers.registry.inFlight.lookup (share,stagingName) = none := by
    cases mark : transfers.registry.inFlight.lookup (share,stagingName) with
    | none => rfl
    | some _ => exact absurd (by simp [abandon,mark]) stopped
  rintro (⟨token,transfer,present,way,same,_⟩ | ⟨id,guard,held,same,_⟩)
  · have reserved := (booked.abandon share stagingName).reserved token transfer (mine ▸ present) way
    rw [same] at reserved
    cases before : transfers.registry.byName.lookup (share,stagingName) with
    | none | some holder => simp [abandon,quiet,before] at reserved
  · have mark := streams.marked id guard (still ▸ held)
    rw [same,quiet] at mark
    cases mark

structure Tended (agent : SystemAgent) : Prop where
  booked : Booked agent.transfers.registry
  ledger : Ledger agent.transfers
  streams : Streams agent.transfers
  linked : ∀ key file, InUse agent.transfers key file → agent.staging.lookup key = some file
  opened : ∀ key file, agent.control = .opened key file → agent.staging.lookup key = some file
  leaving : ∀ key, agent.control = .publishing key ∨ agent.control = .discarding key →
    ∀ file, ¬ InUse agent.transfers key file
  condemned : ∀ share name names, agent.sweeper = .checked share name names →
    (∀ file, ¬ InUse agent.transfers (share,name) file) ∧ ∀ file, agent.control ≠ .opened (share,name) file

namespace Tended

variable {agent : SystemAgent}

theorem start (now maxAge nextInode : Nat) (staging : Table Key Nat) (modified : Table Nat Nat) :
    Tended (.start now maxAge nextInode staging modified) := by
  have kept := Kept.start now
  refine ⟨kept.booked,kept.ledger,⟨nofun,nofun⟩,
    ?_,nofun,?_,nofun⟩
  · rintro key file (⟨_,_,present,_⟩ | ⟨_,_,held,_⟩)
    · cases present
    · cases held
  · rintro key (turn | turn) <;> cases turn

private theorem registry {next : Transfers} (control : Control)
    (tended : Tended agent) (admitted : event.sweeps = true → tidy agent.transfers = true)
    (taken : agent.transfers.step event = some next)
    (inserts : ∀ token transfer, event = .insert token transfer → transfer.direction = .receive →
      agent.control = .opened transfer.key transfer.file)
    (leaving : ∀ key, control = .publishing key ∨ control = .discarding key →
      ∀ file, ¬ InUse next key file)
    (closed : ∀ key file, control = .opened key file → agent.control = .opened key file) :
    Tended { agent with transfers := next, control := control } where
  booked := tended.booked.step tended.ledger (orderly_of_tidy tended.streams admitted) taken
  ledger := tended.ledger.step taken
  streams := tended.streams.step tended.booked admitted taken
  linked key file used := by
    rcases inUse_step taken used with before | ⟨token,transfer,inserted,way,rfl,rfl⟩
    · exact tended.linked key file before
    · exact tended.opened _ _ (inserts token transfer inserted way)
  opened key file turn := tended.opened key file (closed key file turn)
  leaving := leaving
  condemned share name names turn := by
    obtain ⟨unused,away⟩ := tended.condemned share name names turn
    refine ⟨fun file used => ?_,fun file here => away file (closed _ _ here)⟩
    rcases inUse_step taken used with before | ⟨token,transfer,inserted,way,same,_⟩
    · exact unused file before
    · exact away transfer.file (same ▸ inserts token transfer inserted way)

private theorem removed {key : Key} (tended : Tended agent) (unused : ∀ file, ¬ InUse agent.transfers key file)
    (sweeper : Sweeper) (control : Control) (released : control = .idle ∨ control = agent.control)
    (closed : ∀ file, control ≠ .opened key file)
    (resting : ∀ share name names, sweeper = .checked share name names →
      agent.sweeper = .checked share name names) :
    Tended { agent with staging := agent.staging.erase key, control := control, sweeper := sweeper } where
  booked := tended.booked
  ledger := tended.ledger
  streams := tended.streams
  linked other file used := by
    change (agent.staging.erase key).lookup other = some file
    rw [lookup_erase_eq,if_neg]
    · exact tended.linked other file used
    · rintro rfl
      exact unused file used
  opened other file turn := by
    change control = _ at turn
    change (agent.staging.erase key).lookup other = some file
    rw [lookup_erase_eq,if_neg]
    · rcases released with idle | same
      · rw [idle] at turn; cases turn
      · exact tended.opened other file (same ▸ turn)
    · rintro rfl
      exact closed file turn
  leaving other turn := by
    change control = _ ∨ control = _ at turn
    rcases released with idle | same
    · rcases turn with turn | turn <;> rw [idle] at turn <;> cases turn
    · exact tended.leaving other (same ▸ turn)
  condemned share name names turn := by
    obtain ⟨free,away⟩ := tended.condemned share name names (resting share name names turn)
    refine ⟨free,fun file here => ?_⟩
    change control = _ at here
    rcases released with idle | same
    · rw [idle] at here; cases here
    · exact away file (same ▸ here)

private theorem withTransfers_some {next : SystemAgent}
    (taken : agent.withTransfers event = some next) :
    ∃ transfers, agent.transfers.step event = some transfers ∧ next = { agent with transfers := transfers } := by
  obtain ⟨transfers,stepped,same⟩ := Option.map_eq_some_iff.mp taken
  exact ⟨transfers,stepped,same.symm⟩

private theorem passes {next : SystemAgent} (tended : Tended agent)
    (admitted : event.sweeps = true → tidy agent.transfers = true)
    (taken : agent.withTransfers event = some next)
    (inserts : ∀ token transfer, event = .insert token transfer → transfer.direction ≠ .receive) :
    Tended next := by
  obtain ⟨transfers,stepped,rfl⟩ := withTransfers_some taken
  refine tended.registry agent.control admitted stepped
    (fun token transfer inserted way => absurd way (inserts token transfer inserted)) ?_ (fun _ _ => id)
  intro key turn file used
  rcases inUse_step stepped used with before | ⟨token,transfer,inserted,way,_⟩
  · exact tended.leaving key turn file before
  · exact inserts token transfer inserted way

private theorem idles (tended : Tended agent) : Tended { agent with control := .idle } where
  booked := tended.booked
  ledger := tended.ledger
  streams := tended.streams
  linked := tended.linked
  opened _ _ turn := nomatch turn
  leaving _ turn := by rcases turn with turn | turn <;> cases turn
  condemned share name names turn :=
    ⟨(tended.condemned share name names turn).1,nofun⟩

private theorem takes {key : Key} {file : Nat} (tended : Tended agent)
    (found : agent.staging.lookup key = some file)
    (admitted : ∀ share name names, agent.sweeper = .checked share name names → (share,name) ≠ key) :
    Tended { agent with control := .opened key file } where
  booked := tended.booked
  ledger := tended.ledger
  streams := tended.streams
  linked := tended.linked
  opened other _ turn := by
    cases turn
    exact found
  leaving _ turn := by rcases turn with turn | turn <;> cases turn
  condemned share name names turn := by
    refine ⟨(tended.condemned share name names turn).1,fun other here => ?_⟩
    cases here
    exact admitted share name names turn rfl

private theorem creates {key : Key} (tended : Tended agent) (missing : agent.staging.lookup key = none)
    (modified : Table Nat Nat) (nextInode file : Nat) :
    Tended { agent with
      staging := agent.staging.insert key file, modified := modified, nextInode := nextInode } := by
  have keeps {other : Key} {linked : Nat} (found : agent.staging.lookup other = some linked) :
      (agent.staging.insert key file).lookup other = some linked := by
    refine (lookup_insert_ne ?_).trans found
    rintro rfl
    rw [missing] at found
    cases found
  exact ⟨tended.booked,tended.ledger,tended.streams,fun other linked used => keeps (tended.linked other linked used),
    fun other linked turn => keeps (tended.opened other linked turn),tended.leaving,tended.condemned⟩

private theorem walks (tended : Tended agent) (share : String) (names : List String) :
    Tended { agent with sweeper := .walking share names } where
  booked := tended.booked
  ledger := tended.ledger
  streams := tended.streams
  linked := tended.linked
  opened := tended.opened
  leaving := tended.leaving
  condemned _ _ _ turn := nomatch turn

private theorem discards {share stagingName : String} (tended : Tended agent)
    (taken : agent.transfers.step (.abandon share stagingName) = some transfers)
    (stopped : (agent.transfers.registry.abandon share stagingName).1 ≠ .streaming) :
    Tended { agent with transfers := transfers, control := .discarding (share,stagingName) } := by
  refine tended.registry (.discarding (share,stagingName)) (by simp [Event.sweeps]) taken
    nofun ?_ nofun
  rintro key (turn | turn) file <;> cases turn
  exact abandoned_unused tended.booked tended.streams taken stopped

theorem turn (turn : Turn) (next : SystemAgent) (tended : Tended agent)
    (admitted : undisturbed agent turn = true) (taken : agent.turn turn = some next) : Tended next := by
  cases turn with simp only [SystemAgent.turn] at taken
  | openTransfer share stagingName =>
    have apart : ∀ other name names, agent.sweeper = .checked other name names →
        (other,name) ≠ (share,stagingName) := by
      intro other name names sweeper same
      cases same
      simp [undisturbed,sweeper] at admitted
    obtain ⟨-,taken⟩ := of_when taken
    split at taken
    next file found =>
      cases taken
      exact tended.takes found apart
    next missing =>
      cases taken
      exact (tended.creates missing _ _ _).takes (lookup_insert _) apart
  | register token peer correlationId reason =>
    split at taken
    next key file control =>
      obtain ⟨middle,inserted,rfl⟩ := Option.map_eq_some_iff.mp taken
      obtain ⟨transfers,stepped,rfl⟩ := withTransfers_some inserted
      refine tended.registry .idle (fun _ => admitted) stepped ?_
        (by rintro key (turn | turn) <;> cases turn) (by rintro _ _ ⟨⟩)
      rintro token transfer same -
      cases same
      exact control
    next => cases taken
  | openDownload token transfer =>
    obtain ⟨free,taken⟩ := of_when taken
    refine tended.passes (fun _ => admitted) taken ?_
    rintro other entry same
    cases same
    rw [free.2]
    rintro ⟨⟩
  | publishCheck share stagingName =>
    obtain ⟨-,taken⟩ := of_when taken
    split at taken
    next =>
      cases taken
      exact tended
    next busy =>
      cases taken
      refine { tended.idles with
        opened := (by rintro _ _ ⟨⟩)
        leaving := ?_
        condemned := fun other name names turn =>
          ⟨(tended.condemned other name names turn).1,by rintro _ ⟨⟩⟩ }
      rintro key (turn | turn) file used <;> cases turn
      exact busy (inUse_busy tended.booked tended.streams used)
  | publishRename =>
    split at taken <;> cases taken
    next key control =>
      exact tended.removed (tended.leaving key (.inl control)) agent.sweeper .idle (.inl rfl)
        (by rintro _ ⟨⟩) (fun _ _ _ => id)
  | discardAbandon share stagingName =>
    obtain ⟨-,taken⟩ := of_when taken
    obtain ⟨middle,abandoned,rfl⟩ := Option.map_eq_some_iff.mp taken
    split
    next => exact tended.passes (by simp [Event.sweeps]) abandoned (by rintro _ _ ⟨⟩)
    next stopped =>
      obtain ⟨transfers,stepped,rfl⟩ := withTransfers_some abandoned
      exact tended.discards stepped stopped
  | discardUnlink =>
    split at taken <;> cases taken
    next key control =>
      exact tended.removed (tended.leaving key (.inr control)) agent.sweeper .idle (.inl rfl)
        (by rintro _ ⟨⟩) (fun _ _ _ => id)
  | giveUp =>
    cases taken
    exact tended.idles
  | claim token peer => exact tended.passes (fun _ => admitted) taken (by rintro _ _ ⟨⟩)
  | append guard =>
    obtain ⟨held,_,rfl⟩ := Option.map_eq_some_iff.mp taken
    exact { tended with }
  | drop guard => exact tended.passes (by simp [Event.sweeps]) taken (by rintro _ _ ⟨⟩)
  | list share =>
    split at taken <;> cases taken
    exact tended.walks share _
  | check =>
    split at taken
    next share name names sweeper =>
      split at taken
      next =>
        cases taken
        exact tended.walks share names
      next busy =>
        cases taken
        refine { tended with condemned := fun _ _ _ turn => ?_ }
        cases turn
        refine ⟨fun file used => busy (inUse_busy tended.booked tended.streams used),fun file here => ?_⟩
        change agent.control = _ at here
        simp [undisturbed,sweeper,here,busy] at admitted
    next => cases taken
  | unlink removed =>
    split at taken <;> cases taken
    next share name names sweeper =>
      obtain ⟨unused,away⟩ := tended.condemned share name names sweeper
      cases removed with
      | false => exact tended.walks share names
      | true =>
        exact tended.removed unused (.walking share names) agent.control (.inr rfl) away
          (by rintro _ _ _ ⟨⟩)
  | advance elapsed =>
    exact tended.passes (by simp [Event.sweeps]) taken (by rintro _ _ ⟨⟩)

end Tended

/-- In an undisturbed run `remove_file` never meets an upload that is pending or in
flight, and what a live connection appends to is still linked under its name. -/
theorem sweeper_spares_uploads (now maxAge nextInode : Nat) (staging : Table Key Nat)
    (modified : Table Nat Nat) (turns : List Turn) (agent : SystemAgent)
    (met : Machine.Meets SystemAgent.turn (fun state turn => undisturbed state turn = true)
      (.start now maxAge nextInode staging modified) turns)
    (ran : Machine.run SystemAgent.turn (.start now maxAge nextInode staging modified) turns = some agent) :
    (∀ share name names, agent.sweeper = .checked share name names →
      ∀ file, ¬ InUse agent.transfers (share,name) file) ∧
    (∀ id guard, agent.transfers.guards.lookup id = some guard →
      agent.staging.lookup guard.key = some guard.file) := by
  have tended := Machine.run_invariant SystemAgent.turn
    (fun _ turn next tended admitted taken => Tended.turn turn next tended admitted taken)
    (Tended.start now maxAge nextInode staging modified) met ran
  refine ⟨fun share name names sweeper => (tended.condemned share name names sweeper).1,fun id guard held => ?_⟩
  exact tended.linked guard.key guard.file (.inr ⟨id,guard,held,rfl,rfl⟩)

section Runs

def pausedFile : Table Key Nat := (∅ : Table Key Nat).insert ("alice","x.part") 5

def pausedSince : Table Nat Nat := (∅ : Table Nat Nat).insert 5 0

def pausedUpload : SystemAgent := .start (seconds 172800) (seconds 86400) 8 pausedFile pausedSince

def resumedInTime : List Turn := [
  .list "alice",.openTransfer "alice" "x.part",.register "up" api "c-1" "upload",.check,
  .claim "up" api,.append 0,.drop 0,.list "alice"]

theorem sweeper_spares_uploads_resumed : ∃ agent,
    Machine.run SystemAgent.turn pausedUpload resumedInTime = some agent ∧
    (∀ share name names, agent.sweeper = .checked share name names →
      ∀ file, ¬ InUse agent.transfers (share,name) file) ∧
    (∀ id guard, agent.transfers.guards.lookup id = some guard →
      agent.staging.lookup guard.key = some guard.file) :=
  ⟨_,rfl,sweeper_spares_uploads (seconds 172800) (seconds 86400) 8 pausedFile pausedSince resumedInTime _
    (by decide) rfl⟩

/-- The upload resumes between the sweeper's question and its `remove_file`: the
unlink hits a pending upload, whose connection then appends to an inode no name
links. -/
theorem sweeper_unlinks_upload : ∃ agent next,
    Machine.run SystemAgent.turn pausedUpload
      [.list "alice",.check,.openTransfer "alice" "x.part",.register "up" api "c-1" "upload"] = some agent ∧
    agent.sweeper = .checked "alice" "x.part" [] ∧ InUse agent.transfers ("alice","x.part") 5 ∧
    Machine.run SystemAgent.turn agent [.unlink true,.claim "up" api,.append 0] = some next ∧
    next.transfers.guards.lookup 0 = some ⟨("alice","x.part"),5,seconds 172800⟩ ∧
    next.staging.lookup ("alice","x.part") = none := by
  refine ⟨_,_,rfl,rfl,.inl ⟨"up",⟨5,.receive,"alice","x.part",api,"c-1","upload",seconds 172800⟩,?_⟩,rfl,?_⟩
  · decide
  · decide

end Runs

end Depsis.Agent

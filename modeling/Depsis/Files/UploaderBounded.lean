import Depsis.Files.UploaderDone
import Depsis.Foundation.Tally

/-! How many requests the uploader may still make while the staging file of its session does not move: what its stage, its
chunk and the disagreement of the row with the file ask for, and one more disagreement for each write under way that is
out of date.
-/
namespace Depsis.Files.Uploader

open Depsis.Foundation Uploads AList Option Function

variable {env : Surroundings} {file : File} {state after : State} {chunk later : Chunk} {store there : Store}

def stagedLength (store : Store) : Nat := (store.staged.getD []).length

def recorded (store : Store) : Option Nat :=
  store.session.bind (fun row => if row.fileId.isSome then none else some row.offsetBytes)

def drift (store : Store) (offset : Nat) : Nat :=
  match recorded store with
  | none => 0
  | some held => (if held = stagedLength store then 0 else 1) + if held = offset then 0 else 1

def patience (broken : Nat) : Nat := 3 * (BROKEN_CHUNK_RETRIES - broken)

def Answer.dues (store : Store) (broken : Nat) (answer : Answer) : Nat :=
  if answer.ok then 12
  else (if answer.status = 409 then answer.uploadOffset.elim 0 (fun offset => 1 + drift store offset) else 0) + patience broken

def Chunk.dues (store : Store) (broken : Nat) (chunk : Chunk) : Nat :=
  match chunk.phase with
  | .arrived => drift store chunk.offset + patience broken
  | .loaded _ => (if stagedLength store = chunk.offset then 0 else 1) + patience broken
  | .correcting _ _ => 1 + patience broken
  | .streaming _ => patience broken
  | .stored _ _ | .publishing _ _ | .recording _ _ _ | .completing _ _ => 12
  | .answered answer => answer.dues store broken

def Chunk.stale (location length : Nat) (chunk : Chunk) : Bool :=
  decide (chunk.location = location) && match chunk.phase with
    | .correcting _ opened => opened ≠ length
    | .stored _ next => next ≠ length
    | _ => false

def State.here (state : State) : Store := state.sessions state.client.location

def State.owed (state : State) : Nat :=
  match state.client.stage with
  | .sending => 1 + drift state.here state.client.offset + patience state.client.broken
  | .awaiting key _ => ((state.chunks.lookup key).map (Chunk.dues state.here state.client.broken)).getD (patience state.client.broken)
  | .asking => 3 + patience state.client.broken
  | _ => 0

def State.stale (state : State) : Nat :=
  if state.client.stage.attached then
    state.chunks.tally (fun _ chunk => chunk.stale state.client.location (stagedLength state.here))
  else 0

structure Budget (state : State) : Prop where
  recalling : state.client.stage = .recalling → state.requests = 0
  opening : ∀ attempt, state.client.stage = .opening attempt → state.requests ≤ attempt ∧ attempt ≤ 4
  within : state.requests + state.owed + 2 * state.stale ≤ 15 + 2 * state.crowd

theorem drift_le (store : Store) (offset : Nat) : drift store offset ≤ 2 := by
  unfold drift
  split
  next => omega
  next => split <;> split <;> omega

theorem patience_le (broken : Nat) : patience broken ≤ 9 := by
  simp only [patience,BROKEN_CHUNK_RETRIES]
  omega

theorem patience_succ {broken : Nat} (more : ¬BROKEN_CHUNK_RETRIES < broken + 1) : 3 + patience (broken + 1) = patience broken := by
  simp only [patience,BROKEN_CHUNK_RETRIES] at more ⊢
  omega

theorem Answer.dues_le (store : Store) (broken : Nat) (answer : Answer) : answer.dues store broken ≤ 12 := by
  have calm := patience_le broken
  unfold Answer.dues
  split
  next => omega
  next =>
    split
    next =>
      cases answer.uploadOffset with
      | none => simp only [elim_none]; omega
      | some offset =>
        have close := drift_le store offset
        simp only [elim_some]
        omega
    next => omega

theorem Chunk.dues_le (store : Store) (broken : Nat) (chunk : Chunk) : chunk.dues store broken ≤ 12 := by
  have calm := patience_le broken
  have close := drift_le store chunk.offset
  unfold Chunk.dues
  split
  next => omega
  next => split <;> omega
  next => omega
  next => omega
  next => omega
  next => omega
  next => omega
  next => omega
  next answer _ => exact answer.dues_le store broken

theorem Answer.dues_least (store : Store) (broken : Nat) (answer : Answer) : patience broken ≤ answer.dues store broken := by
  have calm := patience_le broken
  unfold Answer.dues
  split <;> omega

theorem Chunk.dues_least (store : Store) (broken : Nat) (chunk : Chunk) : patience broken ≤ chunk.dues store broken := by
  have calm := patience_le broken
  unfold Chunk.dues
  split
  next => omega
  next => omega
  next => omega
  next => omega
  next => omega
  next => omega
  next => omega
  next => omega
  next answer _ => exact answer.dues_least store broken

theorem State.owed_le (state : State) : state.owed ≤ 12 := by
  have calm := patience_le state.client.broken
  have close := drift_le state.here state.client.offset
  unfold State.owed
  split
  next => omega
  next key stop _ =>
    cases state.chunks.lookup key with
    | none => exact calm.trans (by decide)
    | some chunk => exact chunk.dues_le state.here state.client.broken
  next => omega
  next => omega

theorem State.stale_le (state : State) : state.stale ≤ state.chunks.size := by
  unfold State.stale
  split
  next => exact size_retain_le _ _
  next => omega

theorem Still.drifts (still : Still store there) (offset : Nat) : drift there offset = drift store offset := by
  unfold drift recorded stagedLength
  rw [still.session,still.staged]

theorem drift_written {opened : Nat} {row : SessionRow → SessionRow} (length : stagedLength there = stagedLength store)
    (session : there.session = store.session.map row)
    (keeps : ∀ old, (row old).fileId = old.fileId ∧ (row old).offsetBytes = opened) (offset : Nat) :
    drift there offset ≤ drift store offset + if opened = stagedLength store then 0 else 2 := by
  have held : recorded there = (recorded store).map (fun _ => opened) := by
    unfold recorded
    rw [session]
    cases store.session with
    | none => rfl
    | some old =>
      simp only [map_some,bind_some,(keeps old).1,(keeps old).2]
      split <;> rfl
  unfold drift
  rw [held,length]
  cases recorded store with
  | none => simp
  | some old =>
    simp only [map_some]
    by_cases fits : opened = stagedLength store
    · subst fits
      simp only [if_true]
      split_ifs <;> omega
    · rw [if_neg fits,if_neg fits]
      split_ifs <;> omega

theorem drift_complete {row : SessionRow → SessionRow} (session : there.session = store.session.map row)
    (complete : ∀ old, (row old).fileId.isSome = true) (offset : Nat) : drift there offset = 0 := by
  have gone : recorded there = none := by
    unfold recorded
    rw [session]
    cases store.session with
    | none => rfl
    | some old => simp [complete old]
  unfold drift
  rw [gone]

theorem drift_recorded {row : SessionRow} (found : store.session = some row) : drift store row.offsetBytes ≤ 1 := by
  have held : recorded store = if row.fileId.isSome then none else some row.offsetBytes := by
    rw [recorded,found,bind_some]
  unfold drift
  rw [held]
  split
  next => omega
  next offset told =>
    split_ifs at told
    cases told
    rw [if_pos rfl]
    split <;> omega

theorem Chunk.Thrown.fresh {location length : Nat} (thrown : chunk.Thrown later) : later.stale location length = false := by
  obtain ⟨answer,rfl,-⟩ := thrown
  simp [Chunk.stale,Chunk.ends]

theorem Served.grown (served : Served file chunk store later there) {upload : SessionRow} (waits : chunk.phase = .streaming upload)
    (forward : chunk.offset < chunk.stop) (inside : chunk.stop ≤ file.size) (length : stagedLength there = stagedLength store) :
    chunk.Thrown later ∧ Still store there := by
  cases served with
  | thrown still thrown => exact ⟨thrown,still⟩
  | appended upload _ aligned _ staged =>
    have grown : stagedLength there = stagedLength store + (chunk.stop - chunk.offset) := by
      unfold stagedLength
      rw [staged,List.length_append,List.length_take]
      simp only [File.slice,File.size,List.length_drop,List.length_take] at inside ⊢
      omega
    omega
  | mismatched _ other | loaded _ other | measured _ other | corrected _ _ other | counted _ _ other
  | landed _ _ other | recorded _ _ _ other | completed _ _ other | idle _ other => rw [waits] at other; cases other

section

variable {location : Nat} (served : Served file chunk store later there) (forward : chunk.offset < chunk.stop)
  (inside : chunk.stop ≤ file.size) (place : chunk.location = location) (length : stagedLength there = stagedLength store)

include served forward inside length

theorem Served.fresh : later.stale location (stagedLength store) = false := by
  have told {answer : Answer} (same : later = chunk.ends answer) : later.stale location (stagedLength store) = false := by
    rw [same]
    simp [Chunk.stale,Chunk.ends]
  cases served with
  | thrown still thrown => exact thrown.fresh
  | mismatched _ _ _ _ _ _ same => exact told same
  | loaded _ _ _ _ _ _ goes =>
    rw [goes]
    simp [Chunk.stale]
  | measured upload _ still goes =>
    rw [goes]
    unfold Chunk.stale
    split
    next => simp [stagedLength]
    next => exact Bool.and_false _
  | corrected upload opened waits session staged ended =>
    rcases ended with thrown | same
    · exact thrown.fresh
    · exact told same
  | appended upload waits aligned session staged goes =>
    exact (Served.grown (.appended upload waits aligned session staged goes) waits forward inside length).1.fresh
  | counted upload next waits session staged goes =>
    rcases goes with thrown | ⟨-,same⟩ | goes
    · exact thrown.fresh
    · exact told same
    · rw [goes]
      simp [Chunk.stale]
  | landed upload next waits body published goes =>
    rcases goes with thrown | ⟨bytes,goes⟩
    · exact thrown.fresh
    · rw [goes]
      simp [Chunk.stale]
  | recorded upload next bytes _ still goes =>
    rw [goes]
    simp [Chunk.stale]
  | completed upload next _ id session _ ended =>
    rcases ended with thrown | same
    · exact thrown.fresh
    · exact told same
  | idle answer waits same =>
    rw [same]
    simp [Chunk.stale,waits]

include place

theorem Served.drifts (offset : Nat) :
    drift there offset ≤ drift store offset + 2 * (chunk.stale location (stagedLength store)).toNat := by
  have calm (still : Still store there) :
      drift there offset ≤ drift store offset + 2 * (chunk.stale location (stagedLength store)).toNat :=
    still.drifts offset ▸ Nat.le_add_right _ _
  cases served with
  | thrown still | mismatched _ _ _ _ _ still | loaded _ _ _ _ _ still | measured _ _ still => exact calm still
  | corrected upload opened waits session staged told =>
    have written := drift_written length session (fun _ => ⟨rfl,rfl⟩) offset
    refine written.trans (Nat.add_le_add_left ?_ _)
    simp only [Chunk.stale,place,waits,decide_true,Bool.true_and]
    split <;> simp_all
  | appended upload waits aligned session staged goes =>
    exact calm (Served.grown (.appended upload waits aligned session staged goes) waits forward inside length).2
  | counted upload next waits session staged goes =>
    have written := drift_written length session (fun _ => ⟨rfl,rfl⟩) offset
    refine written.trans (Nat.add_le_add_left ?_ _)
    simp only [Chunk.stale,place,waits,decide_true,Bool.true_and]
    split <;> simp_all
  | landed upload next waits body published goes =>
    unfold drift Uploader.recorded
    rw [published.session,length]
    exact Nat.le_add_right _ _
  | recorded _ _ _ _ still => exact calm still
  | completed upload next _ id session _ told =>
    rw [drift_complete session (fun _ => rfl) offset]
    exact Nat.zero_le _
  | idle _ _ _ still => exact calm still

end

theorem Chunk.dues_mono {extra : Nat} (broken : Nat) (length : stagedLength there = stagedLength store)
    (drifts : ∀ offset, drift there offset ≤ drift store offset + extra) : chunk.dues there broken ≤ chunk.dues store broken + extra := by
  have close := drifts chunk.offset
  unfold Chunk.dues
  split
  next => omega
  next => rw [length]; omega
  next => omega
  next => omega
  next => omega
  next => omega
  next => omega
  next => omega
  next answer _ =>
    unfold Answer.dues
    split
    next => omega
    next =>
      split
      next =>
        cases answer.uploadOffset with
        | none => simp only [elim_none]; omega
        | some offset =>
          have far := drifts offset
          simp only [elim_some]
          omega
      next => omega

theorem Answer.dues_refused {answer : Answer} (refused : 400 ≤ answer.status) (store : Store) (broken : Nat) :
    answer.dues store broken ≤ answer.uploadOffset.elim 0 (fun offset => 1 + drift store offset) + patience broken := by
  have failed : answer.ok = false := by
    simp only [Answer.ok,Bool.and_eq_false_iff,decide_eq_false_iff_not]
    omega
  unfold Answer.dues
  rw [failed,if_neg Bool.false_ne_true]
  split <;> omega

theorem Chunk.Thrown.dues (thrown : chunk.Thrown later) (broken : Nat) : later.dues there broken ≤ chunk.dues store broken := by
  obtain ⟨answer,rfl,refused,header⟩ := thrown
  have asked := answer.dues_refused refused there broken
  have least := chunk.dues_least store broken
  have calm := patience_le broken
  rw [header] at asked
  have late {next : Nat} (told : chunk.phase.header = some next) (full : chunk.dues store broken = 12) :
      answer.dues there broken ≤ chunk.dues store broken := by
    have close := drift_le there next
    rw [told,elim_some] at asked
    omega
  cases waits : chunk.phase with
  | publishing upload next | recording upload next bytes | completing upload next => exact late (by rw [waits]; rfl) (by simp only [Chunk.dues,waits])
  | _ =>
    rw [waits] at asked
    simp only [Phase.header,elim_none,Nat.zero_add] at asked
    exact asked.trans least

theorem drift_held {held offset : Nat} (recordedAt : recorded store = some held) :
    drift store offset = (if held = stagedLength store then 0 else 1) + if held = offset then 0 else 1 := by
  unfold drift
  rw [recordedAt]

theorem recorded_of_incomplete {row : SessionRow} (found : store.session = some row) (incomplete : row.fileId = none) :
    recorded store = some row.offsetBytes := by
  rw [recorded,found,bind_some,incomplete]
  rfl

theorem Served.dues {location : Nat} (served : Served file chunk store later there) (forward : chunk.offset < chunk.stop)
    (inside : chunk.stop ≤ file.size) (place : chunk.location = location) (length : stagedLength there = stagedLength store)
    (broken : Nat) :
    later.dues there broken ≤ chunk.dues store broken + 2 * (chunk.stale location (stagedLength store)).toNat := by
  cases served with
  | thrown still thrown => exact (thrown.dues broken).trans (Nat.le_add_right _ _)
  | mismatched row waits found incomplete differs still told =>
    have held := recorded_of_incomplete found incomplete
    have before : chunk.dues store broken = drift store chunk.offset + patience broken := by simp only [Chunk.dues,waits]
    have asks : later.dues there broken = 1 + drift there row.offsetBytes + patience broken := by
      rw [told]
      rfl
    rw [asks,before,still.drifts,drift_held held,drift_held held,if_neg differs,if_pos rfl]
    omega
  | loaded row waits found incomplete agrees still goes =>
    have held := recorded_of_incomplete found incomplete
    have before : chunk.dues store broken = drift store chunk.offset + patience broken := by simp only [Chunk.dues,waits]
    have asks : later.dues there broken = (if stagedLength there = chunk.offset then 0 else 1) + patience broken := by
      rw [goes]
      rfl
    rw [asks,before,drift_held held,length,if_pos agrees,agrees]
    split_ifs <;> omega
  | measured upload waits still goes =>
    have before : chunk.dues store broken = (if stagedLength store = chunk.offset then 0 else 1) + patience broken := by
      simp only [Chunk.dues,waits]
    rw [before,goes]
    unfold Chunk.dues
    by_cases aligned : stagedLength store = chunk.offset
    · have fits : ¬(store.staged.getD []).length ≠ chunk.offset := not_not.mpr aligned
      simp only [if_neg fits,if_pos aligned]
      omega
    · have apart : (store.staged.getD []).length ≠ chunk.offset := aligned
      simp only [if_pos apart,if_neg aligned]
      omega
  | corrected upload opened waits session staged told =>
    rcases told with thrown | told
    · exact (thrown.dues broken).trans (Nat.le_add_right _ _)
    · have before : chunk.dues store broken = 1 + patience broken := by simp only [Chunk.dues,waits]
      have asks : later.dues there broken = 1 + drift there opened + patience broken := by
        rw [told]
        rfl
      have overdue : chunk.stale location (stagedLength store) = decide (opened ≠ stagedLength store) := by
        simp only [Chunk.stale,place,waits,decide_true,Bool.true_and]
      have left : drift there opened ≤ if opened = stagedLength store then 0 else 1 := by
        unfold drift
        split
        next => omega
        next held told =>
          have same : held = opened := by
            unfold Uploader.recorded at told
            rw [session] at told
            cases had : store.session with
            | none =>
              rw [had] at told
              cases told
            | some row =>
              rw [had] at told
              simp only [map_some,bind_some] at told
              split_ifs at told
              exact (Option.some.inj told).symm
          rw [same,length,if_pos rfl]
          omega
      rw [asks,before,overdue]
      split_ifs at left with fits
      · omega
      · rw [decide_eq_true fits,Bool.toNat_true]
        omega
  | appended upload waits aligned session staged goes =>
    have thrown := (Served.grown (.appended upload waits aligned session staged goes) waits forward inside length).1
    exact (thrown.dues broken).trans (Nat.le_add_right _ _)
  | counted upload next waits session staged goes | landed upload next waits body published goes
  | recorded upload next bytes waits still goes | completed upload next waits id session staged told =>
    have full : chunk.dues store broken = 12 := by simp only [Chunk.dues,waits]
    exact full ▸ (later.dues_le there broken).trans (Nat.le_add_right _ _)
  | idle answer waits same still =>
    subst same
    exact Chunk.dues_mono broken length (fun offset => still.drifts offset ▸ Nat.le_add_right _ _)

theorem Budget.settled {before : State} (length : after.staged before.client.location ≠ before.staged before.client.location)
    (same : after.client = before.client) (budget : Budget before) : Budget (before.settles after) := by
  unfold State.settles
  rw [if_neg length]
  constructor
  · exact fun _ => rfl
  · intro attempt stage
    rw [same] at stage
    exact ⟨Nat.zero_le _,(budget.opening attempt stage).2⟩
  · have owed := State.owed_le {after with requests := 0, crowd := after.chunks.size}
    have stale := State.stale_le {after with requests := 0, crowd := after.chunks.size}
    simp only at owed stale ⊢
    omega

theorem Budget.calm (budget : Budget state) (client : after.client = state.client) (requests : after.requests = state.requests)
    (crowd : after.crowd = state.crowd) (less : after.owed + 2 * after.stale ≤ state.owed + 2 * state.stale) : Budget after := by
  constructor
  · rw [client,requests]
    exact budget.recalling
  · rw [client,requests]
    exact budget.opening
  · rw [requests,crowd]
    have within := budget.within
    omega

theorem dues_least_of_lookup (state : State) (key : Nat) : patience state.client.broken ≤
    ((state.chunks.lookup key).map (Chunk.dues state.here state.client.broken)).getD (patience state.client.broken) := by
  cases state.chunks.lookup key with
  | none => exact Nat.le_refl _
  | some chunk => exact chunk.dues_least _ _

theorem owed_step {extra : Nat} (client : after.client = state.client)
    (drifts : ∀ offset, drift after.here offset ≤ drift state.here offset + extra)
    (own : ∀ key stop, state.client.stage = .awaiting key stop → ∀ later, after.chunks.lookup key = some later →
      ∃ chunk, state.chunks.lookup key = some chunk ∧
        later.dues after.here state.client.broken ≤ chunk.dues state.here state.client.broken + extra) :
    after.owed ≤ state.owed + extra := by
  unfold State.owed
  rw [client]
  cases stage : state.client.stage with
  | sending =>
    have close := drifts state.client.offset
    simp only
    omega
  | awaiting key stop =>
    simp only
    cases found : after.chunks.lookup key with
    | none => exact (dues_least_of_lookup state key).trans (Nat.le_add_right _ _)
    | some later =>
      obtain ⟨chunk,had,less⟩ := own key stop stage later found
      rw [had]
      exact less
  | _ => simp

theorem owed_of_apart (apart : state.client.stage.attached = false) : state.owed = 0 ∧ state.stale = 0 := by
  constructor
  · unfold State.owed
    split <;> rename_i stage
    · rw [stage] at apart
      cases apart
    · rw [stage] at apart
      cases apart
    · rw [stage] at apart
      cases apart
    · rfl
  · unfold State.stale
    rw [apart,if_neg Bool.false_ne_true]

theorem owed_served {key : Nat} (found : state.chunks.lookup key = some chunk) (client : after.client = state.client)
    (rows : after.chunks = state.chunks.insert key later) (length : stagedLength after.here = stagedLength state.here)
    (fresh : later.stale state.client.location (stagedLength state.here) = false)
    (drifts : ∀ offset, drift after.here offset ≤
      drift state.here offset + 2 * (chunk.stale state.client.location (stagedLength state.here)).toNat)
    (own : (∃ stop, state.client.stage = .awaiting key stop) → later.dues after.here state.client.broken ≤
      chunk.dues state.here state.client.broken + 2 * (chunk.stale state.client.location (stagedLength state.here)).toNat) :
    after.owed + 2 * after.stale ≤ state.owed + 2 * state.stale := by
  cases attached : state.client.stage.attached with
  | false =>
    obtain ⟨none',-⟩ := owed_of_apart attached
    obtain ⟨owed,stale⟩ := @owed_of_apart after (by rw [client]; exact attached)
    omega
  | true =>
    have owed := owed_step client drifts (fun other stop stage row there => by
      rw [rows] at there
      rcases lookup_insert_cases there with ⟨rfl,rfl⟩ | ⟨-,old⟩
      · exact ⟨chunk,found,own ⟨stop,stage⟩⟩
      · exact ⟨row,old,row.dues_mono _ length drifts⟩)
    have stale : after.stale + (chunk.stale state.client.location (stagedLength state.here)).toNat = state.stale := by
      have updated := @tally_update _ _ _ (fun _ chunk => chunk.stale state.client.location (stagedLength state.here)) _ _ _ later found
      unfold State.stale
      rw [client,attached,if_pos rfl,if_pos rfl,length,rows,updated,fresh]
      rfl
    omega

theorem Budget.works (budget : Budget state) (kept : Kept file state) {key : Nat} {fates : PatchFates} {other : Refusal}
    {entryId : String} (taken : state.works env file key fates other entryId = some after) : Budget after := by
  unfold State.works at taken
  split at taken
  next => cases taken
  next chunk found =>
    obtain ⟨refused,taken⟩ := of_unless taken
    simp only [Option.some.injEq] at taken
    subst taken
    obtain ⟨-,forward,inside⟩ := kept.bounded key chunk found
    have served := @serve_served env file chunk (state.sessions chunk.location) fates other entryId (not_lt.mp refused)
    generalize went : chunk.serve env file fates other entryId (state.sessions chunk.location) = result at served ⊢
    obtain ⟨later,there⟩ := result
    generalize next' : ({state.changes chunk.location there with chunks := state.chunks.insert key later, published := _} : State) = next
    have client : next.client = state.client := by rw [← next']; rfl
    have rows : next.chunks = state.chunks.insert key later := by rw [← next']
    have same : next.requests = state.requests ∧ next.crowd = state.crowd := by rw [← next']; exact ⟨rfl,rfl⟩
    have here : next.here = if state.client.location = chunk.location then there else state.here := by
      rw [← next']
      exact update_apply ..
    by_cases length : next.staged state.client.location = state.staged state.client.location
    · have settled : state.settles next = next := if_pos length
      rw [settled]
      have long : stagedLength next.here = stagedLength state.here := by
        unfold State.here
        rw [client]
        exact length
      refine budget.calm client same.1 same.2 ?_
      by_cases place : chunk.location = state.client.location
      · have held : next.here = there := here.trans (if_pos place.symm)
        have before : state.sessions chunk.location = state.here := by rw [place]; rfl
        rw [held] at long
        rw [before] at served
        refine owed_served found client rows (by rw [held,long]) (served.fresh forward inside long) ?_ ?_
        · rw [held]
          exact served.drifts forward inside place long
        · rw [held]
          exact fun _ => served.dues forward inside place long _
      · have held : next.here = state.here := here.trans (if_neg (fun equal => place equal.symm))
        have apart : chunk.stale state.client.location (stagedLength state.here) = false := by
          simp [Chunk.stale,place]
        have apart' : later.stale state.client.location (stagedLength state.here) = false := by
          have moved : later.location ≠ state.client.location := fun equal => place (served.same.1.symm.trans equal)
          simp [Chunk.stale,moved]
        refine owed_served found client rows long apart' ?_ ?_
        · rw [held]
          exact fun offset => Nat.le_add_right _ _
        · rintro ⟨stop,stage⟩
          exact absurd ((kept.awaiting key stop stage).2 chunk found).1 place
    · exact Budget.settled length client budget

theorem Budget.around (budget : Budget state) (client : after.client = state.client) (requests : after.requests = state.requests)
    (crowd : after.crowd = state.crowd) (length : stagedLength after.here = stagedLength state.here)
    (drifts : ∀ offset, drift after.here offset ≤ drift state.here offset)
    (own : ∀ key stop, state.client.stage = .awaiting key stop → ∀ later, after.chunks.lookup key = some later →
      state.chunks.lookup key = some later)
    (fewer : after.chunks.tally (fun _ chunk => chunk.stale state.client.location (stagedLength state.here)) ≤
      state.chunks.tally (fun _ chunk => chunk.stale state.client.location (stagedLength state.here))) : Budget after := by
  refine budget.calm client requests crowd ?_
  have owed := @owed_step state after 0 client (fun offset => drifts offset) (fun key stop stage later found =>
    ⟨later,own key stop stage later found,later.dues_mono _ length (fun offset => drifts offset)⟩)
  have stale : after.stale ≤ state.stale := by
    unfold State.stale
    rw [client,length]
    split
    next => exact fewer
    next => exact Nat.le_refl _
  omega

theorem conflict_realigns {code : Option String} {header : Option Nat} {offset : Nat}
    (told : conflict code header = .realign offset) : header = some offset := by
  unfold conflict at told
  split_ifs at told
  cases header with
  | none => cases told
  | some given =>
    simp only at told
    split_ifs at told
    cases told
    rfl

theorem Budget.of_stopped (stage : after.client.stage = .ended ∨ ∃ failure, after.client.stage = .failed failure)
    (few : after.requests ≤ 15 + 2 * after.crowd) : Budget after := by
  have apart : after.client.stage.attached = false := by
    rcases stage with stage | ⟨failure,stage⟩ <;> rw [stage] <;> rfl
  obtain ⟨owed,stale⟩ := owed_of_apart apart
  constructor
  · intro other
    rw [other] at stage
    rcases stage with stage | ⟨failure,stage⟩ <;> cases stage
  · intro attempt other
    rw [other] at stage
    rcases stage with stage | ⟨failure,stage⟩ <;> cases stage
  · rw [owed,stale]
    exact few

theorem Budget.of_opening {attempt : Nat} (stage : after.client.stage = .opening attempt) (asked : after.requests ≤ attempt)
    (few : attempt ≤ 4) : Budget after := by
  obtain ⟨owed,stale⟩ := @owed_of_apart after (by rw [stage]; rfl)
  constructor
  · intro other
    rw [stage] at other
    cases other
  · intro again other
    rw [stage] at other
    cases other
    exact ⟨asked,few⟩
  · rw [owed,stale]
    omega

theorem Budget.of_attached (attached : after.client.stage.attached = true)
    (within : after.requests + after.owed + 2 * after.stale ≤ 15 + 2 * after.crowd) : Budget after := by
  constructor
  · intro other
    rw [other] at attached
    cases attached
  · intro attempt other
    rw [other] at attached
    cases attached
  · exact within

section

variable (budget : Budget state)

include budget

theorem Budget.few : state.requests ≤ 15 + 2 * state.crowd := by
  have within := budget.within
  omega

theorem Budget.recalls {head : Probe} (taken : state.recalls file head = some after) : Budget after := by
  unfold State.recalls at taken
  split at taken
  next stage =>
    have none' := budget.recalling stage
    simp only [] at taken
    split at taken
    next =>
      cases taken
      refine .of_opening rfl ?_ (by decide)
      simp only [none']
      omega
    next offset resumed =>
      cases taken
      refine .of_attached rfl ?_
      have owed := State.owed_le (State.attaches {state with requests := state.requests + 1} state.client.location offset)
      have stale := State.stale_le (State.attaches {state with requests := state.requests + 1} state.client.location offset)
      simp only [State.attaches] at owed stale ⊢
      omega
  next => cases taken

theorem Budget.starts_post {post : Posting} {folder : Bool} {placed : Option (List UInt8)}
    (taken : state.opens file post folder placed = some after) : Budget after := by
  unfold State.opens at taken
  split at taken
  next attempt stage =>
    obtain ⟨asked,few⟩ := budget.opening attempt stage
    simp only [] at taken
    split at taken
    · cases taken
      refine .of_stopped (.inr ⟨_,rfl⟩) ?_
      simp only
      omega
    · obtain ⟨middle,created,rfl⟩ := map_eq_some_iff.mp taken
      unfold State.creates at created
      split_ifs at created
      cases created
      refine .of_stopped (.inr ⟨_,rfl⟩) ?_
      simp only [State.changes]
      omega
    · split_ifs at taken with _ given
      · cases taken
        refine .of_stopped (.inr ⟨_,rfl⟩) ?_
        simp only
        omega
      · cases taken
        simp only [Bool.or_eq_true,decide_eq_true_eq,not_or,BROKEN_CHUNK_RETRIES] at given
        obtain ⟨-,more⟩ := given
        have early : ¬3 < attempt := of_decide_eq_false (eq_false_of_ne_true more)
        exact .of_opening rfl (Nat.succ_le_succ asked) (by omega)
    · obtain ⟨middle,created,rfl⟩ := map_eq_some_iff.mp taken
      unfold State.creates at created
      split_ifs at created
      cases created
      refine .of_stopped (.inr ⟨_,rfl⟩) ?_
      simp only [State.changes]
      omega
    · rename_i location
      obtain ⟨middle,created,rfl⟩ := map_eq_some_iff.mp taken
      unfold State.creates at created
      split_ifs at created
      cases created
      refine .of_attached rfl ?_
      have held : State.here {State.attaches (State.changes {state with requests := state.requests + 1} location
          (freshStore file folder placed)) location 0 with client := {state.client with
            note := some location, location := location, offset := 0, stage := .sending}} = freshStore file folder placed :=
        update_self ..
      have calm := patience_le state.client.broken
      have drifts : drift (freshStore file folder placed) 0 = 0 := rfl
      have stale := State.stale_le {State.attaches (State.changes {state with requests := state.requests + 1} location
          (freshStore file folder placed)) location 0 with client := {state.client with
            note := some location, location := location, offset := 0, stage := .sending}}
      have owed : State.owed {State.attaches (State.changes {state with requests := state.requests + 1} location
          (freshStore file folder placed)) location 0 with client := {state.client with
            note := some location, location := location, offset := 0, stage := .sending}} = 1 + patience state.client.broken := by
        change 1 + drift (State.here _) 0 + patience state.client.broken = _
        rw [held,drifts]
      simp only [State.changes,State.attaches] at owed stale ⊢
      omega
  next => cases taken

theorem Budget.sends (kept : Kept file state) (taken : state.sends file = some after) : Budget after := by
  unfold State.sends at taken
  simp only [] at taken
  split_ifs at taken with ready
  obtain ⟨stage,short⟩ := ready
  cases taken
  have missing : state.chunks.lookup state.arrivals = none := by
    cases found : state.chunks.lookup state.arrivals with
    | none => rfl
    | some chunk => exact absurd (kept.bounded _ _ found).1 (Nat.lt_irrefl _)
  have within := budget.within
  have owed : state.owed = 1 + drift state.here state.client.offset + patience state.client.broken := by
    unfold State.owed
    rw [stage]
  have stale : state.stale = state.chunks.tally (fun _ chunk => chunk.stale state.client.location (stagedLength state.here)) := by
    unfold State.stale
    rw [stage]
    rfl
  rw [owed,stale] at within
  refine .of_attached rfl ?_
  simp only [State.owed,State.stale,State.here,Stage.attached,lookup_insert,map_some,getD_some,if_true]
  rw [tally_insert missing]
  have fresh : Chunk.stale state.client.location (stagedLength (state.sessions state.client.location))
      ⟨state.client.location,state.client.offset,min (state.client.offset + CHUNK_BYTES) file.size,.arrived⟩ = false := by
    simp [Chunk.stale]
  rw [fresh]
  simp only [Chunk.dues,Bool.toNat_false,State.here] at within ⊢
  omega

theorem Budget.asks {head : Probe} (taken : state.asks file head = some after) : Budget after := by
  unfold State.asks at taken
  split at taken
  next stage =>
    have within := budget.within
    have owed : state.owed = 3 + patience state.client.broken := by
      unfold State.owed
      rw [stage]
    rw [owed] at within
    have stopped (failure : Failure) :
        Budget {state with requests := state.requests + 1, client := state.client.fails failure} := by
      refine .of_stopped (.inr ⟨failure,rfl⟩) ?_
      simp only
      omega
    simp only [] at taken
    split at taken
    next =>
      cases taken
      exact stopped _
    next told asked =>
      split at taken
      next offset resumed =>
        cases taken
        obtain ⟨-,row,found,-,rfl⟩ := probe_resumes asked resumed
        have close : drift state.here row.offsetBytes ≤ 1 := drift_recorded found
        have stale : state.stale = state.chunks.tally (fun _ chunk => chunk.stale state.client.location (stagedLength state.here)) := by
          unfold State.stale
          rw [stage]
          rfl
        rw [stale] at within
        refine .of_attached rfl ?_
        simp only [State.owed,State.stale,State.here,Stage.attached,if_true] at within close ⊢
        omega
      next =>
        cases taken
        exact stopped _
  next => cases taken

theorem Budget.of_loses {key stop : Nat} (stage : state.client.stage = .awaiting key stop)
    (client : after.client = state.client.loses) (requests : after.requests = state.requests) (crowd : after.crowd = state.crowd)
    (sessions : after.sessions = state.sessions)
    (fewer : after.chunks.tally (fun _ chunk => chunk.stale state.client.location (stagedLength state.here)) ≤
      state.chunks.tally (fun _ chunk => chunk.stale state.client.location (stagedLength state.here))) : Budget after := by
  have within := budget.within
  have owed : patience state.client.broken ≤ state.owed := by
    unfold State.owed
    rw [stage]
    exact dues_least_of_lookup state key
  have stale : state.stale = state.chunks.tally (fun _ chunk => chunk.stale state.client.location (stagedLength state.here)) := by
    unfold State.stale
    rw [stage]
    rfl
  rw [stale] at within
  unfold Client.loses at client
  split at client
  next =>
    refine .of_stopped (.inr ⟨.worn,by rw [client]; rfl⟩) ?_
    rw [requests,crowd]
    omega
  next more =>
    have left := patience_succ more
    refine .of_attached (by rw [client]; rfl) ?_
    have owes : after.owed = 3 + patience (state.client.broken + 1) := by
      unfold State.owed
      rw [client]
    have counts : after.stale = after.chunks.tally (fun _ chunk => chunk.stale state.client.location (stagedLength state.here)) := by
      unfold State.stale State.here
      rw [client,sessions]
      rfl
    rw [owes,counts,requests,crowd]
    omega

theorem Budget.hears {readable : Bool} (taken : state.hears readable = some after) : Budget after := by
  unfold State.hears at taken
  split at taken
  next key stop stage =>
    split at taken <;> cases taken
    next location offset stop' answer found =>
      have fewer := @tally_erase_le _ _ _ (fun _ chunk => chunk.stale state.client.location (stagedLength state.here))
        state.chunks key
      have within := budget.within
      have owed : state.owed = answer.dues state.here state.client.broken := by
        unfold State.owed
        rw [stage]
        simp only [found,map_some,getD_some,Chunk.dues]
      have stale : state.stale = state.chunks.tally (fun _ chunk => chunk.stale state.client.location (stagedLength state.here)) := by
        unfold State.stale
        rw [stage]
        rfl
      rw [owed,stale] at within
      have few : state.requests ≤ 15 + 2 * state.crowd := by omega
      by_cases clash : answer.status = 409
      · have failed : answer.ok = false := by simp [Answer.ok,clash]
        unfold Client.hears
        simp only [if_pos clash]
        split
        next => exact .of_stopped (.inr ⟨_,rfl⟩) few
        next target told =>
          refine .of_attached rfl ?_
          have header := conflict_realigns told
          rw [Answer.dues,failed,if_neg Bool.false_ne_true,if_pos clash,header,elim_some] at within
          simp only [State.owed,State.stale,State.here,Stage.attached,if_true] at within fewer ⊢
          omega
        next => exact .of_stopped (.inr ⟨_,rfl⟩) few
      · by_cases later : answer.status ∈ TRY_AGAIN_LATER
        · refine budget.of_loses stage ?_ rfl rfl rfl fewer
          unfold Client.hears
          rw [if_neg clash,if_pos later]
        · cases went : answer.ok with
          | true =>
            unfold Client.hears
            simp only [if_neg clash,if_neg later,went,Bool.not_true,Bool.false_eq_true,if_false]
            refine .of_attached rfl ?_
            have close := drift_le state.here stop
            have calm := patience_le 0
            rw [Answer.dues,went,if_pos rfl] at within
            simp only [State.owed,State.stale,State.here,Stage.attached,if_true] at within close fewer ⊢
            omega
          | false =>
            unfold Client.hears
            simp only [if_neg clash,if_neg later,went]
            exact .of_stopped (.inr ⟨_,rfl⟩) few
  next => cases taken

end

theorem stale_row (location length place offset stop : Nat) : (⟨place,offset,stop,.arrived⟩ : Chunk).stale location length = false := by
  simp [Chunk.stale]

theorem Budget.changes (budget : Budget state) {location : Nat} {store : Store} (length : stagedLength store = stagedLength (state.sessions location))
    (drifts : ∀ offset, drift store offset ≤ drift (state.sessions location) offset) : Budget (state.changes location store) := by
  have here : (state.changes location store).here = if state.client.location = location then store else state.here :=
    update_apply ..
  apply budget.around
  · rfl
  · rfl
  · rfl
  · rw [here]
    split
    next same => rw [length,← same]; rfl
    next => rfl
  · rw [here]
    split
    next same => exact fun offset => (drifts offset).trans (by rw [← same]; exact Nat.le_refl _)
    next => exact fun offset => Nat.le_refl _
  · exact fun _ _ _ _ found => found
  · exact Nat.le_refl _

theorem step_budget (kept : Kept file state) (budget : Budget state) {event : Event}
    (taken : step env file state event = some after) : Budget after := by
  cases event with simp only [step] at taken
  | recalls head =>
    split_ifs at taken
    exact budget.recalls taken
  | opens post folder placed => exact budget.starts_post taken
  | sends => exact budget.sends kept taken
  | finishes =>
    split_ifs at taken
    cases taken
    exact .of_stopped (.inl rfl) budget.few
  | unreadable =>
    split_ifs at taken
    cases taken
    exact .of_stopped (.inr ⟨_,rfl⟩) budget.few
  | hears readable => exact budget.hears taken
  | loses =>
    split at taken <;> cases taken
    next key stop stage => exact budget.of_loses stage rfl rfl rfl rfl (Nat.le_refl _)
  | asks head =>
    split_ifs at taken
    exact budget.asks taken
  | turnsAway key refusal =>
    split at taken
    next chunk found =>
      split_ifs at taken with ready
      cases taken
      have thrown : chunk.Thrown (chunk.refused none refusal) := ⟨_,rfl,ready.2,by rw [ready.1]; rfl⟩
      refine budget.calm rfl rfl rfl (owed_served found rfl rfl rfl thrown.fresh (fun offset => Nat.le_add_right _ _) (fun _ => ?_))
      exact (thrown.dues _).trans (Nat.le_add_right _ _)
    next => cases taken
  | works key fates other entryId => exact budget.works kept taken
  | drops key =>
    cases taken
    apply budget.around
    · rfl
    · rfl
    · rfl
    · rfl
    · exact fun offset => Nat.le_refl _
    · intro other stop _ row found
      change (state.chunks.erase key).lookup other = some row at found
      obtain ⟨-,found⟩ := lookup_erase_some found
      exact found
    · exact tally_erase_le _ _
  | intrudes location offset stop =>
    split_ifs at taken
    cases taken
    apply budget.around
    · rfl
    · rfl
    · rfl
    · rfl
    · exact fun offset => Nat.le_refl _
    · intro key stops stage row found
      rcases lookup_insert_cases found with ⟨rfl,-⟩ | ⟨-,old⟩
      · exact absurd (kept.awaiting _ stops stage).1 (Nat.lt_irrefl _)
      · exact old
    · exact tally_insert_le _ _ (stale_row ..)
  | discards location =>
    cases taken
    by_cases length : (state.changes location {state.sessions location with staged := none}).staged state.client.location =
        state.staged state.client.location
    · have settled : state.settles (state.changes location {state.sessions location with staged := none}) =
          state.changes location {state.sessions location with staged := none} := if_pos length
      rw [settled]
      have here : (state.changes location {state.sessions location with staged := none}).here =
          if state.client.location = location then {state.sessions location with staged := none} else state.here :=
        update_apply ..
      apply budget.around
      · rfl
      · rfl
      · rfl
      · exact length
      · intro offset
        have long : stagedLength (state.changes location {state.sessions location with staged := none}).here = stagedLength state.here := length
        have held : recorded (state.changes location {state.sessions location with staged := none}).here = recorded state.here := by
          rw [here]
          split
          next same =>
            rw [← same]
            rfl
          next => rfl
        unfold drift
        rw [long,held]
      · exact fun _ _ _ _ found => found
      · exact Nat.le_refl _
    · exact Budget.settled length rfl budget
  | deletes location =>
    cases taken
    exact budget.changes rfl (fun offset => Nat.zero_le _)
  | occupies location folder placed =>
    cases taken
    exact budget.changes rfl (fun offset => Nat.le_refl _)

theorem budget_first (sessions : Nat → Store) (note : Option Nat) : Budget (.first sessions note) := by
  cases note with
  | none => exact .of_opening rfl (Nat.zero_le _) (by decide)
  | some location =>
    obtain ⟨owed,stale⟩ := @owed_of_apart (.first sessions (some location)) rfl
    constructor
    · exact fun _ => rfl
    · nofun
    · rw [owed,stale]
      exact Nat.zero_le _

/-- Whatever becomes of the requests, and whatever other tabs do: where no conflict moves the uploader to the end of a file
that is not published, and every session it asks for after a lost chunk has some of its bytes recorded and not all, what
`uploadFile` promises holds.
-/
theorem uploads_truly {sessions : Nat → Store} {note : Option Nat} (someone : 0 < file.size) (safe : isSafeInteger file.size = true)
    (ours : ∀ location, note = some location → (sessions location).staged.getD [] <+: file.content) {events : List Event} {final : State}
    (met : Machine.Meets (step env file) (fun state event => event.spares file state = true) (.first sessions note) events)
    (ran : Machine.run (step env file) (.first sessions note) events = some final) : Uploaded file final := by
  obtain ⟨kept,budget⟩ := @Machine.run_invariant _ _ (step env file) _ (fun state => Kept file state ∧ Budget state)
    (fun _ _ _ held spared taken => ⟨step_kept someone safe held.1 spared taken,step_budget held.1 held.2 taken⟩)
    _ _ _ ⟨kept_first ours,budget_first sessions note⟩ met ran
  exact ⟨kept.ended,kept.worn,kept.heeded,budget.few⟩

def surroundings : Surroundings := ⟨fun bytes => bytes,fun _ => [],fun folder => [folder]⟩

def photo : File := ⟨"tatil.jpg",some "fotograflar",[1,2,3]⟩

def nothing : Nat → Store := fun _ => ⟨none,none,false,none,none,[]⟩

def smooth : PatchFates :=
  ⟨.done,.done,.done,.done,.done,.done,.done,.done,.done,.done,.done,.done,.done,.done,.done⟩

def serves (chunk : Nat) : Event := .works chunk smooth ⟨500,"internal-error"⟩ "e"

def resumed : List Event := [.opens (.made 7 true) true none,.intrudes 7 0 1,serves 0,serves 0,serves 0,serves 0,
  .sends,.loses,.asks .handled,.sends,serves 2,serves 2,serves 2,serves 2,serves 2,serves 2,serves 2,.hears true,.finishes]

theorem uploads_truly_resumed : ∃ final, Machine.run (step surroundings photo) (.first nothing none) resumed = some final ∧
    final.client.stage = .ended ∧ final.published = [(7,[1,2,3])] ∧ Uploaded photo final := by
  have runs : (Machine.run (step surroundings photo) (.first nothing none) resumed).any (fun final =>
      final.client.stage = .ended ∧ final.published = [(7,[1,2,3])]) = true := by decide +kernel
  have met : Machine.Meets (step surroundings photo) (fun state event => event.spares photo state = true) (.first nothing none)
      resumed := by decide +kernel
  obtain ⟨final,ran,done⟩ := (any_eq_true _ _).mp runs
  obtain ⟨ended,published⟩ := of_decide_eq_true done
  exact ⟨final,ran,ended,published,uploads_truly (by decide) (by decide) (fun location none' => by cases none') met ran⟩

/-- The folder has no directory and none can be made: the last chunk's conflict carries the offset it has just set. -/
theorem uploads_nothing : ¬∀ (env : Surroundings) (file : File) (sessions : Nat → Store) (note : Option Nat) (events : List Event)
    (final : State), 0 < file.size → isSafeInteger file.size = true →
    (∀ location, note = some location → (sessions location).staged.getD [] <+: file.content) →
    Machine.run (step env file) (.first sessions note) events = some final → Uploaded file final := by
  intro claimed
  have runs : (Machine.run (step surroundings photo) (.first nothing none) [.opens (.made 7 true) false none,.sends,
      serves 0,serves 0,serves 0,serves 0,.works 0 {smooth with materialise := .undone} ⟨500,"internal-error"⟩ "e",
      .hears true,.finishes]).any (fun final => final.client.stage = .ended ∧ final.published = []) = true := by decide +kernel
  obtain ⟨final,ran,done⟩ := (any_eq_true _ _).mp runs
  obtain ⟨ended,published⟩ := of_decide_eq_true done
  have kept := claimed _ _ _ _ _ final (by decide) (by decide) (fun location none' => by cases none') ran
  have there := kept.published ended
  rw [published] at there
  cases there

end Depsis.Files.Uploader

import Depsis.Files.UploaderServed

/-! What the uploader takes for uploaded: its own chunk's handler answers a last chunk only once the file is in place, and
a lost chunk costs one of the retries.
-/
namespace Depsis.Files.Uploader

open Depsis.Foundation Uploads List AList Option Function

variable {env : Surroundings} {file : File} {state after : State}

def Stage.attached : Stage → Bool
  | .sending | .awaiting _ _ | .asking => true
  | _ => false

def State.Published (state : State) (file : File) : Prop := (state.client.location,file.content) ∈ state.published

def Phase.Sound (file : File) (published : Prop) (stop : Nat) : Phase → Prop
  | .arrived => True
  | .loaded upload | .correcting upload _ | .streaming upload | .publishing upload _ => upload.lengthBytes = file.size
  | .stored upload next => upload.lengthBytes = file.size ∧ next = stop
  | .recording _ _ _ | .completing _ _ => published
  | .answered answer => answer.ok = true → file.size ≤ stop → published

structure Kept (file : File) (state : State) : Prop where
  bounded : ∀ key chunk, state.chunks.lookup key = some chunk →
    key < state.arrivals ∧ chunk.offset < chunk.stop ∧ chunk.stop ≤ file.size
  staged : state.client.stage.attached = true ∨ state.client.stage = .recalling →
    (state.sessions state.client.location).staged.getD [] <+: file.content
  sized : state.client.stage.attached = true →
    ∀ row, (state.sessions state.client.location).session = some row → row.lengthBytes = file.size
  awaiting : ∀ key stop, state.client.stage = .awaiting key stop → key < state.arrivals ∧
    ∀ chunk, state.chunks.lookup key = some chunk →
      chunk.location = state.client.location ∧ chunk.stop = stop ∧ chunk.phase.Sound file (state.Published file) stop
  arrived : state.client.stage = .sending → file.size ≤ state.client.offset → state.Published file
  ended : state.client.stage = .ended → state.Published file
  missed : state.missed = state.client.broken
  worn : state.client.stage = .failed .worn → BROKEN_CHUNK_RETRIES < state.missed
  heeded : state.client.stage ≠ .failed .unusable

theorem Phase.Sound.mono {published more : Prop} {stop : Nat} {phase : Phase} (sound : phase.Sound file published stop)
    (grows : published → more) : phase.Sound file more stop := by
  cases phase with
  | recording => exact grows sound
  | completing => exact grows sound
  | answered => exact fun ok last => grows (sound ok last)
  | _ => exact sound

theorem Chunk.Thrown.sound {chunk later : Chunk} (thrown : chunk.Thrown later) (published : Prop) (stop : Nat) :
    later.phase.Sound file published stop := by
  obtain ⟨answer,rfl,refused,-⟩ := thrown
  intro ok
  simp only [Answer.ok,Bool.and_eq_true,decide_eq_true_eq] at ok
  omega

theorem Kept.settles {before : State} (kept : Kept file after) : Kept file (before.settles after) := by
  unfold State.settles
  split
  next => exact kept
  next => exact ⟨kept.bounded,kept.staged,kept.sized,kept.awaiting,kept.arrived,kept.ended,kept.missed,kept.worn,kept.heeded⟩

theorem Kept.of_apart (bounded : ∀ key chunk, after.chunks.lookup key = some chunk →
      key < after.arrivals ∧ chunk.offset < chunk.stop ∧ chunk.stop ≤ file.size)
    (apart : (∃ attempt, after.client.stage = .opening attempt) ∨ ∃ failure, after.client.stage = .failed failure ∧
      (failure = .worn → BROKEN_CHUNK_RETRIES < after.missed) ∧ failure ≠ .unusable)
    (missed : after.missed = after.client.broken) : Kept file after := by
  rcases apart with ⟨attempt,stage⟩ | ⟨failure,stage,worn,usable⟩
  · constructor
    · exact bounded
    · intro live
      rw [stage] at live
      rcases live with live | live <;> cases live
    · intro live
      rw [stage] at live
      cases live
    · intro key stop other
      rw [stage] at other
      cases other
    · intro other
      rw [stage] at other
      cases other
    · intro other
      rw [stage] at other
      cases other
    · exact missed
    all_goals
      intro other
      rw [stage] at other
      cases other
  · constructor
    · exact bounded
    · intro live
      rw [stage] at live
      rcases live with live | live <;> cases live
    · intro live
      rw [stage] at live
      cases live
    · intro key stop other
      rw [stage] at other
      cases other
    · intro other
      rw [stage] at other
      cases other
    · intro other
      rw [stage] at other
      cases other
    · exact missed
    · intro other
      rw [stage] at other
      exact worn (Stage.failed.inj other)
    · intro other
      rw [stage] at other
      exact usable (Stage.failed.inj other)

theorem Kept.of_sending (bounded : ∀ key chunk, after.chunks.lookup key = some chunk →
      key < after.arrivals ∧ chunk.offset < chunk.stop ∧ chunk.stop ≤ file.size)
    (stage : after.client.stage = .sending) (staged : (after.sessions after.client.location).staged.getD [] <+: file.content)
    (sized : ∀ row, (after.sessions after.client.location).session = some row → row.lengthBytes = file.size)
    (arrived : file.size ≤ after.client.offset → after.Published file) (missed : after.missed = after.client.broken) :
    Kept file after := by
  constructor
  · exact bounded
  · exact fun _ => staged
  · exact fun _ => sized
  · intro key stop other
    rw [stage] at other
    cases other
  · exact fun _ => arrived
  · intro other
    rw [stage] at other
    cases other
  · exact missed
  all_goals
    intro other
    rw [stage] at other
    cases other

theorem Kept.around (kept : Kept file state) (client : after.client = state.client) (missed : after.missed = state.missed)
    (published : ∀ pair ∈ state.published, pair ∈ after.published) (arrivals : state.arrivals ≤ after.arrivals)
    (bounded : ∀ key chunk, after.chunks.lookup key = some chunk →
      key < after.arrivals ∧ chunk.offset < chunk.stop ∧ chunk.stop ≤ file.size)
    (staged : (state.sessions state.client.location).staged.getD [] <+: file.content →
      (after.sessions state.client.location).staged.getD [] <+: file.content)
    (sized : ∀ row, (after.sessions state.client.location).session = some row →
      ∃ old, (state.sessions state.client.location).session = some old ∧ row.lengthBytes = old.lengthBytes)
    (awaiting : ∀ key stop chunk, state.client.stage = .awaiting key stop → after.chunks.lookup key = some chunk →
      chunk.location = state.client.location ∧ chunk.stop = stop ∧ chunk.phase.Sound file (after.Published file) stop) :
    Kept file after := by
  have grows : state.Published file → after.Published file := by
    intro there
    unfold State.Published
    rw [client]
    exact published _ there
  constructor
  · exact bounded
  · rw [client]
    exact fun live => staged (kept.staged live)
  · rw [client]
    intro live row found
    obtain ⟨old,there,same⟩ := sized row found
    rw [same]
    exact kept.sized live old there
  · rw [client]
    intro key stop stage
    exact ⟨(kept.awaiting key stop stage).1.trans_le arrivals,fun chunk found => awaiting key stop chunk stage found⟩
  · rw [client]
    exact fun stage last => grows (kept.arrived stage last)
  · rw [client]
    exact fun stage => grows (kept.ended stage)
  · rw [client,missed]
    exact kept.missed
  · rw [client,missed]
    exact kept.worn
  · rw [client]
    exact kept.heeded

theorem slice_fits {start stop : Nat} (staged : List UInt8) (before : staged <+: file.content) (aligned : staged.length = start)
    (forward : start < stop) : staged ++ (file.slice start stop).take (stop - start) <+: file.content := by
  have same : staged = file.content.take start := by
    rw [← aligned]
    exact prefix_iff_eq_take.mp before
  have whole : staged ++ (file.slice start stop).take (stop - start) = file.content.take stop := by
    have short : (file.slice start stop).length ≤ stop - start := by
      simp [File.slice]
      omega
    rw [take_of_length_le short,same,File.slice]
    have cut : file.content.take start = (file.content.take stop).take start := by
      rw [take_take,Nat.min_eq_left forward.le]
    rw [cut,take_append_drop]
  rw [whole]
  exact List.take_prefix _ _

section

variable {chunk later : Chunk} {store there : Store}

theorem Served.staged (served : Served file chunk store later there) (forward : chunk.offset < chunk.stop)
    (before : store.staged.getD [] <+: file.content) : there.staged.getD [] <+: file.content := by
  cases served with
  | thrown still | mismatched _ _ _ _ _ still | loaded _ _ _ _ _ still | measured _ _ still => exact still.staged ▸ before
  | corrected _ _ _ _ staged => exact staged ▸ before
  | appended _ _ aligned _ staged =>
    rw [staged]
    exact slice_fits _ before aligned forward
  | counted _ _ _ _ staged => exact staged ▸ before
  | landed _ _ _ _ published =>
    rw [published.moved]
    exact List.nil_prefix
  | recorded _ _ _ _ still => exact still.staged ▸ before
  | completed _ _ _ _ _ staged => exact staged ▸ before
  | idle _ _ _ still => exact still.staged ▸ before

theorem sized_of_same (same : there.session = store.session) :
    ∀ row, there.session = some row → ∃ old, store.session = some old ∧ row.lengthBytes = old.lengthBytes :=
  fun row found => ⟨row,same ▸ found,rfl⟩

theorem sized_of_map {change : SessionRow → SessionRow} (changed : there.session = store.session.map change)
    (keeps : ∀ row, (change row).lengthBytes = row.lengthBytes) :
    ∀ row, there.session = some row → ∃ old, store.session = some old ∧ row.lengthBytes = old.lengthBytes := by
  intro row found
  rw [changed] at found
  obtain ⟨old,had,rfl⟩ := map_eq_some_iff.mp found
  exact ⟨old,had,keeps old⟩

theorem Served.sized (served : Served file chunk store later there) :
    ∀ row, there.session = some row → ∃ old, store.session = some old ∧ row.lengthBytes = old.lengthBytes := by
  cases served with
  | thrown still | mismatched _ _ _ _ _ still | loaded _ _ _ _ _ still | measured _ _ still => exact sized_of_same still.session
  | corrected _ _ _ session => exact sized_of_map session (fun _ => rfl)
  | appended _ _ _ session => exact sized_of_same session
  | counted _ _ _ session => exact sized_of_map session (fun _ => rfl)
  | landed _ _ _ _ published => exact sized_of_same published.session
  | recorded _ _ _ _ still => exact sized_of_same still.session
  | completed _ _ _ _ session => exact sized_of_map session (fun _ => rfl)
  | idle _ _ _ still => exact sized_of_same still.session

theorem Chunk.Thrown.same (thrown : chunk.Thrown later) :
    later.location = chunk.location ∧ later.offset = chunk.offset ∧ later.stop = chunk.stop := by
  obtain ⟨answer,rfl,-⟩ := thrown
  exact ⟨rfl,rfl,rfl⟩

theorem Served.same (served : Served file chunk store later there) :
    later.location = chunk.location ∧ later.offset = chunk.offset ∧ later.stop = chunk.stop := by
  cases served with
  | thrown _ thrown => exact thrown.same
  | mismatched _ _ _ _ _ _ told => exact told ▸ ⟨rfl,rfl,rfl⟩
  | loaded _ _ _ _ _ _ goes | measured _ _ _ goes => exact goes ▸ ⟨rfl,rfl,rfl⟩
  | corrected _ _ _ _ _ told =>
    rcases told with thrown | told
    · exact thrown.same
    · exact told ▸ ⟨rfl,rfl,rfl⟩
  | appended _ _ _ _ _ goes =>
    rcases goes with thrown | goes
    · exact thrown.same
    · exact goes ▸ ⟨rfl,rfl,rfl⟩
  | counted _ _ _ _ _ goes =>
    rcases goes with thrown | ⟨-,goes⟩ | goes
    · exact thrown.same
    all_goals exact goes ▸ ⟨rfl,rfl,rfl⟩
  | landed _ _ _ _ _ goes =>
    rcases goes with thrown | ⟨bytes,goes⟩
    · exact thrown.same
    · exact goes ▸ ⟨rfl,rfl,rfl⟩
  | recorded _ _ _ _ _ goes => exact goes ▸ ⟨rfl,rfl,rfl⟩
  | completed _ _ _ _ _ _ told =>
    rcases told with thrown | told
    · exact thrown.same
    · exact told ▸ ⟨rfl,rfl,rfl⟩
  | idle _ _ same => exact same ▸ ⟨rfl,rfl,rfl⟩

theorem Served.sound {published more : Prop} (served : Served file chunk store later there) (forward : chunk.offset < chunk.stop)
    (before : store.staged.getD [] <+: file.content)
    (sized : ∀ row, store.session = some row → row.lengthBytes = file.size)
    (sound : chunk.phase.Sound file published chunk.stop) (grows : published → more)
    (lands : ∀ upload next bytes, chunk.phase = .publishing upload next → later.phase = .recording upload next bytes →
      there.placed = some file.content → more) : later.phase.Sound file more chunk.stop := by
  cases served with
  | thrown _ thrown => exact thrown.sound _ _
  | mismatched _ _ _ _ _ _ told =>
    subst told
    exact nofun
  | loaded row _ found _ _ _ goes =>
    subst goes
    exact sized row found
  | measured upload waits _ goes =>
    rw [waits] at sound
    subst goes
    change Phase.Sound file more chunk.stop (if _ then _ else _)
    split
    next => exact sound
    next => exact sound
  | corrected _ _ _ _ _ told =>
    rcases told with thrown | told
    · exact thrown.sound _ _
    · subst told
      exact nofun
  | appended upload waits _ _ _ goes =>
    rw [waits] at sound
    rcases goes with thrown | goes
    · exact thrown.sound _ _
    · subst goes
      exact ⟨sound,by omega⟩
  | counted upload next waits _ _ goes =>
    rw [waits] at sound
    obtain ⟨length,rfl⟩ := sound
    rcases goes with thrown | ⟨short,goes⟩ | goes
    · exact thrown.sound _ _
    · subst goes
      intro _ last
      rw [length] at short
      omega
    · subst goes
      exact length
  | landed upload next waits body published goes =>
    rw [waits] at sound
    rcases goes with thrown | ⟨bytes,goes⟩
    · exact thrown.sound _ _
    · refine goes ▸ lands upload next bytes waits (by rw [goes]) ?_
      have held : body <+: file.content := by simpa [published.staged] using before
      have whole : body = file.content := held.eq_of_length (published.long.trans sound)
      rw [published.placed,whole]
  | recorded _ _ _ waits _ goes =>
    rw [waits] at sound
    subst goes
    exact grows sound
  | completed _ _ waits _ _ _ told =>
    rw [waits] at sound
    rcases told with thrown | told
    · exact thrown.sound _ _
    · subst told
      exact fun _ _ => grows sound
  | idle _ _ same =>
    subst same
    exact sound.mono grows

end

theorem Kept.works (kept : Kept file state) {key : Nat} {fates : PatchFates} {other : Refusal} {entryId : String}
    (taken : state.works env file key fates other entryId = some after) : Kept file after := by
  unfold State.works at taken
  split at taken
  next => cases taken
  next chunk found =>
    obtain ⟨refused,taken⟩ := of_unless taken
    simp only [Option.some.injEq] at taken
    subst taken
    apply Kept.settles
    obtain ⟨early,forward,inside⟩ := kept.bounded key chunk found
    have served := @serve_served env file chunk (state.sessions chunk.location) fates other entryId (not_lt.mp refused)
    generalize went : chunk.serve env file fates other entryId (state.sessions chunk.location) = result at served ⊢
    obtain ⟨later,there⟩ := result
    obtain ⟨place,start,stop⟩ := served.same
    have here : (Function.update state.sessions chunk.location there) state.client.location =
        if state.client.location = chunk.location then there else state.sessions state.client.location := by
      rw [update_apply]
    apply kept.around
    · rfl
    · rfl
    · exact fun pair member => mem_append_left _ member
    · exact Nat.le_refl _
    · intro second stored lookup
      rcases lookup_insert_cases lookup with ⟨rfl,rfl⟩ | ⟨-,old⟩
      · rw [start,stop]
        exact ⟨early,forward,inside⟩
      · exact kept.bounded second stored old
    · intro before
      change (Function.update state.sessions chunk.location there state.client.location).staged.getD [] <+: _
      rw [here]
      split
      next same => exact served.staged forward (same ▸ before)
      next => exact before
    · change ∀ row, (Function.update state.sessions chunk.location there state.client.location).session = some row → _
      rw [here]
      split
      next same => exact same ▸ served.sized
      next => exact fun row held => ⟨row,held,rfl⟩
    · intro second stops stored stage lookup
      obtain ⟨-,own⟩ := kept.awaiting second stops stage
      rcases lookup_insert_cases lookup with ⟨rfl,rfl⟩ | ⟨-,old⟩
      · obtain ⟨at',until',sound⟩ := own chunk found
        refine ⟨place.trans at',stop.trans until',?_⟩
        subst until'
        have live : state.client.stage.attached = true := by rw [stage]; rfl
        refine served.sound forward (at' ▸ kept.staged (.inl live)) (at' ▸ kept.sized live) sound ?_ ?_
        · exact fun held => mem_append_left _ held
        · intro upload next bytes publishing recording placed
          apply mem_append_right
          rw [publishing,recording,placed,at']
          exact mem_singleton.mpr rfl
      · obtain ⟨at',until',sound⟩ := own stored old
        exact ⟨at',until',sound.mono (fun held => mem_append_left _ held)⟩

theorem resumeOffset_some {head : Head} {size offset : Nat} (resumed : resumeOffset head size = some offset) :
    head.status = 200 ∧ head.length = some size ∧ head.offset = some offset ∧ 0 < offset ∧ offset < size := by
  unfold resumeOffset at resumed
  split_ifs at resumed with status length
  split at resumed
  next => cases resumed
  next given there =>
    split_ifs at resumed with outside
    cases resumed
    simp only [Bool.or_eq_true,decide_eq_true_eq,not_or] at outside
    exact ⟨not_not.mp status,not_not.mp length,there,by omega,by omega⟩

theorem number_some {value read : Nat} (told : number value = some read) : read = value := by
  unfold number at told
  split_ifs at told
  exact (Option.some.inj told).symm

theorem headOf_none {store : Store} (gone : store.session = none) : headOf store = ⟨404,none,none⟩ := by
  obtain ⟨session,staged,folder,placed,entry,journal⟩ := store
  cases gone
  rfl

theorem headOf_some {store : Store} {row : SessionRow} (found : store.session = some row) :
    headOf store = ⟨200,number row.offsetBytes,number row.lengthBytes⟩ := by
  obtain ⟨session,staged,folder,placed,entry,journal⟩ := store
  cases found
  rfl

theorem probe_resumes {location : Nat} {head : Probe} {told : Head} {size offset : Nat} (asked : state.probe location head = some told)
    (resumed : resumeOffset told size = some offset) :
    head = .handled ∧ ∃ row, (state.sessions location).session = some row ∧ row.lengthBytes = size ∧ row.offsetBytes = offset := by
  obtain ⟨-,length,place,-⟩ := resumeOffset_some resumed
  cases head with
  | lost => cases asked
  | refused refusal =>
    cases asked
    cases length
  | handled =>
    refine ⟨rfl,?_⟩
    cases asked
    cases found : (state.sessions location).session with
    | none =>
      rw [headOf_none found] at length
      cases length
    | some row =>
      rw [headOf_some found] at length place
      exact ⟨row,rfl,(number_some length).symm,(number_some place).symm⟩

theorem probe_used {head : Probe} {told : Head}
    (sized : ∀ row, (state.sessions state.client.location).session = some row → row.lengthBytes = file.size)
    (spared : Event.spares file state (.asks head) = true) (allowed : head.allowed = true)
    (asked : state.probe state.client.location head = some told) (answered : told.status = 200)
    (safe : isSafeInteger file.size = true) : resumeOffset told file.size ≠ none := by
  cases head with
  | lost => cases asked
  | refused refusal =>
    cases asked
    have refused : 400 ≤ refusal.status := of_decide_eq_true allowed
    simp only at answered
    omega
  | handled =>
    cases asked
    cases found : (state.sessions state.client.location).session with
    | none =>
      rw [headOf_none found] at answered
      cases answered
    | some row =>
      simp only [Event.spares,found,all_some,Bool.and_eq_true,decide_eq_true_eq] at spared
      obtain ⟨some',short⟩ := spared
      have little : isSafeInteger row.offsetBytes = true := by
        simp only [isSafeInteger,Bool.and_eq_true,decide_eq_true_eq] at safe ⊢
        omega
      rw [headOf_some found,sized row found]
      simp only [number,little,safe,resumeOffset,if_true]
      rw [if_neg (by simp),if_neg (by simp),if_neg (by simp; omega)]
      exact nofun

section

variable (kept : Kept file state)

include kept

theorem Kept.recalls {head : Probe} (taken : state.recalls file head = some after) : Kept file after := by
  unfold State.recalls at taken
  split at taken
  next stage =>
    simp only [] at taken
    split at taken
    next =>
      cases taken
      exact .of_apart kept.bounded (.inl ⟨1,rfl⟩) kept.missed
    next offset resumed =>
      cases taken
      obtain ⟨told,asked,resumes⟩ := bind_eq_some_iff.mp resumed
      obtain ⟨-,-,-,-,short⟩ := resumeOffset_some resumes
      obtain ⟨-,row,found,sized,-⟩ := probe_resumes asked resumes
      refine .of_sending kept.bounded rfl (kept.staged (.inr stage)) (fun other held => ?_) (fun last => ?_) kept.missed
      · have same := found.symm.trans held
        cases same
        exact sized
      · exact absurd short (Nat.not_lt.mpr last)
  next => cases taken

theorem Kept.starts_post (someone : 0 < file.size) {post : Posting} {folder : Bool} {placed : Option (List UInt8)}
    (taken : state.opens file post folder placed = some after) : Kept file after := by
  have made {middle : State} {location : Nat}
      (created : State.creates {state with requests := state.requests + 1} file location folder placed = some middle) :
      ∀ key chunk, middle.chunks.lookup key = some chunk → key < middle.arrivals ∧ chunk.offset < chunk.stop ∧ chunk.stop ≤ file.size := by
    unfold State.creates at created
    split_ifs at created
    cases created
    exact kept.bounded
  unfold State.opens at taken
  split at taken
  next attempt stage =>
    simp only [] at taken
    split at taken
    · cases taken
      exact .of_apart kept.bounded (.inr ⟨.network,rfl,nofun,nofun⟩) kept.missed
    · obtain ⟨middle,created,rfl⟩ := map_eq_some_iff.mp taken
      have bounded := made created
      refine .of_apart bounded (.inr ⟨.network,rfl,nofun,nofun⟩) ?_
      unfold State.creates at created
      split_ifs at created
      cases created
      exact kept.missed
    · split_ifs at taken
      · cases taken
        exact .of_apart kept.bounded (.inr ⟨_,rfl,nofun,nofun⟩) kept.missed
      · cases taken
        exact .of_apart kept.bounded (.inl ⟨_,rfl⟩) kept.missed
    · obtain ⟨middle,created,rfl⟩ := map_eq_some_iff.mp taken
      have bounded := made created
      refine .of_apart bounded (.inr ⟨.noAddress,rfl,nofun,nofun⟩) ?_
      unfold State.creates at created
      split_ifs at created
      cases created
      exact kept.missed
    · rename_i location
      obtain ⟨middle,created,rfl⟩ := map_eq_some_iff.mp taken
      have bounded := made created
      unfold State.creates at created
      split_ifs at created
      cases created
      have here : (Function.update state.sessions location (freshStore file folder placed)) location = freshStore file folder placed :=
        update_self ..
      apply Kept.of_sending
      · exact bounded
      · rfl
      · change (Function.update state.sessions location (freshStore file folder placed) location).staged.getD [] <+: _
        rw [here]
        exact List.nil_prefix
      · change ∀ row, (Function.update state.sessions location (freshStore file folder placed) location).session = some row → _
        rw [here]
        intro row held
        cases held
        rfl
      · intro last
        exact absurd someone (Nat.not_lt.mpr last)
      · exact kept.missed
  next => cases taken

theorem Kept.sends (taken : state.sends file = some after) : Kept file after := by
  unfold State.sends at taken
  simp only [] at taken
  split_ifs at taken with ready
  obtain ⟨stage,short⟩ := ready
  cases taken
  have live : state.client.stage.attached = true := by rw [stage]; rfl
  have forward : state.client.offset < min (state.client.offset + CHUNK_BYTES) file.size := by
    simp only [CHUNK_BYTES]
    omega
  constructor
  · intro key chunk found
    rcases lookup_insert_cases found with ⟨rfl,rfl⟩ | ⟨-,old⟩
    · exact ⟨Nat.lt_succ_self _,forward,Nat.min_le_right _ _⟩
    · obtain ⟨early,rest⟩ := kept.bounded key chunk old
      exact ⟨early.trans (Nat.lt_succ_self _),rest⟩
  · exact fun _ => kept.staged (.inl live)
  · exact fun _ => kept.sized live
  · intro key stop stage
    cases stage
    refine ⟨Nat.lt_succ_self _,fun chunk found => ?_⟩
    rcases lookup_insert_cases found with ⟨-,rfl⟩ | ⟨other,-⟩
    · exact ⟨rfl,rfl,trivial⟩
    · exact absurd rfl other
  · nofun
  · nofun
  · exact kept.missed
  · nofun
  · nofun

theorem Kept.of_loses {key stop : Nat} (stage : state.client.stage = .awaiting key stop)
    (client : after.client = state.client.loses) (missed : after.missed = state.missed + 1)
    (sessions : after.sessions = state.sessions)
    (bounded : ∀ key chunk, after.chunks.lookup key = some chunk →
      key < after.arrivals ∧ chunk.offset < chunk.stop ∧ chunk.stop ≤ file.size) : Kept file after := by
  have live : state.client.stage.attached = true := by rw [stage]; rfl
  have counted : after.missed = after.client.broken := by
    rw [client,missed,kept.missed]
    unfold Client.loses
    split <;> rfl
  unfold Client.loses at client
  split at client
  next many =>
    refine .of_apart bounded (.inr ⟨.worn,by rw [client]; rfl,fun _ => ?_,nofun⟩) counted
    rw [missed,kept.missed]
    exact many
  next =>
    constructor
    · exact bounded
    · rw [client,sessions]
      exact fun _ => kept.staged (.inl live)
    · rw [client,sessions]
      exact fun _ => kept.sized live
    · rw [client]
      nofun
    · rw [client]
      nofun
    · rw [client]
      nofun
    · exact counted
    all_goals
      rw [client]
      nofun

theorem Kept.asks (safe : isSafeInteger file.size = true) {head : Probe} (allowed : head.allowed = true) (spared : Event.spares file state (.asks head) = true)
    (taken : state.asks file head = some after) : Kept file after := by
  unfold State.asks at taken
  split at taken
  next stage =>
    have live : state.client.stage.attached = true := by rw [stage]; rfl
    simp only [] at taken
    split at taken
    next =>
      cases taken
      exact .of_apart kept.bounded (.inr ⟨.unanswered,rfl,by rintro ⟨⟩,by rintro ⟨⟩⟩) kept.missed
    next told asked =>
      split at taken
      next offset resumed =>
        cases taken
        obtain ⟨-,-,-,-,short⟩ := resumeOffset_some resumed
        exact .of_sending kept.bounded rfl (kept.staged (.inl live)) (kept.sized live)
          (fun last => absurd short (Nat.not_lt.mpr last)) kept.missed
      next useless =>
        cases taken
        refine .of_apart kept.bounded (.inr ⟨_,rfl,?_,?_⟩) kept.missed
        · split <;> rintro ⟨⟩
        · split
          next answered => exact absurd useless (probe_used (kept.sized live) spared allowed asked answered safe)
          next => rintro ⟨⟩
  next => cases taken

theorem Kept.hears {readable : Bool} (spared : Event.spares file state (.hears readable) = true)
    (taken : state.hears readable = some after) : Kept file after := by
  unfold State.hears at taken
  split at taken
  next key stop stage =>
    split at taken <;> cases taken
    next location offset stop' answer found =>
      have live : state.client.stage.attached = true := by rw [stage]; rfl
      obtain ⟨-,own⟩ := kept.awaiting key stop stage
      obtain ⟨-,-,sound⟩ := own _ found
      have bounded : ∀ other chunk, (state.chunks.erase key).lookup other = some chunk →
          other < state.arrivals ∧ chunk.offset < chunk.stop ∧ chunk.stop ≤ file.size := by
        intro other chunk there
        obtain ⟨-,there⟩ := lookup_erase_some there
        exact kept.bounded other chunk there
      by_cases clash : answer.status = 409
      · have quiet : answer.status ∉ TRY_AGAIN_LATER := by rw [clash]; decide
        have failed : answer.ok = false := by simp [Answer.ok,clash]
        rw [if_neg quiet,failed,if_neg Bool.false_ne_true]
        unfold Client.hears
        rw [if_pos clash]
        split
        next =>
          exact .of_apart bounded (.inr ⟨.nameClash,rfl,nofun,nofun⟩) kept.missed
        next target told =>
          refine .of_sending bounded rfl (kept.staged (.inl live)) (kept.sized live) (fun last => ?_) kept.missed
          have read : state.conflict readable = some (.realign target) := by
            simp only [State.conflict,stage,found,if_pos clash,told]
          simp only [Event.spares,read,Bool.or_eq_true,decide_eq_true_eq] at spared
          rcases spared with short | there
          · exact absurd short (Nat.not_lt.mpr last)
          · exact there
        next =>
          exact .of_apart bounded (.inr ⟨_,rfl,nofun,nofun⟩) kept.missed
      · by_cases later : answer.status ∈ TRY_AGAIN_LATER
        · rw [if_pos later]
          refine kept.of_loses stage ?_ rfl rfl bounded
          unfold Client.hears
          rw [if_neg clash,if_pos later]
        · rw [if_neg later]
          cases went : answer.ok with
          | true =>
            unfold Client.hears
            rw [if_neg clash,if_neg later,went]
            exact .of_sending bounded rfl (kept.staged (.inl live)) (kept.sized live) (fun last => sound went last) rfl
          | false =>
            unfold Client.hears
            rw [if_neg clash,if_neg later,went]
            exact .of_apart bounded (.inr ⟨_,rfl,nofun,nofun⟩) kept.missed
  next => cases taken

end

theorem Kept.changes (kept : Kept file state) {location : Nat} {store : Store}
    (staged : (state.sessions location).staged.getD [] <+: file.content → store.staged.getD [] <+: file.content)
    (sized : ∀ row, store.session = some row →
      ∃ old, (state.sessions location).session = some old ∧ row.lengthBytes = old.lengthBytes) :
    Kept file (state.changes location store) := by
  apply kept.around
  · rfl
  · rfl
  · exact fun _ member => member
  · exact Nat.le_refl _
  · exact kept.bounded
  · intro before
    change (Function.update state.sessions location store state.client.location).staged.getD [] <+: _
    rw [update_apply]
    split
    next same => exact staged (same ▸ before)
    next => exact before
  · change ∀ row, (Function.update state.sessions location store state.client.location).session = some row → _
    rw [update_apply]
    split
    next same => exact same ▸ sized
    next => exact fun row held => ⟨row,held,rfl⟩
  · exact fun key stop chunk stage found => (kept.awaiting key stop stage).2 chunk found

theorem step_kept (someone : 0 < file.size) (safe : isSafeInteger file.size = true) (kept : Kept file state) {event : Event}
    (spared : event.spares file state = true) (taken : step env file state event = some after) : Kept file after := by
  cases event with simp only [step] at taken
  | recalls head =>
    split_ifs at taken
    exact kept.recalls taken
  | opens post folder placed => exact kept.starts_post someone taken
  | sends => exact kept.sends taken
  | finishes =>
    split_ifs at taken with ready
    cases taken
    have done := kept.arrived ready.1 ready.2
    constructor
    · exact kept.bounded
    · intro live
      rcases live with live | live <;> cases live
    · nofun
    · nofun
    · nofun
    · exact fun _ => done
    · exact kept.missed
    · nofun
    · nofun
  | unreadable =>
    split_ifs at taken
    cases taken
    exact .of_apart kept.bounded (.inr ⟨.unreadable,rfl,nofun,nofun⟩) kept.missed
  | hears readable => exact kept.hears spared taken
  | loses =>
    split at taken <;> cases taken
    next key stop stage => exact kept.of_loses stage rfl rfl rfl kept.bounded
  | asks head =>
    split_ifs at taken with allowed
    exact kept.asks safe allowed spared taken
  | turnsAway key refusal =>
    split at taken
    next chunk found =>
      split_ifs at taken with ready
      cases taken
      have thrown : chunk.Thrown (chunk.refused none refusal) := ⟨_,rfl,ready.2,by rw [ready.1]; rfl⟩
      apply kept.around
      · rfl
      · rfl
      · exact fun _ member => member
      · exact Nat.le_refl _
      · intro second stored lookup
        rcases lookup_insert_cases lookup with ⟨rfl,rfl⟩ | ⟨-,old⟩
        · exact kept.bounded _ chunk found
        · exact kept.bounded second stored old
      · exact fun before => before
      · exact fun row held => ⟨row,held,rfl⟩
      · intro second stop stored stage lookup
        obtain ⟨-,own⟩ := kept.awaiting second stop stage
        rcases lookup_insert_cases lookup with ⟨rfl,rfl⟩ | ⟨-,old⟩
        · obtain ⟨place,until',-⟩ := own chunk found
          exact ⟨place,until',thrown.sound _ _⟩
        · exact own stored old
    next => cases taken
  | works key fates other entryId => exact kept.works taken
  | drops key =>
    cases taken
    have left {other : Nat} {chunk : Chunk} (found : (state.chunks.erase key).lookup other = some chunk) :
        state.chunks.lookup other = some chunk := by
      obtain ⟨-,found⟩ := lookup_erase_some found
      exact found
    apply kept.around
    · rfl
    · rfl
    · exact fun _ member => member
    · exact Nat.le_refl _
    · exact fun other chunk found => kept.bounded other chunk (left found)
    · exact fun before => before
    · exact fun row held => ⟨row,held,rfl⟩
    · exact fun other stop chunk stage found => (kept.awaiting other stop stage).2 chunk (left found)
  | intrudes location offset stop =>
    split_ifs at taken with fits
    cases taken
    apply kept.around
    · rfl
    · rfl
    · exact fun _ member => member
    · exact Nat.le_succ _
    · intro key chunk found
      rcases lookup_insert_cases found with ⟨rfl,rfl⟩ | ⟨-,old⟩
      · exact ⟨Nat.lt_succ_self _,fits⟩
      · obtain ⟨early,rest⟩ := kept.bounded key chunk old
        exact ⟨early.trans (Nat.lt_succ_self _),rest⟩
    · exact fun before => before
    · exact fun row held => ⟨row,held,rfl⟩
    · intro key until' chunk stage found
      obtain ⟨early,own⟩ := kept.awaiting key until' stage
      rcases lookup_insert_cases found with ⟨rfl,-⟩ | ⟨-,old⟩
      · exact absurd early (Nat.lt_irrefl _)
      · exact own chunk old
  | discards location =>
    cases taken
    apply Kept.settles
    apply kept.changes
    · exact fun _ => List.nil_prefix
    · exact sized_of_same rfl
  | deletes location =>
    cases taken
    apply kept.changes
    · exact fun before => before
    · exact nofun
  | occupies location folder placed =>
    cases taken
    apply kept.changes
    · exact fun before => before
    · exact sized_of_same rfl

theorem kept_first {sessions : Nat → Store} {note : Option Nat}
    (ours : ∀ location, note = some location → (sessions location).staged.getD [] <+: file.content) :
    Kept file (.first sessions note) := by
  have none' (key : Nat) (chunk : Chunk) : (∅ : Table Nat Chunk).lookup key ≠ some chunk := by simp
  cases note with
  | none => exact .of_apart (fun key chunk found => absurd found (none' key chunk)) (.inl ⟨1,rfl⟩) rfl
  | some location =>
    constructor
    · exact fun key chunk found => absurd found (none' key chunk)
    · exact fun _ => ours location rfl
    · nofun
    · nofun
    · nofun
    · nofun
    · rfl
    · nofun
    · nofun

end Depsis.Files.Uploader

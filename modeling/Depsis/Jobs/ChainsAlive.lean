import Depsis.Jobs.Chains

/-! A chain stays alive where no claim takes its last promising row for the last attempt. Every
statement keeps the rows apart in the indexes, and a promising row stays one or leaves another.
-/
namespace Depsis.Jobs.Chains
open Depsis.Foundation List AList Option Function Bool Machine

variable {uuidv7 : Nat → JobId} {maxAttempts : String → Int} {queue next : Queue} {id other : JobId} {now : Instant}

variable (uuidv7) in
structure Moves (before after : Queue) : Prop where
  sound : Sound uuidv7 after
  tidy : Tidy after
  carries : Carries before after

theorem Moves.stays (sound : Sound uuidv7 queue) (tidy : Tidy queue) : Moves uuidv7 queue queue :=
  ⟨sound,tidy,.refl queue⟩

structure Resembles (later row : Job) : Prop where
  chain : chain later = chain row
  status : later.status = row.status
  attempt : later.attempt = row.attempt
  maxAttempts : later.maxAttempts = row.maxAttempts
  workerId : later.workerId = row.workerId

theorem Resembles.refl (row : Job) : Resembles row row := ⟨rfl,rfl,rfl,rfl,rfl⟩

theorem update_other {job : Job} (updated : queue.update id job = .ok next) (apart : other ≠ id) :
    next.queue.lookup other = queue.queue.lookup other := by
  obtain ⟨stored,-,rfl⟩ := update_ok updated
  exact lookup_insert_ne apart

theorem update_self {job : Job} (updated : queue.update id job = .ok next) :
    ∃ row, next.queue.lookup id = some row ∧ row.val = job := by
  obtain ⟨stored,shape,rfl⟩ := update_ok updated
  exact ⟨stored,lookup_insert _,shape⟩

theorem checked_violates {job : Job} {raised : Raised} (refused : checked job = .error raised) : raised = .checkViolation := by
  unfold checked at refused
  split at refused <;> cases refused
  rfl

theorem update_taken {job : Job} {index : String} (refused : queue.update id job = .error (.uniqueViolation index)) :
    queue.conflict id job = some index := by
  unfold Queue.update at refused
  split at refused
  next raised violated =>
    cases refused
    cases checked_violates violated
  next =>
    split at refused <;> cases refused
    next named clash => exact clash

theorem archive_other {settle : Job → Job} (archived : archive queue now settle id = .ok next) (apart : other ≠ id) :
    next.queue.lookup other = queue.queue.lookup other := by
  cases found : queue.queue.lookup id with
  | none =>
    simp only [archive,found] at archived
    cases archived
    rfl
  | some row =>
    obtain ⟨past,-,-,rfl⟩ := archive_ok found archived
    exact lookup_erase_ne apart

theorem archive_gone {settle : Job → Job} (archived : archive queue now settle id = .ok next) :
    next.queue.lookup id = none := by
  cases found : queue.queue.lookup id with
  | none =>
    simp only [archive,found] at archived
    cases archived
    exact found
  | some row =>
    obtain ⟨past,-,-,rfl⟩ := archive_ok found archived
    exact lookup_erase _ _

theorem archives_tidy {settle : Job → Job} {ids : List JobId} (tidy : Tidy queue)
    (ran : ids.foldlM (fun queue id => archive queue now settle id) queue = .ok next) :
    Tidy next ∧ Carries queue next ∧ (∀ other, other ∉ ids → next.queue.lookup other = queue.queue.lookup other) ∧
      ∀ other row, next.queue.lookup other = some row → queue.queue.lookup other = some row := by
  induction ids generalizing queue with
  | nil =>
    cases ran
    exact ⟨tidy,.refl _,fun _ _ => rfl,fun _ _ found => found⟩
  | cons first rest ih =>
    rw [foldlM_cons] at ran
    cases archived : archive queue now settle first with
    | error raised => rw [archived] at ran; cases ran
    | ok middle =>
      rw [archived] at ran
      obtain ⟨there,carried⟩ := archive_tidy tidy archived
      obtain ⟨tidied,carries,same,earlier⟩ := ih there ran
      refine ⟨tidied,carried.trans carries,?_,?_⟩
      · intro other outside
        obtain ⟨apart,outside⟩ := not_or.mp (mem_cons.not.mp outside)
        exact (same other outside).trans (archive_other archived apart)
      · intro other row found
        have between := earlier other row found
        by_cases here : other = first
        · rw [here,archive_gone archived] at between
          cases between
        · rwa [archive_other archived here] at between

variable {worker : String} {kinds : List String} {leaseSecs : Option Int} {skippedReaping skippedPicking : List JobId}
  {answer : Option JobId} {row : Row}

theorem exhausted_spent (member : id ∈ exhausted queue now kinds skippedReaping) :
    ∃ row, queue.queue.lookup id = some row ∧ row.val.maxAttempts ≤ row.val.attempt := by
  obtain ⟨⟨id,row⟩,inside,rfl⟩ := mem_map.mp member
  obtain ⟨stored,spent⟩ := mem_filter.mp inside
  simp only [and_eq_true,decide_eq_true_eq] at spent
  exact ⟨row,mem_rows.mp stored,spent.1.1.2⟩

theorem claim_moves (sound : Sound uuidv7 queue) (tidy : Tidy queue)
    (claimed : claimJob queue now worker kinds leaseSecs skippedReaping skippedPicking = .ok (answer,next)) :
    Moves uuidv7 queue next := by
  have sound := (claim_advances sound claimed).sound
  obtain ⟨middle,reaped,⟨rfl,rfl⟩ | ⟨id,row,rfl,found,-,updated⟩⟩ := claim_ok claimed
  · obtain ⟨tidied,carries,-,-⟩ := archives_tidy tidy reaped
    exact ⟨sound,tidied,carries⟩
  · obtain ⟨tidied,carries,-,-⟩ := archives_tidy tidy reaped
    refine ⟨sound,update_tidy tidied updated ?_,carries.trans (update_carries found (by rfl) updated)⟩
    nofun

theorem claim_other (tidy : Tidy queue)
    (claimed : claimJob queue now worker kinds leaseSecs skippedReaping skippedPicking = .ok (answer,next))
    (found : queue.queue.lookup id = some row) (left : row.val.attempt < row.val.maxAttempts) (apart : answer ≠ some id) :
    next.queue.lookup id = some row := by
  obtain ⟨middle,reaped,rest⟩ := claim_ok claimed
  obtain ⟨-,-,same,-⟩ := archives_tidy tidy reaped
  have there : middle.queue.lookup id = some row := by
    rw [same id ?_,found]
    intro member
    obtain ⟨spent,stored,out⟩ := exhausted_spent member
    cases found.symm.trans stored
    omega
  rcases rest with ⟨-,rfl⟩ | ⟨taken,_,rfl,-,-,updated⟩
  · exact there
  · rw [update_other updated (fun here => apart (congrArg some here.symm)),there]

theorem claim_taken (tidy : Tidy queue)
    (claimed : claimJob queue now worker kinds leaseSecs skippedReaping skippedPicking = .ok (some id,next)) :
    ∃ row later, queue.queue.lookup id = some row ∧ next.queue.lookup id = some later ∧
      later.val = row.val.claimed now worker leaseSecs := by
  obtain ⟨middle,reaped,⟨absurd,-⟩ | ⟨taken,row,same,found,-,updated⟩⟩ := claim_ok claimed
  · cases absurd
  · cases same
    obtain ⟨-,-,-,earlier⟩ := archives_tidy tidy reaped
    obtain ⟨later,there,shape⟩ := update_self updated
    exact ⟨row,later,earlier id row found,there,shape⟩

theorem heartbeat_moves (sound : Sound uuidv7 queue) (tidy : Tidy queue) (progress : Option Rat) :
    Moves uuidv7 queue (committed queue (heartbeatJob queue now id worker leaseSecs progress)) ∧
      ∀ other row, queue.queue.lookup other = some row →
        ∃ later, (committed queue (heartbeatJob queue now id worker leaseSecs progress)).queue.lookup other = some later ∧
          Resembles later.val row.val := by
  cases beaten : heartbeatJob queue now id worker leaseSecs progress with
  | error raised => exact ⟨.stays sound tidy,fun _ row found => ⟨row,found,.refl _⟩⟩
  | ok pair =>
    obtain ⟨told,after⟩ := pair
    have sound := (heartbeat_advances sound beaten).sound
    simp only [committed]
    unfold heartbeatJob at beaten
    split at beaten
    next =>
      cases beaten
      exact ⟨.stays sound tidy,fun _ row found => ⟨row,found,.refl _⟩⟩
    next row found =>
      split at beaten
      next held =>
        cases updated : queue.update id (row.val.extended now leaseSecs progress) with
        | error raised => rw [updated] at beaten; cases beaten
        | ok final =>
          rw [updated] at beaten
          cases beaten
          refine ⟨⟨sound,update_tidy tidy updated (tidy.unspent id row found),update_carries found (by rfl) updated⟩,?_⟩
          intro other old there
          by_cases here : other = id
          · cases here
            cases found.symm.trans there
            obtain ⟨later,stored,shape⟩ := update_self updated
            exact ⟨later,stored,by rw [shape]; exact ⟨rfl,rfl,rfl,rfl,rfl⟩⟩
          · exact ⟨old,(update_other updated here).trans there,.refl _⟩
      next =>
        cases beaten
        exact ⟨.stays sound tidy,fun _ row found => ⟨row,found,.refl _⟩⟩

variable {outcome error : Option String} {status : Status} {entry : String × String × Option String}

private theorem conclude_moves (sound : Sound uuidv7 next) (tidy : Tidy queue) {told : Option Outcome}
    (concluded : conclude queue now id status error = .ok (told,next)) :
    Moves uuidv7 queue next ∧ ∀ other, other ≠ id → next.queue.lookup other = queue.queue.lookup other := by
  unfold conclude at concluded
  cases archived : archive queue now (Job.finished now status error) id with
  | error raised => rw [archived] at concluded; cases concluded
  | ok final =>
    rw [archived] at concluded
    cases concluded
    obtain ⟨tidied,carries⟩ := archive_tidy tidy archived
    exact ⟨⟨sound,tidied,carries⟩,fun other apart => archive_other archived apart⟩

theorem finish_moves (sound : Sound uuidv7 queue) (tidy : Tidy queue) :
    Moves uuidv7 queue (committed queue (finishJob queue now id worker outcome error)) ∧
      ∀ other, other ≠ id → (committed queue (finishJob queue now id worker outcome error)).queue.lookup other =
        queue.queue.lookup other := by
  cases finished : finishJob queue now id worker outcome error with
  | error raised => exact ⟨.stays sound tidy,fun _ _ => rfl⟩
  | ok pair =>
    obtain ⟨told,after⟩ := pair
    have sounder := (finish_advances sound finished).sound
    simp only [committed]
    unfold finishJob at finished
    split at finished
    next => cases finished
    split at finished
    next =>
      cases finished
      exact ⟨.stays sound tidy,fun _ _ => rfl⟩
    next row found =>
      split at finished
      next =>
        cases finished
        exact ⟨.stays sound tidy,fun _ _ => rfl⟩
      next =>
        split at finished
        next => exact conclude_moves sounder tidy finished
        next =>
          split at finished
          next => exact conclude_moves sounder tidy finished
          next left =>
            split at finished
            next => cases finished
            next delay power =>
              split at finished
              next final updated =>
                cases finished
                refine ⟨⟨sounder,update_tidy tidy updated (fun _ => Int.not_le.mp left),
                  update_carries found (by rfl) updated⟩,fun other apart => update_other updated apart⟩
              next => exact conclude_moves sounder tidy finished
              next => cases finished

theorem finish_refused (found : queue.queue.lookup id = some row) (free : row.val.heldBy worker now = false) :
    committed queue (finishJob queue now id worker outcome error) = queue := by
  unfold finishJob
  split
  next => rfl
  next => simp [found,free,committed]

theorem finish_failed (found : queue.queue.lookup id = some row) (mine : chain row.val = some entry)
    (left : row.val.attempt < row.val.maxAttempts) :
    ∃ other later, (committed queue (finishJob queue now id worker (some "failed") error)).queue.lookup other = some later ∧
      chain later.val = some entry ∧ (later.val.status = .queued ∨ other = id ∧ later = row) := by
  have stays (same : committed queue (finishJob queue now id worker (some "failed") error) = queue) :
      ∃ other later, (committed queue (finishJob queue now id worker (some "failed") error)).queue.lookup other = some later ∧
        chain later.val = some entry ∧ (later.val.status = .queued ∨ other = id ∧ later = row) :=
    ⟨id,row,by rw [same]; exact found,mine,.inr ⟨rfl,rfl⟩⟩
  cases held : row.val.heldBy worker now with
  | false => exact stays (finish_refused found held)
  | true =>
    cases power : backoff row.val.attempt with
    | error raised => exact stays (by simp [finishJob,found,held,outcomeKnown,Int.not_le.mpr left,power,committed])
    | ok delay =>
      cases updated : queue.update id (row.val.retried now error delay) with
      | ok final =>
        obtain ⟨later,stored,same⟩ := update_self updated
        have shape : finishJob queue now id worker (some "failed") error = .ok (some .requeued,final) := by
          simp [finishJob,found,held,outcomeKnown,Int.not_le.mpr left,power,updated]
        exact ⟨id,later,by rw [shape]; exact stored,by rw [same]; exact mine,.inl (by rw [same]; rfl)⟩
      | error raised =>
        cases raised with
        | uniqueViolation index =>
          obtain ⟨other,twin,its,apart,stored,making,same⟩ := conflict_some (update_taken updated)
          obtain ⟨queued,chained⟩ := queued_of_entry same
          have alike : some its = some entry := (queued_of_entry making).2.symm.trans mine
          refine ⟨other,twin,?_,chained.trans alike,.inl queued⟩
          have shape : finishJob queue now id worker (some "failed") error = conclude queue now id .failed error := by
            simp [finishJob,found,held,outcomeKnown,Int.not_le.mpr left,power,updated]
          rw [shape]
          cases concluded : conclude queue now id .failed error with
          | error raised => exact stored
          | ok pair =>
            unfold conclude at concluded
            cases archived : archive queue now (Job.finished now .failed error) id with
            | error raised => rw [archived] at concluded; cases concluded
            | ok final =>
              rw [archived] at concluded
              cases concluded
              exact (archive_other archived apart).trans stored
        | checkViolation => exact stays (by simp [finishJob,found,held,outcomeKnown,Int.not_le.mpr left,power,updated,committed])
        | numericValueOutOfRange | exception message =>
          exact stays (by simp [finishJob,found,held,outcomeKnown,Int.not_le.mpr left,power,updated,committed])

theorem fresh_unknown (unique : Function.Injective uuidv7) (sound : Sound uuidv7 queue) :
    ¬queue.Known (uuidv7 queue.drawn) := by
  intro known
  obtain ⟨draw,bound,drew⟩ := sound.issued _ known
  exact absurd (unique drew) (by omega)

theorem insert_cases {job : Job} (inserted : queue.insert id job = .ok next) :
    ∃ row : Row, row.val = job ∧ queue.conflict id row.val = none ∧
      next = { queue with queue := queue.queue.insert id row } := by
  unfold Queue.insert at inserted
  split at inserted
  next => cases inserted
  next row passed =>
    split at inserted
    next => cases inserted
    next =>
      split at inserted <;> cases inserted
      next free =>
        rw [← checked_ok passed] at free
        exact ⟨row,checked_ok passed,free,rfl⟩

theorem draw_moves (sound : Sound uuidv7 queue) (tidy : Tidy queue) :
    Moves uuidv7 queue { queue with drawn := queue.drawn + 1 } :=
  ⟨(draw_advances sound).sound,⟨tidy.indexed,tidy.unspent⟩,⟨fun _ known => known,fun _ row found _ => ⟨row,found,rfl⟩⟩⟩

theorem enqueue_moves (unique : Function.Injective uuidv7) (sound : Sound uuidv7 queue) (tidy : Tidy queue)
    (request : Request) (onConflictDoNothing : Bool) :
    Moves uuidv7 queue (enqueue uuidv7 queue now request onConflictDoNothing).2 ∧
      ∀ other row, queue.queue.lookup other = some row →
        (enqueue uuidv7 queue now request onConflictDoNothing).2.queue.lookup other = some row := by
  have sounder := (enqueue_advances unique sound now request onConflictDoNothing).sound
  have unknown := fresh_unknown unique sound
  unfold enqueue at sounder ⊢
  dsimp only at sounder ⊢
  split at sounder
  next after inserted =>
    obtain ⟨row,stored,free,rfl⟩ := insert_cases inserted
    have old {other : JobId} (known : queue.Known other) : other ≠ uuidv7 queue.drawn := fun same => unknown (same ▸ known)
    refine ⟨⟨sounder,store_tidy tidy free (fun _ => ?_) _,?_,?_⟩,?_⟩
    · have positive := row.property.attemptsSane.2
      rw [stored] at positive ⊢
      exact positive
    · intro other known
      rcases known with present | past
      · exact .inl (by rw [lookup_insert_ne (old (.inl present))]; exact present)
      · exact .inr past
    · intro other later there known
      rw [lookup_insert_ne (old known)] at there
      exact ⟨later,there,rfl⟩
    · intro other row found
      exact (lookup_insert_ne (old (.inl (by simp [found])))).trans found
  all_goals next => exact ⟨draw_moves sound tidy,fun _ _ found => found⟩

theorem enqueue_queued (unique : Function.Injective uuidv7) (sound : Sound uuidv7 queue) {request : Request}
    {given : Option JobId} (mine : chain (request.job now) = some entry)
    (enqueued : enqueue uuidv7 queue now request true = (.ok given,next)) :
    ∃ id row, next.queue.lookup id = some row ∧ chain row.val = some entry ∧ row.val.status = .queued := by
  unfold enqueue at enqueued
  dsimp only at enqueued
  split at enqueued
  next after inserted =>
    cases enqueued
    obtain ⟨row,stored,-,rfl⟩ := insert_cases inserted
    exact ⟨_,row,lookup_insert _,by rw [stored]; exact mine,by rw [stored]; rfl⟩
  next index refused =>
    cases enqueued
    unfold Queue.insert at refused
    split at refused
    next raised violated =>
      cases refused
      cases checked_violates violated
    next =>
      split at refused
      next present => exact absurd (.inl present) (fresh_unknown unique sound)
      next =>
        split at refused
        next named taken =>
          obtain ⟨other,twin,its,-,found,making,same⟩ := conflict_some taken
          obtain ⟨queued,chained⟩ := queued_of_entry same
          have alike : some its = some entry := (queued_of_entry making).2.symm.trans mine
          exact ⟨other,twin,found,chained.trans alike,queued⟩
        next => cases refused
  next => cases enqueued

theorem hurried_resembles (wanted : Option (String × String × Option String)) (row : Row) :
    Resembles (hurried now wanted row).val row.val := by
  unfold hurried
  split
  next => exact ⟨rfl,rfl,rfl,rfl,rfl⟩
  next => exact .refl _

theorem resembling_tidy (tidy : Tidy queue) (same : ∀ id later, next.queue.lookup id = some later →
    ∃ row, queue.queue.lookup id = some row ∧ Resembles later.val row.val) : Tidy next := by
  constructor
  · intro id other row twin entry found there mine its
    obtain ⟨old,was,alike⟩ := same id row found
    obtain ⟨aged,had,like⟩ := same other twin there
    rw [indexEntry_chain,alike.status,alike.chain,← indexEntry_chain] at mine
    rw [indexEntry_chain,like.status,like.chain,← indexEntry_chain] at its
    exact tidy.indexed id other old aged entry was had mine its
  · intro id row found queued
    obtain ⟨old,was,alike⟩ := same id row found
    rw [alike.attempt,alike.maxAttempts]
    exact tidy.unspent id old was (alike.status.symm.trans queued)

theorem hurryUp_lookup (wanted : Option (String × String × Option String)) :
    (hurryUp queue now wanted).queue.lookup id = (queue.queue.lookup id).map (hurried now wanted) :=
  lookup_mapRows _ _ _

theorem hurryUp_moves (sound : Sound uuidv7 queue) (tidy : Tidy queue) (wanted : Option (String × String × Option String)) :
    Moves uuidv7 queue (hurryUp queue now wanted) := by
  have earlier (id : JobId) (later : Row) (found : (hurryUp queue now wanted).queue.lookup id = some later) :
      ∃ row, queue.queue.lookup id = some row ∧ Resembles later.val row.val := by
    rw [hurryUp_lookup] at found
    obtain ⟨row,was,rfl⟩ := map_eq_some_iff.mp found
    exact ⟨row,was,hurried_resembles wanted row⟩
  have present (id : JobId) : ((hurryUp queue now wanted).queue.lookup id).isSome = (queue.queue.lookup id).isSome := by
    rw [hurryUp_lookup,isSome_map]
  refine ⟨⟨fun id stored => sound.apart id (by rwa [present] at stored),?_⟩,resembling_tidy tidy earlier,?_,?_⟩
  · intro id known
    exact sound.issued id (known.imp_left (fun stored => by rwa [present] at stored))
  · intro id known
    exact known.imp_left (fun stored => by rwa [present])
  · intro id later found _
    obtain ⟨row,was,alike⟩ := earlier id later found
    exact ⟨row,was,alike.chain⟩

variable {job : Job} {runAfter : Instant} {chosen : Bool} {action : Action}

theorem perform_moves (unique : Function.Injective uuidv7) (sound : Sound uuidv7 queue) (tidy : Tidy queue)
    (ran : perform uuidv7 maxAttempts queue now job runAfter chosen action = some next) :
    Moves uuidv7 queue next ∧ ∀ other row, queue.queue.lookup other = some row →
      ∃ later, next.queue.lookup other = some later ∧ Resembles later.val row.val := by
  have stays : Moves uuidv7 queue queue ∧ ∀ other row, queue.queue.lookup other = some row →
      ∃ later, queue.queue.lookup other = some later ∧ Resembles later.val row.val :=
    ⟨.stays sound tidy,fun _ row found => ⟨row,found,.refl _⟩⟩
  have inserts {request : Request} {given : Option JobId}
      (enqueued : enqueue uuidv7 queue now request true = (.ok given,next)) :
      Moves uuidv7 queue next ∧ ∀ other row, queue.queue.lookup other = some row →
        ∃ later, next.queue.lookup other = some later ∧ Resembles later.val row.val := by
    obtain ⟨moves,same⟩ := @enqueue_moves uuidv7 queue now unique sound tidy request true
    rw [enqueued] at moves same
    exact ⟨moves,fun other row found => ⟨row,same other row found,.refl _⟩⟩
  cases action with
  | schedule =>
    simp only [perform] at ran
    obtain ⟨-,ran⟩ := of_unless ran
    split at ran <;> cases ran
    next given after enqueued => exact inserts enqueued
  | work => cases ran; exact stays
  | again =>
    simp only [perform] at ran
    split at ran
    next => cases ran; exact stays
    next =>
      split at ran <;> cases ran
      next given after enqueued => exact inserts enqueued
  | hurry =>
    cases ran
    split
    next =>
      refine ⟨hurryUp_moves sound tidy _,fun other row found => ?_⟩
      exact ⟨hurried now (chain job) row,by rw [hurryUp_lookup,found]; rfl,hurried_resembles _ row⟩
    next => exact stays

theorem perform_schedule (unique : Function.Injective uuidv7) (sound : Sound uuidv7 queue) (mine : chain job = some entry)
    (ran : perform uuidv7 maxAttempts queue now job runAfter chosen .schedule = some next) :
    ∃ id row, next.queue.lookup id = some row ∧ chain row.val = some entry ∧ row.val.status = .queued := by
  simp only [perform] at ran
  obtain ⟨-,ran⟩ := of_unless ran
  split at ran <;> cases ran
  next given after enqueued => exact enqueue_queued unique sound (by exact mine) enqueued

variable {system after : System} {event : Event}

variable (uuidv7) in
structure Grounded (system : System) : Prop where
  sound : Sound uuidv7 system.queue
  tidy : Tidy system.queue
  attached : ∀ worker attempt, system.busy worker = some attempt → system.queue.Known attempt.id ∧
    ∀ row, system.queue.queue.lookup attempt.id = some row → chain row.val = chain attempt.job

theorem Grounded.moved (grounded : Grounded uuidv7 system) (moves : Moves uuidv7 system.queue after.queue)
    (busy : ∀ worker attempt, after.busy worker = some attempt →
      (∃ earlier, system.busy worker = some earlier ∧ earlier.id = attempt.id ∧ earlier.job = attempt.job) ∨
      ∃ row, after.queue.queue.lookup attempt.id = some row ∧ row.val = attempt.job) : Grounded uuidv7 after := by
  refine ⟨moves.sound,moves.tidy,fun worker attempt held => ?_⟩
  rcases busy worker attempt held with ⟨earlier,was,same,job⟩ | ⟨row,found,same⟩
  · obtain ⟨known,attached⟩ := grounded.attached worker earlier was
    rw [same] at known attached
    refine ⟨moves.carries.known _ known,fun row found => ?_⟩
    obtain ⟨old,there,alike⟩ := moves.carries.kept _ row found known
    exact alike.trans ((attached old there).trans (congrArg chain job))
  · refine ⟨.inl (by rw [found]; rfl),fun other there => ?_⟩
    cases found.symm.trans there
    exact congrArg chain same

theorem busy_dropped {busy : String → Option Attempt} {worker : String} {holder : String} {attempt : Attempt}
    (held : Function.update busy worker none holder = some attempt) : busy holder = some attempt := by
  by_cases same : holder = worker
  · rw [same,Function.update_self] at held
    cases held
  · rwa [update_of_ne same] at held

theorem busy_kept {busy : String → Option Attempt} {worker holder : String} {mine attempt : Attempt} {rest : List Action}
    (was : busy worker = some mine)
    (held : Function.update busy worker (some { mine with rest := rest }) holder = some attempt) :
    ∃ earlier, busy holder = some earlier ∧ earlier.id = attempt.id ∧ earlier.job = attempt.job := by
  by_cases same : holder = worker
  · rw [same,Function.update_self] at held
    cases held
    exact ⟨mine,same ▸ was,rfl,rfl⟩
  · rw [update_of_ne same] at held
    exact ⟨attempt,held,rfl,rfl⟩

theorem step_grounded (unique : Function.Injective uuidv7) (grounded : Grounded uuidv7 system)
    (taken : step uuidv7 maxAttempts system event = some after) : Grounded uuidv7 after := by
  have sound := grounded.sound
  have tidy := grounded.tidy
  have same {final : Queue} (moves : Moves uuidv7 system.queue final) : Grounded uuidv7 ⟨final,system.busy⟩ :=
    grounded.moved moves (fun worker attempt held => .inl ⟨attempt,held,rfl,rfl⟩)
  have dropped {final : Queue} (worker : String) (moves : Moves uuidv7 system.queue final) :
      Grounded uuidv7 ⟨final,Function.update system.busy worker none⟩ :=
    grounded.moved moves (fun holder attempt held => .inl ⟨attempt,busy_dropped held,rfl,rfl⟩)
  cases event with simp only [step] at taken
  | claim now worker kinds leaseSecs skippedReaping skippedPicking =>
    split at taken
    next => cases taken
    next =>
      split at taken
      next => cases taken; exact grounded
      next final claimed =>
        cases taken
        exact same (claim_moves sound tidy claimed)
      next id final claimed =>
        split at taken <;> cases taken
        next row found =>
          refine grounded.moved (claim_moves sound tidy claimed) (fun holder attempt held => ?_)
          by_cases here : holder = worker
          · simp only [here,Function.update_self,Option.some.injEq] at held
            exact .inr ⟨row,by rw [← held]; exact found,by rw [← held]⟩
          · simp only [Function.update_of_ne here] at held
            exact .inl ⟨attempt,held,rfl,rfl⟩
  | beat now worker leaseSecs progress =>
    obtain ⟨attempt,-,rfl⟩ := map_eq_some_iff.mp taken
    exact same (heartbeat_moves sound tidy progress).1
  | act now worker runAfter chosen =>
    split at taken
    next id job action rest held =>
      obtain ⟨final,performed,rfl⟩ := map_eq_some_iff.mp taken
      exact grounded.moved (perform_moves unique sound tidy performed).1
        (fun holder attempt busy => .inl (busy_kept held busy))
    next => cases taken
  | throws now worker error =>
    obtain ⟨attempt,-,rfl⟩ := map_eq_some_iff.mp taken
    exact dropped worker (finish_moves sound tidy).1
  | returns now worker =>
    split at taken <;> cases taken
    next id job held => exact dropped worker (finish_moves sound tidy).1
  | gone worker =>
    obtain ⟨attempt,-,rfl⟩ := map_eq_some_iff.mp taken
    exact dropped worker (.stays sound tidy)
  | enqueued now request onConflictDoNothing =>
    cases taken
    exact same (enqueue_moves unique sound tidy request onConflictDoNothing).1

def Chained (entry : String × String × Option String) : Prop :=
  ∃ job, job.kind ∈ CHAINED ∧ chain job = some entry

private theorem index_kind : ∀ pair ∈ scheduledOnce, (scheduledOnce.map Prod.swap).lookup pair.2 = some pair.1 := by
  decide

theorem lookup_mem {pairs : List (String × String)} {key value : String} (found : pairs.lookup key = some value) :
    (key,value) ∈ pairs := by
  induction pairs with
  | nil => cases found
  | cons pair rest ih =>
    rw [lookup_cons] at found
    split at found
    next same =>
      cases found
      rw [eq_of_beq same]
      exact mem_cons_self
    next => exact mem_cons_of_mem _ (ih found)

theorem chain_kind {one other : Job} (mine : chain one = some entry) (its : chain other = some entry) :
    one.kind = other.kind := by
  have shape {job : Job} (made : chain job = some entry) :
      entry.1 = "job_queue_one_scheduled_reconcile" ∧ job.kind = "files.reconcile" ∨
        (job.kind,entry.1) ∈ scheduledOnce := by
    unfold chain Job.indexEntry at made
    rw [if_neg (not_not.mpr rfl)] at made
    split at made
    next => cases made
    next organization =>
      split at made
      next kind =>
        obtain ⟨share,-,rfl⟩ := map_eq_some_iff.mp made
        exact .inl ⟨rfl,kind⟩
      next =>
        obtain ⟨index,found,rfl⟩ := map_eq_some_iff.mp made
        exact .inr (lookup_mem found)
  have apart {kind : String} : (kind,"job_queue_one_scheduled_reconcile") ∉ scheduledOnce := by
    simp [scheduledOnce]
  rcases shape mine with ⟨index,first⟩ | first <;> rcases shape its with ⟨index',second⟩ | second
  · exact first.trans second.symm
  · exact absurd (index ▸ second) apart
  · exact absurd (index' ▸ first) apart
  · exact Option.some.inj ((index_kind _ first).symm.trans (index_kind _ second))

theorem chained_schedules {job : Job} (chained : Chained entry) (mine : chain job = some entry) :
    .schedule ∈ program job.kind := by
  obtain ⟨other,listed,its⟩ := chained
  rw [chain_kind mine its]
  have each : ∀ kind ∈ CHAINED, .schedule ∈ program kind := by decide
  exact each other.kind listed

theorem Promising.persists (promising : Promising entry system id)
    (same : ∀ row, system.queue.queue.lookup id = some row →
      ∃ later, after.queue.queue.lookup id = some later ∧ Resembles later.val row.val)
    (busy : ∀ worker attempt row, after.busy worker = some attempt → attempt.id = id →
      system.queue.queue.lookup id = some row → row.val.workerId = some worker → row.val.status = .running →
      ∃ earlier, system.busy worker = some earlier ∧ earlier.id = id ∧ (.schedule ∈ earlier.rest → .schedule ∈ attempt.rest)) :
    Promising entry after id := by
  obtain ⟨row,found,mine,shape⟩ := promising
  obtain ⟨later,there,alike⟩ := same row found
  refine ⟨later,there,alike.chain.trans mine,?_⟩
  rcases shape with queued | ⟨running,left,holders⟩
  · exact .inl (alike.status.trans queued)
  · refine .inr ⟨alike.status.trans running,by rw [alike.attempt,alike.maxAttempts]; exact left,?_⟩
    intro worker attempt held here its
    rw [alike.workerId] at its
    obtain ⟨earlier,was,aimed,keeps⟩ := busy worker attempt row held here found its running
    exact keeps (holders worker earlier was aimed its)

theorem promising_queued (found : system.queue.queue.lookup id = some row) (mine : chain row.val = some entry)
    (queued : row.val.status = .queued) : Promising entry system id :=
  ⟨row,found,mine,.inl queued⟩

theorem Promising.left (promising : Promising entry system id) (tidy : Tidy system.queue) :
    ∃ row, system.queue.queue.lookup id = some row ∧ chain row.val = some entry ∧ row.val.attempt < row.val.maxAttempts := by
  obtain ⟨row,found,mine,queued | ⟨-,left,-⟩⟩ := promising
  · exact ⟨row,found,mine,tidy.unspent id row found queued⟩
  · exact ⟨row,found,mine,left⟩

theorem Promising.passed (promising : Promising entry system id) (tidy : Tidy system.queue)
    (claimed : claimJob system.queue now worker kinds leaseSecs skippedReaping skippedPicking = .ok (answer,after.queue))
    (apart : answer ≠ some id) (busy : ∀ holder attempt, after.busy holder = some attempt → attempt.id = id →
      system.busy holder = some attempt) : Promising entry after id := by
  obtain ⟨row,found,-,left⟩ := promising.left tidy
  refine promising.persists (fun other there => ?_) (fun holder attempt _ held aimed _ _ _ =>
    ⟨attempt,busy holder attempt held aimed,aimed,fun short => short⟩)
  cases found.symm.trans there
  exact ⟨row,claim_other tidy claimed found left apart,.refl _⟩

theorem claim_promises (tidy : Tidy queue) (chained : Chained entry) {busy : String → Option Attempt}
    (claimed : claimJob queue now worker kinds leaseSecs skippedReaping skippedPicking = .ok (some id,next))
    {earlier later : Row} (was : queue.queue.lookup id = some earlier) (found : next.queue.lookup id = some later)
    (mine : chain earlier.val = some entry) (left : earlier.val.attempt + 1 < earlier.val.maxAttempts) :
    Promising entry ⟨next,Function.update busy worker (some ⟨id,later.val,program later.val.kind⟩)⟩ id := by
  obtain ⟨row,taken,before,there,shape⟩ := claim_taken tidy claimed
  cases was.symm.trans before
  cases found.symm.trans there
  have carried : chain later.val = some entry := by rw [shape]; exact mine
  refine ⟨later,found,carried,.inr ⟨by rw [shape]; rfl,by rw [shape]; exact left,?_⟩⟩
  intro holder attempt held _ its
  have here : holder = worker := by
    rw [shape] at its
    exact (Option.some.inj its).symm
  simp only [here,Function.update_self,Option.some.injEq] at held
  rw [← held]
  exact chained_schedules chained carried

theorem step_promising (unique : Function.Injective uuidv7) (chained : Chained entry) (grounded : Grounded uuidv7 system)
    (promising : ∃ id, Promising entry system id) (spared : Spared entry system event)
    (taken : step uuidv7 maxAttempts system event = some after) : ∃ id, Promising entry after id := by
  have sound := grounded.sound
  have tidy := grounded.tidy
  obtain ⟨id,promising⟩ := promising
  cases event with simp only [step] at taken
  | claim now worker kinds leaseSecs skippedReaping skippedPicking =>
    split at taken
    next => cases taken
    next idle =>
      split at taken
      next => cases taken; exact ⟨id,promising⟩
      next final claimed =>
        cases taken
        exact ⟨id,promising.passed tidy claimed nofun (fun _ _ held _ => held)⟩
      next got final claimed =>
        split at taken <;> cases taken
        next later found =>
          have another (other : JobId) (promises : Promising entry system other) (apart : got ≠ other) :
              Promising entry ⟨final,Function.update system.busy worker (some ⟨got,later.val,program later.val.kind⟩)⟩ other := by
            refine promises.passed tidy claimed (fun same => apart (Option.some.inj same)) (fun holder attempt held aimed => ?_)
            by_cases here : holder = worker
            · simp only [here,Function.update_self,Option.some.injEq] at held
              rw [← held] at aimed
              exact absurd aimed apart
            · simpa only [update_of_ne here] using held
          by_cases same : got = id
          · subst same
            obtain ⟨row,was,mine,-⟩ := promising.left tidy
            by_cases left : row.val.attempt + 1 < row.val.maxAttempts
            · exact ⟨got,claim_promises tidy chained claimed was found mine left⟩
            · obtain ⟨other,apart,promises⟩ := spared got final row claimed was mine (Int.not_lt.mp left)
              exact ⟨other,another other promises (Ne.symm apart)⟩
          · exact ⟨id,another id promising same⟩
  | beat now worker leaseSecs progress =>
    obtain ⟨attempt,-,rfl⟩ := map_eq_some_iff.mp taken
    exact ⟨id,promising.persists ((heartbeat_moves sound tidy progress).2 id)
      (fun holder attempt _ held aimed _ _ _ => ⟨attempt,held,aimed,fun short => short⟩)⟩
  | act now worker runAfter chosen =>
    split at taken
    next mine job action rest held =>
      obtain ⟨final,performed,rfl⟩ := map_eq_some_iff.mp taken
      have kept := (perform_moves unique sound tidy performed).2
      by_cases decisive : action = .schedule ∧ chain job = some entry
      · obtain ⟨rfl,chain⟩ := decisive
        obtain ⟨other,row,found,its,queued⟩ := perform_schedule unique sound chain performed
        exact ⟨other,promising_queued found its queued⟩
      · refine ⟨id,promising.persists (kept id) (fun holder attempt row busy aimed found _ _ => ?_)⟩
        by_cases here : holder = worker
        · simp only [here,Function.update_self,Option.some.injEq] at busy
          subst busy
          refine ⟨⟨mine,job,action::rest⟩,by rw [here]; exact held,aimed,fun short => ?_⟩
          rcases mem_cons.mp short with same | short
          · obtain ⟨old,there,its,-⟩ := promising
            have attached := (grounded.attached worker _ held).2 old (by rw [aimed]; exact there)
            exact absurd ⟨same.symm,attached.symm.trans its⟩ decisive
          · exact short
        · simp only [update_of_ne here] at busy
          exact ⟨attempt,busy,aimed,fun short => short⟩
    next => cases taken
  | throws now worker error =>
    obtain ⟨attempt,held,rfl⟩ := map_eq_some_iff.mp taken
    by_cases aimed : attempt.id = id
    · obtain ⟨row,found,mine,left⟩ := promising.left tidy
      rw [← aimed] at found
      obtain ⟨other,later,there,its,queued | ⟨rfl,rfl⟩⟩ := @finish_failed _ _ now worker _ (some error) _ found mine left
      · exact ⟨other,promising_queued there its queued⟩
      · refine ⟨id,promising.persists (fun old was => ⟨later,by rw [← aimed]; exact there,?_⟩)
          (fun holder other _ busy here _ _ _ => ⟨other,busy_dropped busy,here,fun short => short⟩)⟩
        rw [← aimed] at was
        cases found.symm.trans was
        exact .refl _
    · refine ⟨id,promising.persists (fun row found => ⟨row,?_,.refl _⟩)
        (fun holder other _ busy here _ _ _ => ⟨other,busy_dropped busy,here,fun short => short⟩)⟩
      exact ((finish_moves sound tidy).2 id (Ne.symm aimed)).trans found
  | returns now worker =>
    split at taken <;> cases taken
    next mine job held =>
      refine ⟨id,promising.persists (fun row found => ⟨row,?_,.refl _⟩)
        (fun holder other _ busy here _ _ _ => ⟨other,busy_dropped busy,here,fun short => short⟩)⟩
      by_cases aimed : mine = id
      · subst aimed
        have free : row.val.heldBy worker now = false := by
          obtain ⟨same,there,-,shape⟩ := promising
          cases found.symm.trans there
          cases running : row.val.heldBy worker now with
          | false => rfl
          | true =>
            simp only [Job.heldBy,and_eq_true,decide_eq_true_eq] at running
            rcases shape with queued | ⟨-,-,holders⟩
            · rw [queued] at running
              cases running.1.2
            · exact absurd (holders worker _ held rfl running.1.1) not_mem_nil
        change (committed system.queue (finishJob system.queue now mine worker (some "succeeded") none)).queue.lookup mine = _
        rw [finish_refused found free]
        exact found
      · exact ((finish_moves sound tidy).2 id (Ne.symm aimed)).trans found
  | gone worker =>
    obtain ⟨attempt,-,rfl⟩ := map_eq_some_iff.mp taken
    exact ⟨id,promising.persists (fun row found => ⟨row,found,.refl _⟩)
      (fun holder other _ busy here _ _ _ => ⟨other,busy_dropped busy,here,fun short => short⟩)⟩
  | enqueued now request onConflictDoNothing =>
    cases taken
    refine ⟨id,promising.persists (fun row found => ⟨row,?_,.refl _⟩)
      (fun holder other _ busy here _ _ _ => ⟨other,busy,here,fun short => short⟩)⟩
    exact (enqueue_moves unique sound tidy request onConflictDoNothing).2 id row found

theorem alive_of_promising (promising : Promising entry system id) : Alive entry system.queue := by
  obtain ⟨row,found,mine,shape⟩ := promising
  exact ⟨id,row,found,mine,shape.imp_right (fun ⟨running,left,_⟩ => ⟨running,left⟩)⟩

theorem one_queued (tidy : Tidy queue) : AtMostOneQueued entry queue := by
  intro id other row twin found there mine its queued waiting
  refine tidy.indexed id other row twin entry found there ?_ ?_
  · rw [indexEntry_chain,if_pos queued,mine]
  · rw [indexEntry_chain,if_pos waiting,its]

def System.start : System := ⟨.empty,fun _ => none⟩

private theorem start_grounded : Grounded uuidv7 .start := by
  refine ⟨empty_sound,⟨fun id other row twin entry found => ?_,fun id row found => ?_⟩,fun worker attempt held => ?_⟩
  · cases found
  · cases found
  · cases held

/-- From any state the system can reach with a queued row of the chain, and through every run that
does not claim the last promising row for its last attempt, the chain is alive and has one queued
row at most. -/
theorem chain_alive (unique : Function.Injective uuidv7) (chained : Chained entry) {before events : List Event}
    {system final : System} (reached : Machine.run (step uuidv7 maxAttempts) .start before = some system)
    (found : system.queue.queue.lookup id = some row) (mine : chain row.val = some entry) (queued : row.val.status = .queued)
    (spared : Machine.Meets (step uuidv7 maxAttempts) (Spared entry) system events)
    (ran : Machine.run (step uuidv7 maxAttempts) system events = some final) :
    Alive entry final.queue ∧ AtMostOneQueued entry final.queue := by
  have grounded : Grounded uuidv7 system := run_invariant_always (step uuidv7 maxAttempts)
    (fun _ _ _ held taken => step_grounded unique held taken) start_grounded reached
  have each (state : System) (event : Event) (next : System)
      (held : Grounded uuidv7 state ∧ ∃ id, Promising entry state id) (admitted : Spared entry state event)
      (taken : step uuidv7 maxAttempts state event = some next) :
      Grounded uuidv7 next ∧ ∃ id, Promising entry next id :=
    ⟨step_grounded unique held.1 taken,step_promising unique chained held.1 held.2 admitted taken⟩
  obtain ⟨grounded,other,promising⟩ := run_invariant (step uuidv7 maxAttempts) each
    ⟨grounded,id,promising_queued found mine queued⟩ spared ran
  exact ⟨alive_of_promising promising,one_queued grounded.tidy⟩

private def seeded : List Event := [.enqueued 0 ⟨some "acme","files.trash.purge",none,0,3,none⟩ true]

private def purges : String × String × Option String := ("job_queue_one_scheduled_purge","acme",none)

private theorem purges_chained : Chained purges :=
  ⟨⟨some "acme","files.trash.purge",none,.queued,0,0,0,3,none,none,0,none,0⟩,by decide,rfl⟩

private theorem seeded_queued : (Machine.run (step (fun draw => draw) (fun _ => 3)) .start seeded).any (fun system =>
    (system.queue.queue.lookup 0).any (fun row => chain row.val = some purges && row.val.status = .queued)) = true := by
  decide +kernel

private theorem seeded_reaches : ∃ system row, Machine.run (step (fun draw => draw) (fun _ => 3)) .start seeded = some system ∧
    system.queue.queue.lookup 0 = some row ∧ chain row.val = some purges ∧ row.val.status = .queued := by
  obtain ⟨system,ran,read⟩ := (any_eq_true _ _).mp seeded_queued
  obtain ⟨row,found,shape⟩ := (any_eq_true _ _).mp read
  simp only [and_eq_true,decide_eq_true_eq] at shape
  exact ⟨system,row,ran,found,shape.1,shape.2⟩

private def unhurried (system : System) : Event → Bool
  | .claim _ _ _ _ _ _ => system.queue.queue.all (fun _ row => row.val.attempt + 1 < row.val.maxAttempts)
  | _ => true

private theorem spared_of_unhurried (entry : String × String × Option String) (system : System) (event : Event)
    (unspent : unhurried system event = true) : Spared entry system event := by
  cases event with
  | claim now worker kinds leaseSecs skippedReaping skippedPicking =>
    intro id after row _ found _ spent
    simp only [unhurried,all_iff,decide_eq_true_eq] at unspent
    exact absurd (unspent id row found) (Int.not_lt.mpr spent)
  | _ => trivial

private def retried : List Event :=
  [.claim 0 "first" ["files.trash.purge"] (some 60) [] [],.throws 1000000 "first" "agent unreachable",
    .claim 4000000 "second" ["files.trash.purge"] (some 60) [] [],.act 4000000 "second" 0 false,
    .act 5000000 "second" 3605000000 false,.returns 6000000 "second"]

private theorem retried_runs : (Machine.run (step (fun draw => draw) (fun _ => 3)) .start seeded).all (fun system =>
    decide (Machine.Meets (step (fun draw => draw) (fun _ => 3)) (fun state event => unhurried state event = true) system retried) &&
      (Machine.run (step (fun draw => draw) (fun _ => 3)) system retried).isSome) = true := by
  decide +kernel

theorem chain_alive_retried : ∃ system final,
    Machine.run (step (fun draw => draw) (fun _ => 3)) .start seeded = some system ∧
    Machine.run (step (fun draw => draw) (fun _ => 3)) system retried = some final ∧
    Alive purges final.queue ∧ AtMostOneQueued purges final.queue := by
  obtain ⟨system,row,reached,found,mine,queued⟩ := seeded_reaches
  have runs := (all_eq_true _ _).mp retried_runs system reached
  simp only [and_eq_true,decide_eq_true_eq] at runs
  obtain ⟨final,ran⟩ := isSome_iff_exists.mp runs.2
  have spared := meets_imp (step (fun draw => draw) (fun _ => 3))
    (fun system event => spared_of_unhurried purges system event) runs.1
  exact ⟨system,final,reached,ran,chain_alive injective_id purges_chained reached found mine queued spared ran⟩

/-- Whatever is claimed, fails or crashes, a chain has one queued row at most, and a queued row has attempts left. -/
theorem queued_single (unique : Function.Injective uuidv7) {events : List Event} {final : System}
    (ran : Machine.run (step uuidv7 maxAttempts) .start events = some final) :
    (∀ entry, AtMostOneQueued entry final.queue) ∧ ∀ id row, final.queue.queue.lookup id = some row → row.val.status = .queued →
      row.val.attempt < row.val.maxAttempts := by
  have grounded : Grounded uuidv7 final := run_invariant_always (step uuidv7 maxAttempts)
    (fun _ _ _ held taken => step_grounded unique held taken) start_grounded ran
  exact ⟨fun _ => one_queued grounded.tidy,grounded.tidy.unspent⟩

theorem queued_single_seeded : ∃ system, Machine.run (step (fun draw => draw) (fun _ => 3)) .start seeded = some system ∧
    AtMostOneQueued purges system.queue := by
  obtain ⟨system,_,reached,-⟩ := seeded_reaches
  exact ⟨system,reached,(queued_single injective_id reached).1 purges⟩

private def dying : List Event :=
  [.claim 0 "first" ["files.trash.purge"] (some 60) [] [],.throws 1000000 "first" "agent unreachable",
    .claim 4000000 "first" ["files.trash.purge"] (some 60) [] [],.throws 5000000 "first" "agent unreachable",
    .claim 10000000 "first" ["files.trash.purge"] (some 60) [] [],.throws 11000000 "first" "agent unreachable"]

private theorem dying_empties : (Machine.run (step (fun draw => draw) (fun _ => 3)) .start seeded).all (fun system =>
    (Machine.run (step (fun draw => draw) (fun _ => 3)) system dying).any (fun final => final.queue.queue.rows.isEmpty)) = true := by
  decide +kernel

/-- A purge that throws three times leaves nothing of the chain. -/
theorem purge_dies : ∃ system row final,
    Machine.run (step (fun draw => draw) (fun _ => 3)) .start seeded = some system ∧
    system.queue.queue.lookup 0 = some row ∧ chain row.val = some purges ∧ row.val.status = .queued ∧ Chained purges ∧
    Machine.run (step (fun draw => draw) (fun _ => 3)) system dying = some final ∧ ¬Alive purges final.queue := by
  obtain ⟨system,row,reached,found,mine,queued⟩ := seeded_reaches
  obtain ⟨final,ran,bare⟩ := (any_eq_true _ _).mp ((all_eq_true _ _).mp dying_empties system reached)
  refine ⟨system,row,final,reached,found,mine,queued,purges_chained,ran,?_⟩
  intro ⟨id,left,there,_⟩
  have listed := mem_rows.mpr there
  rw [isEmpty_iff.mp bare] at listed
  cases listed

end Depsis.Jobs.Chains

import Depsis.Files.Uploader
import Depsis.Files.UploadOutcomes

/-! Everything a step of a chunk's handler can do to its session and say to the uploader. -/
namespace Depsis.Files.Uploader

open Depsis.Foundation Depsis.Foundation.Handlers Uploads

variable {env : Surroundings} {file : File} {chunk after : Chunk} {store later : Store} {fates : PatchFates}
  {other : Refusal} {entryId : String}

def Phase.header : Phase → Option Nat
  | .publishing _ next | .recording _ next _ | .completing _ next => some next
  | _ => none

def Chunk.Thrown (chunk after : Chunk) : Prop :=
  ∃ answer : Answer, after = chunk.ends answer ∧ 400 ≤ answer.status ∧ answer.uploadOffset = chunk.phase.header

structure Still (store later : Store) : Prop where
  session : later.session = store.session
  staged : later.staged.getD [] = store.staged.getD []

theorem Still.refl (store : Store) : Still store store := ⟨rfl,rfl⟩

inductive Served (file : File) (chunk : Chunk) (store : Store) (after : Chunk) (later : Store) : Prop where
  | thrown (still : Still store later) (thrown : chunk.Thrown after)
  | mismatched (row : SessionRow) (waits : chunk.phase = .arrived) (found : store.session = some row) (incomplete : row.fileId = none)
    (differs : row.offsetBytes ≠ chunk.offset) (still : Still store later)
    (told : after = chunk.ends ⟨409,some "conflict",some row.offsetBytes⟩)
  | loaded (row : SessionRow) (waits : chunk.phase = .arrived) (found : store.session = some row) (incomplete : row.fileId = none)
    (agrees : row.offsetBytes = chunk.offset) (still : Still store later) (goes : after = {chunk with phase := .loaded row})
  | measured (upload : SessionRow) (waits : chunk.phase = .loaded upload) (still : Still store later)
    (goes : after = {chunk with phase :=
      if (store.staged.getD []).length ≠ chunk.offset then .correcting upload (store.staged.getD []).length else .streaming upload})
  | corrected (upload : SessionRow) (opened : Nat) (waits : chunk.phase = .correcting upload opened)
    (session : later.session = store.session.map (fun row => {row with offsetBytes := opened}))
    (staged : later.staged = store.staged)
    (told : chunk.Thrown after ∨ after = chunk.ends ⟨409,some "conflict",some opened⟩)
  | appended (upload : SessionRow) (waits : chunk.phase = .streaming upload) (aligned : (store.staged.getD []).length = chunk.offset)
    (session : later.session = store.session)
    (staged : later.staged.getD [] = store.staged.getD [] ++ (file.slice chunk.offset chunk.stop).take (chunk.stop - chunk.offset))
    (goes : chunk.Thrown after ∨ after = {chunk with phase := .stored upload (chunk.offset + (chunk.stop - chunk.offset))})
  | counted (upload : SessionRow) (next : Nat) (waits : chunk.phase = .stored upload next)
    (session : later.session = store.session.map (fun row => {row with offsetBytes := next})) (staged : later.staged = store.staged)
    (goes : chunk.Thrown after ∨ (next < upload.lengthBytes ∧ after = chunk.ends ⟨204,none,some next⟩) ∨
      after = {chunk with phase := .publishing upload next})
  | landed (upload : SessionRow) (next : Nat) (waits : chunk.phase = .publishing upload next) (body : List UInt8)
    (published : Uploads.Published upload.lengthBytes store later body)
    (goes : chunk.Thrown after ∨ ∃ bytes, after = {chunk with phase := .recording upload next bytes})
  | recorded (upload : SessionRow) (next bytes : Nat) (waits : chunk.phase = .recording upload next bytes) (still : Still store later)
    (goes : after = {chunk with phase := .completing upload next})
  | completed (upload : SessionRow) (next : Nat) (waits : chunk.phase = .completing upload next) (id : String)
    (session : later.session = store.session.map (fun row => {row with fileId := some id, offsetBytes := next}))
    (staged : later.staged = store.staged) (told : chunk.Thrown after ∨ after = chunk.ends ⟨204,none,some next⟩)
  | idle (answer : Answer) (waits : chunk.phase = .answered answer) (same : after = chunk) (still : Still store later)

theorem refusalOf_status (refused : 400 ≤ other.status) (problem : Problem) : 400 ≤ (refusalOf other problem).status := by
  unfold refusalOf
  split <;> first | exact refused | simp

theorem refused_thrown (refused : 400 ≤ other.status) (problem : Problem) (header : Option Nat) (same : header = chunk.phase.header) :
    chunk.Thrown (chunk.refused header (refusalOf other problem)) :=
  ⟨_,rfl,refusalOf_status refused problem,same⟩

theorem loadSession_reads (fate : Fate) (store : Store) : Triple (· = store) (loadSession fate)
    (fun row later => later = store ∧ store.session = some row) (fun _ later => later = store) := by
  refine loadSession_spec (fun later row same _ found => ?_) (fun later _ same => same)
  subst same
  exact ⟨rfl,found⟩

theorem measure_reads (fates : PatchFates) (store : Store) : Triple (· = store) (measure fates)
    (fun opened later => Still store later ∧ opened = (store.staged.getD []).length) (fun _ later => Still store later) := by
  refine .bind (fun _ later => later = store) (passes_spec (fun _ same _ => same) (fun later same => same ▸ .refl later)) (fun _ => ?_)
  refine .call ?_ ?_ ?_ ?_
  · rintro _ opened later rfl - ran
    cases ran
    exact ⟨⟨rfl,rfl⟩,rfl⟩
  · rintro _ rfl -
    exact .refl _
  · rintro _ opened later rfl - ran
    cases ran
    exact ⟨rfl,rfl⟩
  · rintro _ e rfl ran
    cases ran

theorem land_publishes (upload : SessionRow) (fates : PatchFates) (store : Store) : Triple (· = store) (land env fates upload)
    (fun _ later => ∃ body, Uploads.Published upload.lengthBytes store later body)
    (fun _ later => Still store later ∨ ∃ body, Uploads.Published upload.lengthBytes store later body) := by
  refine .bind (fun _ later => later = store)
    (passes_spec (fun _ same _ => same) (fun later same => .inl (same ▸ .refl later))) (fun _ => ?_)
  refine .bind (fun _ later => later = store)
    (passes_spec (fun _ same _ => same) (fun later same => .inl (same ▸ .refl later))) (fun _ => ?_)
  refine .conseq (publish_spec fates (destinationOf env upload) upload.lengthBytes store) (fun _ same => same)
    (fun _ _ published => published) (fun e later missed => ?_)
  rcases missed with published | ⟨unpublished,-⟩
  · exact .inr published
  · exact .inl ⟨unpublished.session,by rw [unpublished.staged]⟩

theorem checked_served (refused : 400 ≤ other.status) (waits : chunk.phase = .arrived) {upload : SessionRow} (found : store.session = some upload) :
    Served file chunk store (chunk.checked file other entryId upload) store := by
  have silent : none = chunk.phase.header := by rw [waits]; rfl
  unfold Chunk.checked
  split
  next => exact .thrown (.refl store) (refused_thrown refused _ none silent)
  next incomplete =>
    have incomplete : upload.fileId = none := by simpa using incomplete
    split
    next offset declared failed =>
      have differs : upload.offsetBytes ≠ chunk.offset ∧ offset = upload.offsetBytes := by
        unfold checkChunk Chunk.request at failed
        simp only at failed
        split_ifs at failed with _ apart
        · cases failed
        · cases failed
          exact ⟨fun same => apart (congrArg Int.ofNat same.symm),rfl⟩
        · cases failed
        · cases failed
      obtain ⟨differs,rfl⟩ := differs
      exact .mismatched upload waits found incomplete differs (.refl store) rfl
    next => exact .thrown (.refl store) (refused_thrown refused _ none silent)
    next pair passed =>
      refine .loaded upload waits found incomplete ?_ (.refl store) rfl
      unfold checkChunk Chunk.request at passed
      simp only at passed
      split_ifs at passed with _ apart
      exact (Int.ofNat.inj (not_not.mp apart)).symm

theorem transfer_appends {offset length : Nat} {body : List UInt8} {expected : Option (List UInt8)} {stored : Nat}
    (ran : transfer offset length body expected store = .ok (stored,later)) :
    (store.staged.getD []).length = offset ∧ stored = length ∧ later.session = store.session ∧
      later.staged.getD [] = store.staged.getD [] ++ body.take length := by
  unfold transfer stage at ran
  split_ifs at ran with apart short
  cases ran
  exact ⟨not_not.mp apart,rfl,rfl,rfl⟩

theorem serve_served (refused : 400 ≤ other.status) :
    Served file chunk store (chunk.serve env file fates other entryId store).1 (chunk.serve env file fates other entryId store).2 := by
  have fails (problem : Problem) (header : Option Nat) (same : header = chunk.phase.header) :=
    @refused_thrown chunk other refused problem header same
  unfold Chunk.serve
  cases waits : chunk.phase with
  | arrived =>
    have read := loadSession_reads fates.session store store rfl
    simp only []
    split
    next problem later ran =>
      rw [ran] at read
      obtain rfl : later = store := read
      exact .thrown (.refl later) (fails _ _ (by rw [waits]; rfl))
    next upload later ran =>
      rw [ran] at read
      obtain ⟨rfl,found⟩ := read
      exact checked_served refused waits found
  | loaded upload =>
    have read := measure_reads fates store store rfl
    simp only []
    split
    next problem later ran =>
      rw [ran] at read
      exact .thrown read (fails _ _ (by rw [waits]; rfl))
    next opened later ran =>
      rw [ran] at read
      obtain ⟨still,rfl⟩ := read
      exact .measured upload waits still rfl
  | correcting upload opened =>
    simp only []
    rcases @call_total _ _ _ fates.correction Problem.unavailable (setOffset opened) () store _ rfl
      with ⟨ran,-⟩ | ran | ran
    · rw [ran]
      exact .corrected upload opened waits rfl rfl (.inr rfl)
    · rw [ran]
      exact .thrown (.refl store) (fails _ _ (by rw [waits]; rfl))
    · rw [ran]
      exact .corrected upload opened waits rfl rfl (.inl (fails _ _ (by rw [waits]; rfl)))
  | streaming upload =>
    simp only []
    have threw (problem : Problem) := fails problem none (by rw [waits]; rfl)
    cases works : transfer chunk.offset (chunk.stop - chunk.offset) (file.slice chunk.offset chunk.stop) none store with
    | error problem =>
      have ran : ∃ told, call fates.transfer Problem.unavailable
          (transfer chunk.offset (chunk.stop - chunk.offset) (file.slice chunk.offset chunk.stop) none) store = (.error told,store) := by
        unfold call
        cases fates.transfer <;> simp only [works] <;> exact ⟨_,rfl⟩
      obtain ⟨told,ran⟩ := ran
      rw [ran]
      exact .thrown (.refl store) (threw told)
    | ok pair =>
      obtain ⟨stored,later⟩ := pair
      obtain ⟨aligned,rfl,session,staged⟩ := transfer_appends works
      rcases @call_total _ _ _ fates.transfer Problem.unavailable _ _ _ _ works with ⟨ran,-⟩ | ran | ran
      · rw [ran]
        exact .appended upload waits aligned session staged (.inr rfl)
      · rw [ran]
        exact .thrown (.refl store) (threw _)
      · rw [ran]
        exact .appended upload waits aligned session staged (.inl (threw _))
  | stored upload next =>
    simp only []
    rcases @call_total _ _ _ fates.offset Problem.unavailable (setOffset next) () store _ rfl
      with ⟨ran,-⟩ | ran | ran
    · rw [ran]
      simp only []
      split
      next more => exact .counted upload next waits rfl rfl (.inr (.inl ⟨more,rfl⟩))
      next => exact .counted upload next waits rfl rfl (.inr (.inr rfl))
    · rw [ran]
      exact .thrown (.refl store) (fails _ _ (by rw [waits]; rfl))
    · rw [ran]
      exact .counted upload next waits rfl rfl (.inl (fails _ _ (by rw [waits]; rfl)))
  | publishing upload next =>
    have read := @land_publishes env upload fates store store rfl
    have threw (problem : Problem) := fails problem (some next) (by rw [waits]; rfl)
    simp only []
    split
    next problem later ran =>
      rw [ran] at read
      rcases read with still | ⟨body,published⟩
      · exact .thrown still (threw problem)
      · exact .landed upload next waits body published (.inl (threw problem))
    next bytes later ran =>
      rw [ran] at read
      obtain ⟨body,published⟩ := read
      exact .landed upload next waits body published (.inr ⟨bytes,rfl⟩)
  | recording upload next bytes =>
    simp only []
    have threw (problem : Problem) := fails problem (some next) (by rw [waits]; rfl)
    rcases @call_total _ _ _ fates.record Problem.unavailable (Uploads.recordPublishedFile entryId bytes)
      () store _ rfl with ⟨ran,-⟩ | ran | ran
    · rw [ran]
      exact .recorded upload next bytes waits ⟨rfl,rfl⟩ rfl
    · rw [ran]
      exact .thrown (.refl store) (threw _)
    · rw [ran]
      exact .thrown ⟨rfl,rfl⟩ (threw _)
  | completing upload next =>
    simp only []
    have threw (problem : Problem) := fails problem (some next) (by rw [waits]; rfl)
    rcases @call_total _ _ _ fates.complete Problem.unavailable (completed entryId next)
      () store _ rfl with ⟨ran,-⟩ | ran | ran
    · rw [ran]
      exact .completed upload next waits entryId rfl rfl (.inr rfl)
    · rw [ran]
      exact .thrown (.refl store) (threw _)
    · rw [ran]
      exact .completed upload next waits entryId rfl rfl (.inl (threw _))
  | answered answer => exact .idle answer waits rfl (.refl store)

end Depsis.Files.Uploader

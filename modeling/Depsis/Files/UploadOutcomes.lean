import Depsis.Files.Uploads

/-! What one request can do to an upload, whatever becomes of its calls. -/
namespace Depsis.Files.Uploads

open Depsis.Foundation Depsis.Foundation.Handlers

def contents (journal : List Entry) : List Chunk :=
  journal.foldl (fun kept entry => match entry with
    | .stored chunk => kept ++ [chunk]
    | .discarded => []) []

def accepted (store : Store) : List UInt8 := (contents store.journal).flatMap Chunk.body

@[simp] theorem contents_stored (journal : List Entry) (chunk : Chunk) :
    contents (journal ++ [.stored chunk]) = contents journal ++ [chunk] := by
  simp [contents]

@[simp] theorem contents_discarded (journal : List Entry) : contents (journal ++ [.discarded]) = [] := by
  simp [contents]

section

variable (env : Surroundings) (before : Store) (request : Patch) (fates : PatchFates)

structure Forwarded (upload : SessionRow) (offset chunkLength : Nat) (expected : Option (List UInt8)) : Prop where
  session : before.session = some upload
  incomplete : upload.fileId = none
  fits : checkChunk upload request = .ok (offset,chunkLength)
  aligned : (before.staged.getD []).length = offset
  checksum : parseChecksum env request.uploadChecksum = .ok expected
  whole : chunkLength ≤ request.body.length
  known : fates.session = .done
  granted : fates.share = .done
  opened : fates.opening = .done
  reached : fates.transfer ≠ .undone

def chunkOf (chunkLength : Nat) (expected : Option (List UInt8)) : Chunk := ⟨request.body.take chunkLength,expected⟩

def Cleared : Prop := fates.transfer = .done ∧ fates.discard ≠ .undone

def Lands (upload : SessionRow) : Prop :=
  fates.transfer = .done ∧ fates.offset = .done ∧ fates.folders = .done ∧ fates.owner = .done ∧
    if before.folder ∨ (destinationOf env upload).length < 2 then fates.publish ≠ .undone
    else fates.publish = .done ∧ fates.materialise = .done ∧ fates.again ≠ .undone

inductive Outcome (after : Store) : Prop where
  | idle (same : after = before)
  | opened (upload : SessionRow) (offset chunkLength : Nat) (found : before.session = some upload)
    (fits : checkChunk upload request = .ok (offset,chunkLength))
    (placed : after.placed = before.placed) (journal : after.journal = before.journal)
    (staged : after.staged = some (before.staged.getD []))
    (session : after.session = before.session ∨
      after.session = before.session.map (fun row => {row with offsetBytes := (before.staged.getD []).length}))
  | stored (upload : SessionRow) (offset chunkLength : Nat) (expected : Option (List UInt8))
    (forwarded : Forwarded env before request fates upload offset chunkLength expected)
    (placed : after.placed = before.placed)
    (journal : after.journal = before.journal ++ [.stored (chunkOf request chunkLength expected)])
    (staged : after.staged = some (before.staged.getD [] ++ request.body.take chunkLength))
    (session : after.session = before.session ∨
      after.session = before.session.map (fun row => {row with offsetBytes := offset + chunkLength}))
    (corrupt : ¬(chunkOf request chunkLength expected).verified env → ¬Cleared fates)
    (last : (chunkOf request chunkLength expected).verified env → offset + chunkLength = upload.lengthBytes →
      before.placed = none → ¬Lands env before fates upload)
  | discarded (upload : SessionRow) (offset chunkLength : Nat) (expected : Option (List UInt8))
    (forwarded : Forwarded env before request fates upload offset chunkLength expected)
    (placed : after.placed = before.placed)
    (journal : after.journal = before.journal ++ [.stored (chunkOf request chunkLength expected),.discarded])
    (staged : after.staged = none)
    (session : after.session = before.session ∨
      after.session = before.session.map (fun row => {row with offsetBytes := 0}))
  | landed (upload : SessionRow) (offset chunkLength : Nat) (expected : Option (List UInt8))
    (forwarded : Forwarded env before request fates upload offset chunkLength expected)
    (verified : (chunkOf request chunkLength expected).verified env) (last : offset + chunkLength = upload.lengthBytes)
    (free : before.placed = none)
    (placed : after.placed = some (before.staged.getD [] ++ request.body.take chunkLength))
    (journal : after.journal = before.journal ++ [.stored (chunkOf request chunkLength expected)])
    (staged : after.staged = none)
    (session : ∃ fileId, after.session =
      before.session.map (fun row => {row with offsetBytes := offset + chunkLength, fileId := fileId}))

end

section

variable {env : Surroundings} {before : Store} {request : Patch} {fates : PatchFates}

theorem passes_spec {start : Store → Prop} {fate : Fate} {answers : Unit → Store → Prop} {fails : Problem → Store → Prop}
    (done : ∀ store, start store → fate = .done → answers () store) (failed : ∀ store, start store → fails .unavailable store) :
    Triple start (call fate .unavailable passes) answers fails := by
  refine .call (fun store value after holds went ran => ?_) (fun store holds _ => failed store holds)
    (fun store value after holds _ ran => ?_) (fun store e _ ran => ?_)
  · cases ran
    exact done store holds went
  · cases ran
    exact failed store holds
  · cases ran

theorem loadSession_spec {start : Store → Prop} {fate : Fate} {answers : SessionRow → Store → Prop}
    {fails : Problem → Store → Prop}
    (found : ∀ store row, start store → fate = .done → store.session = some row → answers row store)
    (failed : ∀ store e, start store → fails e store) : Triple start (loadSession fate) answers fails := by
  unfold loadSession
  refine .bind (fun _ store => start store ∧ fate = .done)
    (passes_spec (fun store holds went => ⟨holds,went⟩) (fun store holds => failed store _ holds)) (fun _ => ?_)
  refine .ask (fun store row holds told => ?_) (fun store e holds _ => failed store e holds.1)
  cases stored : store.session with
  | none =>
    rw [stored] at told
    cases told
  | some kept =>
    rw [stored] at told
    cases told
    exact found store row holds.1 holds.2 stored

structure Published (expectedBytes : Nat) (before after : Store) (body : List UInt8) : Prop where
  staged : before.staged = some body
  long : body.length = expectedBytes
  free : before.placed = none
  session : after.session = before.session
  journal : after.journal = before.journal
  moved : after.staged = none
  placed : after.placed = some body

structure Unpublished (before after : Store) : Prop where
  session : after.session = before.session
  journal : after.journal = before.journal
  staged : after.staged = before.staged
  placed : after.placed = before.placed

theorem Unpublished.refl (store : Store) : Unpublished store store := ⟨rfl,rfl,rfl,rfl⟩

theorem publishTransfer_cases {destination : List String} {expectedBytes : Nat} {store after : Store} {answer : PublishAnswer}
    (ran : publishTransfer destination expectedBytes store = .ok (answer,after)) :
    (∃ body, answer = .published body.length ∧ Published expectedBytes store after body) ∨
      (after = store ∧ (∀ bytes, answer ≠ .published bytes) ∧
        ((∃ reason, answer = .notFound reason ∧ (store.staged = none ∨ (store.folder = false ∧ 2 ≤ destination.length))) ∨
          store.staged.map List.length ≠ some expectedBytes ∨ store.placed ≠ none)) := by
  unfold publishTransfer at ran
  split at ran
  next gone =>
    cases ran
    exact .inr ⟨rfl,nofun,.inl ⟨_,rfl,.inl gone⟩⟩
  next body staged =>
    split_ifs at ran with long folder taken
    · cases ran
      refine .inr ⟨rfl,nofun,.inr (.inl ?_)⟩
      rw [staged]
      simpa using long
    · cases ran
      obtain ⟨absent,nested⟩ := Bool.and_eq_true_iff.mp folder
      exact .inr ⟨rfl,nofun,.inl ⟨_,rfl,.inr ⟨by simpa using absent,of_decide_eq_true nested⟩⟩⟩
    · cases ran
      exact .inr ⟨rfl,nofun,.inr (.inr (by simpa [Option.isSome_iff_ne_none] using taken))⟩
    · cases ran
      refine .inl ⟨body,rfl,staged,not_not.mp long,by simpa using taken,rfl,rfl,rfl,rfl⟩

def Reaches (fates : PatchFates) (folder : Bool) (destination : List String) : Prop :=
  if folder ∨ destination.length < 2 then fates.publish ≠ .undone
  else fates.publish = .done ∧ fates.materialise = .done ∧ fates.again ≠ .undone

theorem publishTransfer_answers (destination : List String) (expectedBytes : Nat) (store : Store) (e : Problem) :
    publishTransfer destination expectedBytes store ≠ .error e := by
  unfold publishTransfer
  split
  next => nofun
  next => split_ifs <;> nofun

theorem publishTransfer_waits {destination : List String} {expectedBytes : Nat} {store after : Store} {answer : PublishAnswer}
    (ran : publishTransfer destination expectedBytes store = .ok (answer,after)) (unpublished : ∀ bytes, answer ≠ .published bytes)
    (ready : store.staged.map List.length = some expectedBytes) (free : store.placed = none) :
    (∃ reason, answer = .notFound reason) ∧ store.folder = false ∧ 2 ≤ destination.length := by
  rcases publishTransfer_cases ran with ⟨body,published,-⟩ | ⟨-,-,⟨reason,missing,gone | away⟩ | short | taken⟩
  · exact absurd published (unpublished _)
  · rw [gone] at ready
    cases ready
  · exact ⟨⟨reason,missing⟩,away⟩
  · exact absurd ready short
  · exact absurd free taken

section Publishing

variable {destination : List String} {expectedBytes : Nat} {store after : Store} {answer : PublishAnswer} {reason : String}

theorem publishTransfer_same (ran : publishTransfer destination expectedBytes store = .ok (answer,after)) :
    (∃ body, answer = .published body.length ∧ Published expectedBytes store after body) ∨
      ((∀ bytes, answer ≠ .published bytes) ∧ after = store) :=
  (publishTransfer_cases ran).imp_right (fun rest => ⟨rest.2.1,rest.1⟩)

def Missed (fates : PatchFates) (destination : List String) (expectedBytes : Nat) (store after : Store) : Prop :=
  (∃ body, Published expectedBytes store after body) ∨ (Unpublished store after ∧
    (store.staged.map List.length = some expectedBytes → store.placed = none → ¬Reaches fates store.folder destination))

theorem publish_again (fates : PatchFates)
    (first : publishTransfer destination expectedBytes store = .ok (.notFound reason,store)) :
    Triple (fun after => fates.materialise = .done ∧ after = {store with folder := true})
      (do
        match ← call fates.again .unavailable (publishTransfer destination expectedBytes) with
        | .published bytes => pure bytes
        | .conflict reason => raise (.nameTakenOnDisk (destination.getLastD "") reason)
        | .notFound reason => raise (.stagedBytesGone reason)
        | .refused reason => raise (.unexpectedStatus reason))
      (fun _ after => ∃ body, Published expectedBytes store after body)
      (fun _ after => Missed fates destination expectedBytes store after) := by
  have away (ready : store.staged.map List.length = some expectedBytes) (free : store.placed = none) :
      store.folder = false ∧ 2 ≤ destination.length :=
    (publishTransfer_waits first nofun ready free).2
  have settled {answer : PublishAnswer} {after : Store}
      (ran : publishTransfer destination expectedBytes {store with folder := true} = .ok (answer,after)) :
      (∃ body, answer = .published body.length ∧ Published expectedBytes store after body) ∨
        ((∀ bytes, answer ≠ .published bytes) ∧ Missed fates destination expectedBytes store after) := by
    rcases publishTransfer_same ran with ⟨body,told,published⟩ | ⟨unpublished,rfl⟩
    · exact .inl ⟨body,told,⟨published.staged,published.long,published.free,published.session,published.journal,
        published.moved,published.placed⟩⟩
    · refine .inr ⟨unpublished,.inr ⟨⟨rfl,rfl,rfl,rfl⟩,fun ready free => ?_⟩⟩
      obtain ⟨-,absent,-⟩ := publishTransfer_waits ran unpublished ready free
      cases absent
  refine .bind (fun answer after => publishTransfer destination expectedBytes {store with folder := true} = .ok (answer,after))
    (.call ?_ ?_ ?_ ?_) (fun answer => ?_)
  · rintro _ answer after ⟨-,rfl⟩ - ran
    exact ran
  · rintro _ ⟨made,rfl⟩ undone
    refine .inr ⟨⟨rfl,rfl,rfl,rfl⟩,fun ready free reaches => ?_⟩
    obtain ⟨folder,nested⟩ := away ready free
    rw [Reaches,folder,if_neg (not_or.mpr ⟨Bool.false_ne_true,not_lt.mpr nested⟩)] at reaches
    exact reaches.2.2 undone
  · rintro _ answer after ⟨-,rfl⟩ - ran
    rcases settled ran with ⟨body,-,published⟩ | ⟨-,missed⟩
    · exact .inl ⟨body,published⟩
    · exact missed
  · rintro _ e ⟨-,rfl⟩ ran
    exact absurd ran (publishTransfer_answers _ _ _ _)
  · cases answer with
    | published bytes =>
      refine .pure _ (fun after ran => ?_)
      rcases settled ran with ⟨body,-,published⟩ | ⟨unpublished,-⟩
      · exact ⟨body,published⟩
      · exact absurd rfl (unpublished bytes)
    | conflict reason | notFound reason | refused reason =>
      refine .raise _ (fun after ran => ?_)
      rcases settled ran with ⟨body,told,-⟩ | ⟨-,missed⟩
      · cases told
      · exact missed

theorem publish_spec (fates : PatchFates) (destination : List String) (expectedBytes : Nat) (store : Store) :
    Triple (· = store) (publish fates destination expectedBytes)
      (fun _ after => ∃ body, Published expectedBytes store after body)
      (fun _ after => Missed fates destination expectedBytes store after) := by
  have unlanded {answer : PublishAnswer} {after : Store} (ran : publishTransfer destination expectedBytes store = .ok (answer,after))
      (other : ∀ reason, answer ≠ .notFound reason) (unpublished : ∀ bytes, answer ≠ .published bytes) :
      Missed fates destination expectedBytes store after := by
    rcases publishTransfer_same ran with ⟨body,told,-⟩ | ⟨-,rfl⟩
    · exact absurd told (unpublished _)
    · refine .inr ⟨.refl _,fun ready free => ?_⟩
      obtain ⟨⟨reason,told⟩,-⟩ := publishTransfer_waits ran unpublished ready free
      exact absurd told (other reason)
  have unmade {reason : String} {after : Store}
      (ran : publishTransfer destination expectedBytes store = .ok (.notFound reason,after)) (failed : fates.materialise ≠ .done)
      (ready : store.staged.map List.length = some expectedBytes) (free : store.placed = none) :
      ¬Reaches fates store.folder destination := by
    intro reaches
    obtain ⟨-,folder,nested⟩ := publishTransfer_waits ran nofun ready free
    rw [Reaches,folder,if_neg (not_or.mpr ⟨Bool.false_ne_true,not_lt.mpr nested⟩)] at reaches
    exact failed reaches.2.1
  unfold publish
  refine .bind (fun answer after => fates.publish = .done ∧ publishTransfer destination expectedBytes store = .ok (answer,after))
    (.call ?_ ?_ ?_ ?_) (fun answer => ?_)
  · rintro _ answer after rfl went ran
    exact ⟨went,ran⟩
  · rintro _ rfl undone
    refine .inr ⟨.refl _,fun _ _ reaches => ?_⟩
    rw [Reaches,undone] at reaches
    split_ifs at reaches
    · exact reaches rfl
    · cases reaches.1
  · rintro _ answer after rfl unheard ran
    rcases publishTransfer_same ran with ⟨body,-,published⟩ | ⟨unpublished,rfl⟩
    · exact .inl ⟨body,published⟩
    · refine .inr ⟨.refl _,fun ready free reaches => ?_⟩
      obtain ⟨-,folder,nested⟩ := publishTransfer_waits ran unpublished ready free
      rw [Reaches,unheard,folder,if_neg (not_or.mpr ⟨Bool.false_ne_true,not_lt.mpr nested⟩)] at reaches
      cases reaches.1
  · rintro _ e rfl ran
    exact absurd ran (publishTransfer_answers _ _ _ _)
  · cases answer with
    | published bytes =>
      refine .pure _ (fun after ⟨_,ran⟩ => ?_)
      rcases publishTransfer_same ran with ⟨body,-,published⟩ | ⟨unpublished,-⟩
      · exact ⟨body,published⟩
      · exact absurd rfl (unpublished bytes)
    | conflict reason | refused reason => exact .raise _ (fun after ⟨_,ran⟩ => unlanded ran nofun nofun)
    | notFound reason =>
      simp only
      split_ifs with short
      · refine .raise _ (fun after ⟨_,ran⟩ => ?_)
        rcases publishTransfer_same ran with ⟨body,told,-⟩ | ⟨unpublished,rfl⟩
        · cases told
        · refine .inr ⟨.refl _,fun ready free => ?_⟩
          obtain ⟨-,-,nested⟩ := publishTransfer_waits ran unpublished ready free
          omega
      · refine .each (fun after ⟨_,ran⟩ => ?_)
        obtain rfl : after = store := by
          rcases publishTransfer_same ran with ⟨body,told,-⟩ | ⟨-,same⟩
          · cases told
          · exact same
        refine .bind (fun _ store => fates.materialise = .done ∧ store = {after with folder := true}) (.call ?_ ?_ ?_ ?_)
          (fun _ => publish_again fates ran)
        · rintro _ _ _ rfl went ran
          cases ran
          exact ⟨went,rfl⟩
        · rintro _ rfl undone
          exact .inr ⟨.refl _,unmade ran (by simp [undone])⟩
        · rintro _ _ _ rfl unheard made
          cases made
          exact .inr ⟨⟨rfl,rfl,rfl,rfl⟩,unmade ran (by simp [unheard])⟩
        · rintro _ e rfl made
          cases made

end Publishing

structure Finished (lengthBytes next : Nat) (store after : Store) (body : List UInt8) : Prop where
  staged : store.staged = some body
  long : body.length = lengthBytes
  free : store.placed = none
  journal : after.journal = store.journal
  moved : after.staged = none
  placed : after.placed = some body
  session : after.session = store.session ∨
    ∃ id, after.session = store.session.map (fun row => {row with fileId := some id, offsetBytes := next})

def Stuck (env : Surroundings) (upload : SessionRow) (fates : PatchFates) (store after : Store) : Prop :=
  Unpublished store after ∧ (store.staged.map List.length = some upload.lengthBytes → store.placed = none →
    ¬(fates.folders = .done ∧ fates.owner = .done ∧ Reaches fates store.folder (destinationOf env upload)))

theorem finish_spec (upload : SessionRow) (fates : PatchFates) (entryId : String) (next : Nat) (store : Store) :
    Triple (· = store) (finish env upload fates entryId next)
      (fun _ after => ∃ body, Finished upload.lengthBytes next store after body)
      (fun _ after => (∃ body, Finished upload.lengthBytes next store after body) ∨ Stuck env upload fates store after) := by
  have unwritten {after : Store} (published : ∃ body, Published upload.lengthBytes store after body) :
      ∃ body, Finished upload.lengthBytes next store after body := by
    obtain ⟨body,whole⟩ := published
    exact ⟨body,whole.staged,whole.long,whole.free,whole.journal,whole.moved,whole.placed,.inl whole.session⟩
  unfold finish
  refine .bind (fun _ after => fates.folders = .done ∧ after = store) (.call ?_ ?_ ?_ ?_) (fun _ => ?_)
  · rintro _ _ _ rfl went ran
    cases ran
    exact ⟨went,rfl⟩
  · rintro _ rfl undone
    exact .inr ⟨.refl _,fun _ _ lands => by simp [undone] at lands⟩
  · rintro _ _ _ rfl unheard ran
    cases ran
    exact .inr ⟨.refl _,fun _ _ lands => by simp [unheard] at lands⟩
  · rintro _ e rfl ran
    cases ran
  refine .bind (fun _ after => fates.folders = .done ∧ fates.owner = .done ∧ after = store) (.call ?_ ?_ ?_ ?_) (fun _ => ?_)
  · rintro _ _ _ ⟨folders,rfl⟩ went ran
    cases ran
    exact ⟨folders,went,rfl⟩
  · rintro _ ⟨-,rfl⟩ undone
    exact .inr ⟨.refl _,fun _ _ lands => by simp [undone] at lands⟩
  · rintro _ _ _ ⟨-,rfl⟩ unheard ran
    cases ran
    exact .inr ⟨.refl _,fun _ _ lands => by simp [unheard] at lands⟩
  · rintro _ e ⟨-,rfl⟩ ran
    cases ran
  refine .bind (fun _ after => ∃ body, Published upload.lengthBytes store after body)
    ((publish_spec fates (destinationOf env upload) upload.lengthBytes store).conseq (fun after both => both.2.2)
      (fun _ _ published => published) (fun _ after missed => ?_)) (fun bytes => ?_)
  · rcases missed with published | ⟨unpublished,unreached⟩
    · exact .inl (unwritten published)
    · exact .inr ⟨unpublished,fun ready free lands => unreached ready free lands.2.2⟩
  refine .bind (fun _ after => ∃ body, Finished upload.lengthBytes next store after body ∧ after.session = store.session)
    (.call ?_ ?_ ?_ ?_) (fun _ => ?_)
  · rintro middle _ _ ⟨body,whole⟩ - ran
    cases ran
    exact ⟨body,⟨whole.staged,whole.long,whole.free,whole.journal,whole.moved,whole.placed,.inl whole.session⟩,whole.session⟩
  · intro middle published _
    exact .inl (unwritten published)
  · rintro middle _ _ ⟨body,whole⟩ - ran
    cases ran
    exact .inl ⟨body,whole.staged,whole.long,whole.free,whole.journal,whole.moved,whole.placed,.inl whole.session⟩
  · rintro middle e _ ran
    cases ran
  refine .bind (fun _ after => ∃ body, Finished upload.lengthBytes next store after body) (.call ?_ ?_ ?_ ?_)
    (fun _ => .pure _ (fun _ finished => finished))
  · rintro middle _ _ ⟨body,whole,same⟩ - ran
    cases ran
    exact ⟨body,whole.staged,whole.long,whole.free,whole.journal,whole.moved,whole.placed,.inr ⟨entryId,by rw [← same]⟩⟩
  · rintro middle ⟨body,whole,-⟩ _
    exact .inl ⟨body,whole⟩
  · rintro middle _ _ ⟨body,whole,same⟩ - ran
    cases ran
    exact .inl ⟨body,whole.staged,whole.long,whole.free,whole.journal,whole.moved,whole.placed,.inr ⟨entryId,by rw [← same]⟩⟩
  · rintro middle e _ ran
    cases ran

structure Thrown (store after : Store) : Prop where
  session : after.session = store.session
  placed : after.placed = store.placed
  folder : after.folder = store.folder
  staged : after.staged = none
  journal : after.journal = store.journal ++ if store.staged.isSome then [.discarded] else []

theorem discard_spec (fate : Fate) (store : Store) : Triple (· = store)
    (attempted (call fate Problem.unavailable discardTransfer) : Request (Except Problem Unit))
    (fun answer after => (Thrown store after ∧ fate ≠ .undone) ∨ (after = store ∧ fate = .undone ∧ ∃ e, answer = .error e))
    (fun _ _ => False) := by
  refine .attempted (.call ?_ ?_ ?_ ?_)
  · rintro _ _ _ rfl went ran
    cases ran
    exact .inl ⟨⟨rfl,rfl,rfl,rfl,rfl⟩,by simp [went]⟩
  · rintro _ rfl undone
    exact .inr ⟨rfl,undone,_,rfl⟩
  · rintro _ _ _ rfl unheard ran
    cases ran
    exact .inl ⟨⟨rfl,rfl,rfl,rfl,rfl⟩,by simp [unheard]⟩
  · rintro _ e rfl ran
    cases ran

def Dealt (fates : PatchFates) (store after : Store) : Prop :=
  (after = store ∧ fates.discard = .undone) ∨ (after.placed = store.placed ∧ after.staged = none ∧
    after.journal = store.journal ++ (if store.staged.isSome then [.discarded] else []) ∧
    (after.session = store.session ∨ after.session = store.session.map (fun row => {row with offsetBytes := 0})))

theorem discardCorrupt_spec (fates : PatchFates) (store : Store) :
    Triple (· = store) (discardCorrupt fates) (fun _ after => Dealt fates store after) (fun _ after => Dealt fates store after) := by
  have gone {after : Store} (thrown : Thrown store after) : Dealt fates store after :=
    .inr ⟨thrown.placed,thrown.staged,thrown.journal,.inl thrown.session⟩
  unfold discardCorrupt
  refine .bind _ ((discard_spec fates.discard store).conseq (fun _ same => same) (fun _ _ dealt => dealt) (fun _ _ never => never.elim))
    (fun answer => ?_)
  cases answer with
  | error e =>
    refine .raise _ (fun after told => ?_)
    rcases told with ⟨thrown,-⟩ | ⟨same,undone,-⟩
    · exact gone thrown
    · exact .inl ⟨same,undone⟩
  | ok =>
    refine .bind (fun _ after => Dealt fates store after) (.call ?_ ?_ ?_ ?_) (fun _ => .raise _ (fun _ dealt => dealt))
    · rintro middle _ _ (⟨thrown,-⟩ | ⟨-,-,e,wrong⟩) - ran
      · cases ran
        exact .inr ⟨thrown.placed,thrown.staged,thrown.journal,.inr (by rw [← thrown.session])⟩
      · cases wrong
    · rintro middle (⟨thrown,-⟩ | ⟨-,-,e,wrong⟩) -
      · exact gone thrown
      · cases wrong
    · rintro middle _ _ (⟨thrown,-⟩ | ⟨-,-,e,wrong⟩) - ran
      · cases ran
        exact .inr ⟨thrown.placed,thrown.staged,thrown.journal,.inr (by rw [← thrown.session])⟩
      · cases wrong
    · rintro middle e _ ran
      cases ran

theorem counted_spec {upload : SessionRow} {offset chunkLength : Nat} {expected : Option (List UInt8)} {store middle : Store}
    (forwarded : Forwarded env store request fates upload offset chunkLength expected)
    (staged : middle.staged = some (store.staged.getD [] ++ request.body.take chunkLength))
    (session : middle.session = store.session) (placed : middle.placed = store.placed) (folder : middle.folder = store.folder)
    (journal : middle.journal = store.journal ++ [.stored (chunkOf request chunkLength expected)]) :
    Triple (· = middle)
      (if ¬Chunk.verified env (chunkOf request chunkLength expected) then discardCorrupt fates
      else do
        call fates.offset .unavailable (setOffset (offset + chunkLength))
        if offset + chunkLength < upload.lengthBytes then pure (offset + chunkLength)
        else finish env upload fates request.entryId (offset + chunkLength))
      (fun _ after => Outcome env store request fates after) (fun _ after => Outcome env store request fates after) := by
  have kept {after : Store} (same : after.placed = middle.placed) (entries : after.journal = middle.journal)
      (bytes : after.staged = middle.staged) (row : after.session = middle.session ∨
        after.session = middle.session.map (fun row => {row with offsetBytes := offset + chunkLength}))
      (corrupt : ¬(chunkOf request chunkLength expected).verified env → ¬Cleared fates)
      (last : (chunkOf request chunkLength expected).verified env → offset + chunkLength = upload.lengthBytes →
        store.placed = none → ¬Lands env store fates upload) : Outcome env store request fates after :=
    .stored upload offset chunkLength expected forwarded (same.trans placed) (entries.trans journal) (bytes.trans staged)
      (session ▸ row) corrupt last
  by_cases verified : Chunk.verified env (chunkOf request chunkLength expected)
  case neg =>
    rw [if_pos verified]
    have dealt {after : Store} (ended : Dealt fates middle after) : Outcome env store request fates after := by
      rcases ended with ⟨rfl,undone⟩ | ⟨same,gone,entries,row⟩
      · exact kept rfl rfl rfl (.inl rfl) (fun _ cleared => cleared.2 undone) (fun intact => absurd intact verified)
      · refine .discarded upload offset chunkLength expected forwarded (same.trans placed) ?_ gone (session ▸ row)
        rw [entries,journal,staged]
        simp
    exact (discardCorrupt_spec fates middle).conseq (fun _ same => same) (fun _ _ ended => dealt ended) (fun _ _ ended => dealt ended)
  rw [if_neg (not_not.mpr verified)]
  have unlanded {after : Store} (same : after.placed = middle.placed) (entries : after.journal = middle.journal)
      (bytes : after.staged = middle.staged) (row : after.session = middle.session ∨
        after.session = middle.session.map (fun row => {row with offsetBytes := offset + chunkLength}))
      (last : offset + chunkLength = upload.lengthBytes → store.placed = none → ¬Lands env store fates upload) :
      Outcome env store request fates after :=
    kept same entries bytes row (fun other => absurd verified other) (fun _ => last)
  refine .bind (fun _ after => fates.offset = .done ∧ after =
      {middle with session := middle.session.map (fun row => {row with offsetBytes := offset + chunkLength})})
    (.call ?_ ?_ ?_ ?_) (fun _ => ?_)
  · rintro _ _ _ rfl went ran
    cases ran
    exact ⟨went,rfl⟩
  · rintro _ rfl undone
    exact unlanded rfl rfl rfl (.inl rfl) (fun _ _ lands => by simp [Lands,undone] at lands)
  · rintro _ _ _ rfl unheard ran
    cases ran
    exact unlanded rfl rfl rfl (.inr rfl) (fun _ _ lands => by simp [Lands,unheard] at lands)
  · rintro _ e rfl ran
    cases ran
  split_ifs with more
  · refine .pure _ (fun after ⟨_,same⟩ => ?_)
    subst same
    exact unlanded rfl rfl rfl (.inr rfl) (fun last => absurd last (by omega))
  refine .each (fun counted ⟨_,same⟩ => ?_)
  have landed {after : Store} {body : List UInt8}
      (finished : Finished upload.lengthBytes (offset + chunkLength) counted after body) : Outcome env store request fates after := by
    subst same
    have bytes : body = store.staged.getD [] ++ request.body.take chunkLength :=
      Option.some.inj (finished.staged.symm.trans staged)
    have total : offset + chunkLength = upload.lengthBytes := by
      rw [← finished.long,bytes,List.length_append,List.length_take,Nat.min_eq_left forwarded.whole,forwarded.aligned]
    refine .landed upload offset chunkLength expected forwarded verified total (placed ▸ finished.free) (bytes ▸ finished.placed)
      (finished.journal.trans journal) finished.moved ?_
    rcases finished.session with row | ⟨id,row⟩
    · refine ⟨none,row.trans ?_⟩
      rw [session,forwarded.session]
      simp [forwarded.incomplete]
    · refine ⟨some id,row.trans ?_⟩
      rw [session,forwarded.session]
      rfl
  refine (finish_spec upload fates request.entryId (offset + chunkLength) counted).conseq (fun _ same => same)
    (fun _ _ ⟨_,finished⟩ => landed finished) (fun _ after ended => ?_)
  rcases ended with ⟨_,finished⟩ | ⟨unpublished,stuck⟩
  · exact landed finished
  · subst same
    refine unlanded unpublished.placed unpublished.journal unpublished.staged (.inr unpublished.session) (fun last free lands => ?_)
    refine stuck ?_ (placed.trans free) ⟨lands.2.2.1,lands.2.2.2.1,?_⟩
    · rw [staged,Option.map_some,List.length_append,List.length_take,Nat.min_eq_left forwarded.whole,forwarded.aligned,last]
    · have reaches := lands.2.2.2.2
      rw [← folder] at reaches
      exact reaches

theorem sendChunk_spec (fates : PatchFates) (request : Patch) (store : Store) :
    Triple (· = store) (sendChunk env fates request) (fun _ after => Outcome env store request fates after)
      (fun _ after => Outcome env store request fates after) := by
  have idle {after : Store} (same : after = store) : Outcome env store request fates after := .idle same
  unfold sendChunk
  refine .bind (fun upload after => after = store ∧ fates.session = .done ∧ store.session = some upload)
    (loadSession_spec (fun _ row same went stored => ⟨same,went,same ▸ stored⟩) (fun _ _ same => idle same)) (fun upload => ?_)
  refine .each (fun middle ⟨same,session,found⟩ => ?_)
  subst middle
  split_ifs with complete
  · exact .raise _ (fun _ same => idle same)
  have incomplete : upload.fileId = none := by simpa using complete
  refine .bind (fun checked after => after = store ∧ checkChunk upload request = .ok checked)
    (.ask (fun _ _ same told => ⟨same,told⟩) (fun _ _ same _ => idle same)) (fun ⟨offset,chunkLength⟩ => ?_)
  refine .each (fun middle ⟨same,fits⟩ => ?_)
  subst middle
  refine .bind (fun _ after => after = store ∧ fates.share = .done)
    (passes_spec (fun _ same went => ⟨same,went⟩) (fun _ same => idle same)) (fun _ => ?_)
  have opened {after : Store} (session : after.session = store.session ∨
        after.session = store.session.map (fun row => {row with offsetBytes := (store.staged.getD []).length}))
      (placed : after.placed = store.placed) (journal : after.journal = store.journal)
      (staged : after.staged = some (store.staged.getD [])) : Outcome env store request fates after :=
    .opened upload offset chunkLength found fits placed journal staged session
  refine .each (fun middle ⟨same,share⟩ => ?_)
  subst middle
  refine .bind (fun length after => length = (store.staged.getD []).length ∧
      after = {store with staged := some (store.staged.getD [])} ∧ fates.opening = .done) (.call ?_ ?_ ?_ ?_) (fun length => ?_)
  · rintro _ _ _ rfl went ran
    cases ran
    exact ⟨rfl,rfl,went⟩
  · exact fun _ same _ => idle same
  · rintro _ _ _ rfl - ran
    cases ran
    exact opened (.inl rfl) rfl rfl rfl
  · rintro _ e rfl ran
    cases ran
  refine .each (fun middle ⟨long,same,opening⟩ => ?_)
  subst long same
  split_ifs with apart
  · refine .bind (fun _ after => Outcome env store request fates after) (.call ?_ ?_ ?_ ?_)
      (fun _ => .raise _ (fun _ ended => ended))
    · rintro _ _ _ rfl - ran
      cases ran
      exact opened (.inr rfl) rfl rfl rfl
    · rintro _ rfl -
      exact opened (.inl rfl) rfl rfl rfl
    · rintro _ _ _ rfl - ran
      cases ran
      exact opened (.inr rfl) rfl rfl rfl
    · rintro _ e rfl ran
      cases ran
  have aligned : (store.staged.getD []).length = offset := not_not.mp apart
  refine .bind (fun expected after => parseChecksum env request.uploadChecksum = .ok expected ∧
      after = {store with staged := some (store.staged.getD [])})
    (.ask (fun _ _ same told => ⟨told,same⟩) (fun _ _ same _ => ?_)) (fun expected => ?_)
  · rw [same]
    exact opened (.inl rfl) rfl rfl rfl
  refine .each (fun middle ⟨checksum,same⟩ => ?_)
  subst same
  have reading {value : Nat} {after : Store} (reached : fates.transfer ≠ .undone) (ran : transfer (store.staged.getD []).length
      chunkLength request.body expected {store with staged := some (store.staged.getD [])} = .ok (value,after)) :
      value = chunkLength ∧ Forwarded env store request fates upload offset chunkLength expected ∧
        after = {store with
          staged := some (store.staged.getD [] ++ request.body.take chunkLength)
          journal := store.journal ++ [.stored (chunkOf request chunkLength expected)]} := by
    unfold transfer stage at ran
    simp only [Option.getD_some,ne_eq,not_true_eq_false,if_false] at ran
    split_ifs at ran with short
    cases ran
    exact ⟨rfl,⟨found,incomplete,fits,aligned,checksum,not_lt.mp short,session,share,opening,reached⟩,rfl⟩
  refine .bind (fun stored after => fates.transfer = .done ∧ stored = chunkLength ∧
      Forwarded env store request fates upload offset chunkLength expected ∧ after = {store with
        staged := some (store.staged.getD [] ++ request.body.take chunkLength)
        journal := store.journal ++ [.stored (chunkOf request chunkLength expected)]}) (.call ?_ ?_ ?_ ?_) (fun stored => ?_)
  · rintro _ value after rfl went ran
    exact ⟨went,reading (by simp [went]) ran⟩
  · rintro _ rfl -
    exact opened (.inl rfl) rfl rfl rfl
  · rintro _ value after rfl unheard ran
    obtain ⟨-,forwarded,rfl⟩ := reading (by simp [unheard]) ran
    exact .stored upload offset chunkLength expected forwarded rfl rfl rfl (.inl rfl)
      (fun _ cleared => by simp [unheard,Cleared] at cleared) (fun _ _ _ lands => by simp [unheard,Lands] at lands)
  · rintro _ e rfl -
    exact ⟨opened (.inl rfl) rfl rfl rfl,opened (.inl rfl) rfl rfl rfl⟩
  refine .each (fun middle ⟨_,whole,forwarded,same⟩ => ?_)
  subst whole same
  exact counted_spec forwarded rfl rfl rfl rfl rfl

structure Cancelled (store after : Store) : Prop where
  placed : after.placed = store.placed
  staged : after.staged = none
  journal : after.journal = store.journal ++ if store.staged.isSome then [.discarded] else []
  session : after.session = store.session ∨ after.session = none

theorem cancel_spec (fates : CancelFates) (store : Store) : Triple (· = store) (cancel fates)
    (fun _ after => after = store ∨ Cancelled store after) (fun _ after => after = store ∨ Cancelled store after) := by
  have gone {after : Store} (thrown : Thrown store after) : after = store ∨ Cancelled store after :=
    .inr ⟨thrown.placed,thrown.staged,thrown.journal,.inl thrown.session⟩
  unfold cancel
  refine .bind (fun _ after => after = store) (loadSession_spec (fun _ _ same _ _ => same) (fun _ _ same => .inl same))
    (fun upload => ?_)
  split_ifs
  · exact .raise _ (fun _ same => .inl same)
  refine .bind (fun _ after => after = store) (passes_spec (fun _ same _ => same) (fun _ same => .inl same)) (fun _ => ?_)
  refine .bind _ ((discard_spec fates.discard store).conseq (fun _ same => same) (fun _ _ dealt => dealt) (fun _ _ never => never.elim))
    (fun answer => ?_)
  cases answer with
  | error e =>
    refine .raise _ (fun after told => ?_)
    rcases told with ⟨thrown,-⟩ | ⟨same,-⟩
    · exact gone thrown
    · exact .inl same
  | ok =>
    refine .each (fun middle told => ?_)
    have thrown : Thrown store middle := by
      rcases told with ⟨thrown,-⟩ | ⟨-,-,e,wrong⟩
      · exact thrown
      · cases wrong
    refine .call ?_ ?_ ?_ ?_
    · rintro _ _ _ rfl - ran
      cases ran
      exact .inr ⟨thrown.placed,thrown.staged,thrown.journal,.inr rfl⟩
    · rintro _ rfl -
      exact gone thrown
    · rintro _ _ _ rfl - ran
      cases ran
      exact .inr ⟨thrown.placed,thrown.staged,thrown.journal,.inr rfl⟩
    · rintro _ e rfl ran
      cases ran

theorem status_frame (fate : Fate) (store : Store) : (status fate store).2 = store := by
  have kept : Triple (· = store) (status fate) (fun _ after => after = store) (fun _ after => after = store) := by
    unfold status
    refine .bind (fun _ after => after = store) (loadSession_spec (fun _ _ same _ _ => same) (fun _ _ same => same)) (fun _ => ?_)
    exact .pure _ (fun _ same => same)
  exact kept.after rfl

end

end Depsis.Files.Uploads

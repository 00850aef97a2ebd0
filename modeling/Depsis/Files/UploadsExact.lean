import Depsis.Files.UploadOutcomes

/-! What a run of requests leaves of an upload: the chunks the agent stored, in order, and
nothing else; and when the rest can still follow.
-/
namespace Depsis.Files.Uploads

open Depsis.Foundation Depsis.Foundation.Handlers List

structure Exact (lengthBytes : Nat) (store : Store) : Prop where
  row : ∀ row, store.session = some row → row.lengthBytes = lengthBytes ∧ row.offsetBytes ≤ lengthBytes
  waiting : store.placed = none → store.staged.getD [] = accepted store ∧ (accepted store).length ≤ lengthBytes ∧
    ∀ row, store.session = some row → row.fileId = none
  done : ∀ bytes, store.placed = some bytes → bytes = accepted store ∧ bytes.length = lengthBytes ∧ store.staged = none ∧
    ∀ row, store.session = some row → row.offsetBytes = lengthBytes

structure Intact (env : Surroundings) (lengthBytes : Nat) (store : Store) : Prop where
  verified : ∀ chunk ∈ contents store.journal, chunk.verified env
  short : store.placed = none → (accepted store).length < lengthBytes ∧
    ∀ row, store.session = some row → row.offsetBytes < lengthBytes

/-- The condition on a chunk that goes out to the agent: a corrupt one is discarded by the
request that brought it, and the last one is published by it.
-/
def Admits (env : Surroundings) (store : Store) : Event → Prop
  | .patch request fates => ∀ upload offset chunkLength expected,
    Forwarded env store request fates upload offset chunkLength expected →
      (¬(chunkOf request chunkLength expected).verified env → Cleared fates) ∧
      ((chunkOf request chunkLength expected).verified env → offset + chunkLength = upload.lengthBytes →
        Lands env store fates upload)
  | _ => True

section

variable {env : Surroundings} {lengthBytes : Nat} {store after : Store} {request : Patch} {fates : PatchFates}

theorem checkChunk_fits {upload : SessionRow} {offset chunkLength : Nat}
    (fits : checkChunk upload request = .ok (offset,chunkLength)) :
    offset = upload.offsetBytes ∧ 0 < chunkLength ∧ offset + chunkLength ≤ upload.lengthBytes := by
  unfold checkChunk at fits
  split at fits
  next => cases fits
  next declared told =>
    split_ifs at fits with unsafe' differs
    split at fits
    next => cases fits
    next size _ =>
      split_ifs at fits with none_left past
      cases fits
      simp only [Bool.or_eq_true,decide_eq_true_eq,not_or] at none_left
      have same : declared = upload.offsetBytes := not_not.mp differs
      omega

private theorem row_map {store after : Store} {change : SessionRow → SessionRow} {row : SessionRow}
    (session : after.session = store.session.map change) (found : after.session = some row) :
    ∃ was, store.session = some was ∧ row = change was := by
  rw [session] at found
  obtain ⟨was,there,same⟩ := Option.map_eq_some_iff.mp found
  exact ⟨was,there,same.symm⟩

theorem Exact.forwarded (exact : Exact lengthBytes store) {upload : SessionRow} {offset chunkLength : Nat}
    (found : store.session = some upload) (fits : checkChunk upload request = .ok (offset,chunkLength)) :
    store.placed = none ∧ offset + chunkLength ≤ lengthBytes ∧ 0 < chunkLength ∧ offset = upload.offsetBytes ∧
      upload.lengthBytes = lengthBytes := by
  obtain ⟨rfl,positive,room⟩ := checkChunk_fits fits
  obtain ⟨long,-⟩ := exact.row upload found
  refine ⟨?_,long ▸ room,positive,rfl,long⟩
  cases placed : store.placed with
  | none => rfl
  | some bytes =>
    have full := (exact.done bytes placed).2.2.2 upload found
    omega

theorem accepted_stored (chunk : Chunk) (journal : after.journal = store.journal ++ [.stored chunk]) :
    accepted after = accepted store ++ chunk.body := by
  simp [accepted,journal]

theorem accepted_discarded (chunk : Chunk) (journal : after.journal = store.journal ++ [.stored chunk,.discarded]) :
    accepted after = [] := by
  have last : store.journal ++ [.stored chunk,.discarded] = store.journal ++ [.stored chunk] ++ [.discarded] := by simp
  rw [accepted,journal,last,contents_discarded]
  rfl

section

variable (exact : Exact lengthBytes store)
include exact

theorem Exact.patch (outcome : Outcome env store request fates after) :
    Exact lengthBytes after := by
  cases outcome with
  | idle same =>
    rw [same]
    exact exact
  | opened upload offset chunkLength found fits placed journal staged session =>
    obtain ⟨free,-⟩ := exact.forwarded found fits
    obtain ⟨bytes,room,unfinished⟩ := exact.waiting free
    have same : accepted after = accepted store := by rw [accepted,journal,accepted]
    refine ⟨fun row here => ?_,fun _ => ⟨?_,same ▸ room,fun row here => ?_⟩,fun bytes there => ?_⟩
    · rcases session with kept | moved
      · exact exact.row row (kept ▸ here)
      · obtain ⟨was,there,rfl⟩ := row_map moved here
        exact ⟨(exact.row was there).1,bytes ▸ room⟩
    · rw [staged,same,← bytes]
      rfl
    · rcases session with kept | moved
      · exact unfinished row (kept ▸ here)
      · obtain ⟨was,there,rfl⟩ := row_map moved here
        exact unfinished was there
    · rw [placed,free] at there
      cases there
  | stored upload offset chunkLength expected forwarded placed journal staged session =>
    obtain ⟨free,room,positive,-⟩ := exact.forwarded forwarded.session forwarded.fits
    obtain ⟨bytes,-,unfinished⟩ := exact.waiting free
    have grown := accepted_stored _ journal
    have long : (accepted store).length = offset := by rw [← bytes,forwarded.aligned]
    have size : (request.body.take chunkLength).length = chunkLength := by
      rw [length_take,Nat.min_eq_left forwarded.whole]
    refine ⟨fun row here => ?_,fun _ => ⟨?_,?_,fun row here => ?_⟩,fun bytes there => ?_⟩
    · rcases session with kept | moved
      · exact exact.row row (kept ▸ here)
      · obtain ⟨was,there,rfl⟩ := row_map moved here
        exact ⟨(exact.row was there).1,room⟩
    · rw [staged,grown,← bytes]
      rfl
    · rw [grown,length_append,chunkOf,size,long]
      exact room
    · rcases session with kept | moved
      · exact unfinished row (kept ▸ here)
      · obtain ⟨was,there,rfl⟩ := row_map moved here
        exact unfinished was there
    · rw [placed,free] at there
      cases there
  | discarded upload offset chunkLength expected forwarded placed journal staged session =>
    obtain ⟨free,-⟩ := exact.forwarded forwarded.session forwarded.fits
    have emptied := accepted_discarded _ journal
    refine ⟨fun row here => ?_,fun _ => ⟨?_,?_,fun row here => ?_⟩,fun bytes there => ?_⟩
    · rcases session with kept | moved
      · exact exact.row row (kept ▸ here)
      · obtain ⟨was,there,rfl⟩ := row_map moved here
        exact ⟨(exact.row was there).1,Nat.zero_le _⟩
    · rw [staged,emptied]
      rfl
    · rw [emptied]
      exact Nat.zero_le _
    · obtain ⟨-,-,unfinished⟩ := exact.waiting free
      rcases session with kept | moved
      · exact unfinished row (kept ▸ here)
      · obtain ⟨was,there,rfl⟩ := row_map moved here
        exact unfinished was there
    · rw [placed,free] at there
      cases there
  | landed upload offset chunkLength expected forwarded verified last free placed journal staged session =>
    obtain ⟨-,-,-,-,long⟩ := exact.forwarded forwarded.session forwarded.fits
    obtain ⟨bytes,-⟩ := exact.waiting free
    have grown := accepted_stored _ journal
    obtain ⟨fileId,moved⟩ := session
    refine ⟨fun row here => ?_,fun none_placed => ?_,fun body there => ?_⟩
    · obtain ⟨was,there,rfl⟩ := row_map moved here
      exact ⟨(exact.row was there).1,(last.trans long).le⟩
    · rw [placed] at none_placed
      cases none_placed
    · cases placed.symm.trans there
      refine ⟨by rw [grown,← bytes]; rfl,?_,staged,fun row here => ?_⟩
      · rw [length_append,forwarded.aligned,length_take,Nat.min_eq_left forwarded.whole,last,long]
      · obtain ⟨was,-,rfl⟩ := row_map moved here
        exact last.trans long

theorem Exact.cancel (cancelled : Cancelled store after) : Exact lengthBytes after := by
  have rows (row : SessionRow) (here : after.session = some row) : store.session = some row := by
    rcases cancelled.session with kept | gone
    · exact kept ▸ here
    · rw [gone] at here
      cases here
  have emptied (free : store.placed = none) : accepted after = [] := by
    obtain ⟨bytes,-⟩ := exact.waiting free
    rw [accepted,cancelled.journal]
    cases staged : store.staged with
    | none =>
      rw [staged] at bytes
      simpa [accepted] using bytes.symm
    | some file => simp
  refine ⟨fun row here => exact.row row (rows row here),fun free => ?_,fun bytes there => ?_⟩
  · rw [cancelled.placed] at free
    rw [emptied free,cancelled.staged]
    exact ⟨rfl,Nat.zero_le _,fun row here => (exact.waiting free).2.2 row (rows row here)⟩
  · obtain ⟨same,long,none_staged,full⟩ := exact.done bytes (cancelled.placed ▸ there)
    refine ⟨?_,long,cancelled.staged,fun row here => full row (rows row here)⟩
    rw [same,accepted,accepted,cancelled.journal,none_staged]
    simp

theorem Intact.patch (intact : Intact env lengthBytes store) (positive : 0 < lengthBytes)
    (admits : Admits env store (.patch request fates)) (outcome : Outcome env store request fates after) :
    Intact env lengthBytes after := by
  cases outcome with
  | idle same =>
    rw [same]
    exact intact
  | opened upload offset chunkLength found fits placed journal staged session =>
    obtain ⟨free,-⟩ := exact.forwarded found fits
    obtain ⟨short,behind⟩ := intact.short free
    have same : accepted after = accepted store := by rw [accepted,journal,accepted]
    refine ⟨journal ▸ intact.verified,fun _ => ⟨same ▸ short,fun row here => ?_⟩⟩
    rcases session with kept | moved
    · exact behind row (kept ▸ here)
    · obtain ⟨was,there,rfl⟩ := row_map moved here
      rw [← (exact.waiting free).1] at short
      exact short
  | stored upload offset chunkLength expected forwarded placed journal staged session corrupt last =>
    obtain ⟨free,room,-,-,long⟩ := exact.forwarded forwarded.session forwarded.fits
    obtain ⟨clears,lands⟩ := admits upload offset chunkLength expected forwarded
    have verified : (chunkOf request chunkLength expected).verified env := by
      by_contra other
      exact corrupt other (clears other)
    have more : offset + chunkLength < lengthBytes := by
      refine lt_of_le_of_ne room (fun full => ?_)
      exact last verified (full.trans long.symm) free (lands verified (full.trans long.symm))
    refine ⟨fun chunk member => ?_,fun _ => ⟨?_,fun row here => ?_⟩⟩
    · rw [journal,contents_stored] at member
      rcases mem_append.mp member with earlier | new
      · exact intact.verified chunk earlier
      · rw [mem_singleton.mp new]
        exact verified
    · rw [accepted_stored _ journal,length_append,chunkOf,length_take,Nat.min_eq_left forwarded.whole,
        ← (exact.waiting free).1,forwarded.aligned]
      exact more
    · rcases session with kept | moved
      · exact (intact.short free).2 row (kept ▸ here)
      · obtain ⟨was,there,rfl⟩ := row_map moved here
        exact more
  | discarded upload offset chunkLength expected forwarded placed journal staged session =>
    obtain ⟨free,-⟩ := exact.forwarded forwarded.session forwarded.fits
    have last : store.journal ++ [.stored (chunkOf request chunkLength expected),.discarded] =
        store.journal ++ [.stored (chunkOf request chunkLength expected)] ++ [.discarded] := by simp
    refine ⟨fun chunk member => ?_,fun _ => ⟨?_,fun row here => ?_⟩⟩
    · rw [journal,last,contents_discarded] at member
      cases member
    · rw [accepted_discarded _ journal]
      exact positive
    · rcases session with kept | moved
      · exact (intact.short free).2 row (kept ▸ here)
      · obtain ⟨was,there,rfl⟩ := row_map moved here
        exact positive
  | landed upload offset chunkLength expected forwarded verified last free placed journal =>
    refine ⟨fun chunk member => ?_,fun none_placed => ?_⟩
    · rw [journal,contents_stored] at member
      rcases mem_append.mp member with earlier | new
      · exact intact.verified chunk earlier
      · rw [mem_singleton.mp new]
        exact verified
    · rw [placed] at none_placed
      cases none_placed

end

theorem Intact.cancel (intact : Intact env lengthBytes store) (cancelled : Cancelled store after) :
    Intact env lengthBytes after := by
  have fewer (chunk : Chunk) (member : chunk ∈ contents after.journal) : chunk ∈ contents store.journal := by
    rw [cancelled.journal] at member
    split_ifs at member
    · rw [contents_discarded] at member
      cases member
    · rwa [append_nil] at member
  refine ⟨fun chunk member => intact.verified chunk (fewer chunk member),fun free => ?_⟩
  obtain ⟨short,behind⟩ := intact.short (cancelled.placed ▸ free)
  refine ⟨?_,fun row here => ?_⟩
  · rw [accepted,cancelled.journal]
    split_ifs
    · rw [contents_discarded]
      exact Nat.zero_lt_of_lt short
    · rwa [append_nil]
  · rcases cancelled.session with kept | gone
    · exact behind row (kept ▸ here)
    · rw [gone] at here
      cases here

theorem Exact.step (exact : Exact lengthBytes store) (event : Event) (ran : step env store event = some after) :
    Exact lengthBytes after := by
  cases event with
  | patch request fates =>
    cases ran
    exact exact.patch ((sendChunk_spec fates request store).after rfl)
  | head fate =>
    cases ran
    rw [status_frame]
    exact exact
  | cancel fates =>
    cases ran
    rcases (cancel_spec fates store).after rfl with same | cancelled
    · rw [same]
      exact exact
    · exact exact.cancel cancelled

theorem Intact.step (intact : Intact env lengthBytes store) (exact : Exact lengthBytes store) (positive : 0 < lengthBytes)
    (event : Event) (admits : Admits env store event) (ran : step env store event = some after) :
    Intact env lengthBytes after := by
  cases event with
  | patch request fates =>
    cases ran
    exact intact.patch exact positive admits ((sendChunk_spec fates request store).after rfl)
  | head fate =>
    cases ran
    rw [status_frame]
    exact intact
  | cancel fates =>
    cases ran
    rcases (cancel_spec fates store).after rfl with same | cancelled
    · rw [same]
      exact intact
    · exact intact.cancel cancelled

end

def created (filename : String) (parentId : Option String) (lengthBytes : Nat) (folder : Bool) : Store :=
  ⟨some ⟨filename,parentId,lengthBytes,0,none⟩,none,folder,none,none,[]⟩

def calm : PatchFates :=
  ⟨.done,.done,.done,.done,.done,.done,.done,.done,.done,.done,.done,.done,.done,.done,.done⟩

def rest (offset : Nat) (whole : List UInt8) (entryId : String) : Patch :=
  ⟨some offset,some (whole.length - offset),none,whole.drop offset,entryId⟩

def resume (env : Surroundings) (whole : List UInt8) (entryId : String) (store : Store) : Store :=
  match status .done store with
  | (.error _,store) => store
  | (.ok (offset,_),store) =>
    if offset < whole.length then (sendChunk env calm (rest offset whole entryId) store).2 else store

/-- What an upload owes: a published file is what was accepted, in order and of the declared
length, with no chunk that its digest disowns; and until then the rest can still follow, in
two rounds at most where the first learns the offset.
-/
structure Faithful (env : Surroundings) (lengthBytes : Nat) (store : Store) : Prop where
  published : ∀ bytes, store.placed = some bytes → bytes = accepted store ∧ bytes.length = lengthBytes ∧
    ∀ chunk ∈ contents store.journal, chunk.verified env
  resumes : store.session.isSome → store.placed = none → ∀ more entryId, (accepted store ++ more).length = lengthBytes →
    (resume env (accepted store ++ more) entryId (resume env (accepted store ++ more) entryId store)).placed =
      some (accepted store ++ more)

section

variable {env : Surroundings} {lengthBytes : Nat} {store after : Store} {upload : SessionRow} {whole : List UInt8} {entryId : String}

theorem rest_fits (long : upload.lengthBytes = whole.length) (safe : (whole.length : Int) ≤ MAX_SAFE_INTEGER) (behind : upload.offsetBytes < whole.length) :
    checkChunk upload (rest upload.offsetBytes whole entryId) = .ok (upload.offsetBytes,whole.length - upload.offsetBytes) := by
  have fine (number : Int) (low : 0 ≤ number) (high : number ≤ whole.length) : isSafeInteger number = true := by
    rw [isSafeInteger,Bool.and_eq_true,decide_eq_true_eq,decide_eq_true_eq]
    have := safe
    unfold MAX_SAFE_INTEGER at this ⊢
    omega
  have first := fine upload.offsetBytes (by omega) (by omega)
  have second := fine (whole.length - upload.offsetBytes) (by omega) (by omega)
  have more : ¬((whole.length : Int) - upload.offsetBytes ≤ 0) := by omega
  have room : ¬((upload.lengthBytes : Int) < upload.offsetBytes + (whole.length - upload.offsetBytes)) := by omega
  have size : ((whole.length : Int) - upload.offsetBytes).toNat = whole.length - upload.offsetBytes := by omega
  simp only [checkChunk,rest,first,second,more,room,size]
  simp

theorem stale_run (found : store.session = some upload) (incomplete : upload.fileId = none)
    (fits : checkChunk upload (rest upload.offsetBytes whole entryId) = .ok (upload.offsetBytes,whole.length - upload.offsetBytes))
    (apart : (store.staged.getD []).length ≠ upload.offsetBytes) :
    (sendChunk env calm (rest upload.offsetBytes whole entryId) store).2 = {store with
      staged := some (store.staged.getD [])
      session := some {upload with offsetBytes := (store.staged.getD []).length}} := by
  simp [sendChunk,bind_run,loadSession,call,ask,passes,calm,found,incomplete,fits,openTransfer,apart,setOffset,raise]

theorem publish_run {destination : List String} {expectedBytes : Nat} {body : List UInt8} (staged : store.staged = some body)
    (long : body.length = expectedBytes) (free : store.placed = none) : ∃ folder,
      publish calm destination expectedBytes store =
        (.ok expectedBytes,{store with staged := none, placed := some body, folder := folder}) := by
  have goes (store : Store) (staged : store.staged = some body) (free : store.placed = none)
      (near : store.folder = true ∨ destination.length < 2) : publishTransfer destination expectedBytes store =
        .ok (.published expectedBytes,{store with staged := none, placed := some body}) := by
    have open' : (!store.folder && decide (2 ≤ destination.length)) = false := by
      rcases near with there | short
      · simp [there]
      · simp [short]
    simp [publishTransfer,staged,long,open',free]
  by_cases near : store.folder = true ∨ destination.length < 2
  · refine ⟨store.folder,?_⟩
    simp only [publish,bind_run,call,calm,goes store staged free near,pure_run]
  · obtain ⟨away,nested⟩ := not_or.mp near
    have waits : publishTransfer destination expectedBytes store = .ok (.notFound "no such entry",store) := by
      simp [publishTransfer,staged,long,Bool.not_eq_true _ ▸ away,not_lt.mp nested]
    refine ⟨true,?_⟩
    simp only [publish,bind_run,call,calm,waits,if_neg nested,ensureDirectories,goes {store with folder := true} staged free (.inl rfl),
      pure_run]

section

variable (found : store.session = some upload)
include found

theorem aligned_run (incomplete : upload.fileId = none)
    (fits : checkChunk upload (rest upload.offsetBytes whole entryId) = .ok (upload.offsetBytes,whole.length - upload.offsetBytes))
    (long : upload.lengthBytes = whole.length) (behind : upload.offsetBytes < whole.length)
    (aligned : (store.staged.getD []).length = upload.offsetBytes) (free : store.placed = none) :
    (sendChunk env calm (rest upload.offsetBytes whole entryId) store).2.placed =
      some (store.staged.getD [] ++ whole.drop upload.offsetBytes) ∧ 
    (sendChunk env calm (rest upload.offsetBytes whole entryId) store).2.session = some {upload with offsetBytes := whole.length, fileId := some entryId} := by
  obtain ⟨filename,parentId,lengthBytes,offset,fileId⟩ := upload
  obtain rfl : fileId = none := incomplete
  obtain rfl : lengthBytes = whole.length := long
  have plain : parseChecksum env (rest offset whole entryId).uploadChecksum = .ok none := by
    simp [rest,parseChecksum,words]
  have all : (rest offset whole entryId).body.take (whole.length - offset) = whole.drop offset :=
    take_of_length_le (by rw [rest,length_drop])
  have intact : Chunk.verified env ⟨whole.drop offset,none⟩ := nofun
  have enough : ¬(rest offset whole entryId).body.length < whole.length - offset := by
    rw [rest,length_drop]
    exact lt_irrefl _
  have total : offset + (whole.length - offset) = whole.length := Nat.add_sub_of_le (le_of_lt behind)
  obtain ⟨folder,published⟩ := @publish_run {store with
    session := some ⟨filename,parentId,whole.length,whole.length,none⟩
    staged := some (store.staged.getD [] ++ whole.drop offset)
    journal := store.journal ++ [.stored ⟨whole.drop offset,none⟩]} (destinationOf env ⟨filename,parentId,whole.length,offset,none⟩) whole.length
    _ rfl (by rw [length_append,length_drop,aligned,total]) free
  have done : calm.session = .done ∧ calm.share = .done ∧ calm.opening = .done ∧ calm.transfer = .done ∧ calm.offset = .done ∧
      calm.folders = .done ∧ calm.owner = .done ∧ calm.record = .done ∧ calm.complete = .done := by decide
  simp [sendChunk,bind_run,pure_run,loadSession,call,ask,passes,done,found,fits,openTransfer,aligned,setOffset,transfer,stage,
      plain,intact,all,enough,total,finish,published,recordPublishedFile,completed,-bind_pure_comp]
  rfl

theorem resume_of_behind (behind : upload.offsetBytes < whole.length) :
    resume env whole entryId store = (sendChunk env calm (rest upload.offsetBytes whole entryId) store).2 := by
  simp [resume,status,loadSession,bind_run,pure_run,call,passes,ask,found,behind,-bind_pure_comp]

theorem resume_of_full (full : ¬upload.offsetBytes < whole.length) :
    resume env whole entryId store = store := by
  simp [resume,status,loadSession,bind_run,pure_run,call,passes,ask,found,full,-bind_pure_comp]

end

theorem Intact.resumes (intact : Intact env lengthBytes store) (exact : Exact lengthBytes store)
    (safe : (lengthBytes : Int) ≤ MAX_SAFE_INTEGER) (known : store.session.isSome) (free : store.placed = none)
    (more : List UInt8) (entryId : String) (long : (accepted store ++ more).length = lengthBytes) :
    (resume env (accepted store ++ more) entryId (resume env (accepted store ++ more) entryId store)).placed =
      some (accepted store ++ more) := by
  obtain ⟨upload,found⟩ := Option.isSome_iff_exists.mp known
  obtain ⟨bytes,-,unfinished⟩ := exact.waiting free
  obtain ⟨short,behind⟩ := intact.short free
  have length := (exact.row upload found).1.trans long.symm
  have before := behind upload found
  rw [← long] at before safe short
  have joined : store.staged.getD [] ++ (accepted store ++ more).drop (store.staged.getD []).length = accepted store ++ more := by
    rw [bytes,drop_left]
  rw [resume_of_behind found before]
  by_cases aligned : (store.staged.getD []).length = upload.offsetBytes
  · obtain ⟨placed,session⟩ := @aligned_run env store upload (accepted store ++ more) entryId found (unfinished upload found)
      (rest_fits length safe before) length before aligned free
    rw [resume_of_full session (lt_irrefl _),placed,← aligned,joined]
  · rw [stale_run found (unfinished upload found) (rest_fits length safe before) aligned]
    have ahead : (store.staged.getD []).length < (accepted store ++ more).length := by
      rw [bytes]
      exact short
    rw [resume_of_behind rfl ahead]
    obtain ⟨placed,-⟩ := @aligned_run env {store with
        staged := some (store.staged.getD [])
        session := some {upload with offsetBytes := (store.staged.getD []).length}} _ (accepted store ++ more) entryId rfl
      (unfinished upload found) (rest_fits length safe ahead) length ahead rfl free
    exact placed.trans (congrArg some joined)

end

theorem created_exact (filename : String) (parentId : Option String) (lengthBytes : Nat) (folder : Bool) :
    Exact lengthBytes (created filename parentId lengthBytes folder) := by
  refine ⟨fun row here => ?_,fun _ => ⟨rfl,Nat.zero_le _,fun row here => ?_⟩,nofun⟩
  · cases here
    exact ⟨rfl,Nat.zero_le _⟩
  · cases here
    rfl

/-- In every run that admits no corrupt chunk to stay and no last chunk to be left alone, an
upload publishes what it accepted, and can be resumed until then.
-/
theorem uploads_faithful (env : Surroundings) (filename : String) (parentId : Option String) (lengthBytes : Nat) (folder : Bool)
    (events : List Event) (final : Store) (positive : 0 < lengthBytes) (safe : (lengthBytes : Int) ≤ MAX_SAFE_INTEGER)
    (met : Machine.Meets (step env) (Admits env) (created filename parentId lengthBytes folder) events)
    (ran : Machine.run (step env) (created filename parentId lengthBytes folder) events = some final) :
    Faithful env lengthBytes final := by
  have start : Exact lengthBytes (created filename parentId lengthBytes folder) ∧
      Intact env lengthBytes (created filename parentId lengthBytes folder) := by
    refine ⟨created_exact filename parentId lengthBytes folder,⟨nofun,fun _ => ⟨positive,fun row here => ?_⟩⟩⟩
    cases here
    exact positive
  have kept (store : Store) (event : Event) (next : Store) (held : Exact lengthBytes store ∧ Intact env lengthBytes store)
      (admits : Admits env store event) (went : step env store event = some next) :
      Exact lengthBytes next ∧ Intact env lengthBytes next :=
    ⟨held.1.step event went,held.2.step held.1 positive event admits went⟩
  obtain ⟨exact,intact⟩ := Machine.run_invariant (step env) kept start met ran
  refine ⟨fun bytes placed => ?_,intact.resumes exact safe⟩
  obtain ⟨same,long,-⟩ := exact.done bytes placed
  exact ⟨same,long,intact.verified⟩

theorem admits_calm {env : Surroundings} (store : Store) (request : Patch) : Admits env store (.patch request calm) := by
  intro upload offset chunkLength expected forwarded
  refine ⟨fun _ => ⟨rfl,nofun⟩,fun _ _ => ⟨rfl,rfl,rfl,rfl,?_⟩⟩
  split_ifs
  · decide
  · decide

section Corrupt

private def digests : Surroundings where
  sha256 body := if body = [1] then
    [0x4b,0xf5,0x12,0x2f,0x34,0x45,0x54,0xc5,0x3b,0xde,0x2e,0xbb,0x8c,0xd2,0xb7,0xe3,
      0xd1,0x60,0x0a,0xd6,0x31,0xc3,0x85,0xa5,0xd7,0xcc,0xe2,0x3c,0x77,0x85,0x45,0x9a] else []
  fromBase64 text := if text = "AAAAAAAAAAAAAAAAAAAAAAAAAAAAAAAAAAAAAAAAAAA=" then List.replicate 32 0 else []
  componentsOf _ := ["proje"]

private def piece (offset : Nat) (body : List UInt8) (uploadChecksum : Option String) : Event :=
  .patch ⟨some offset,some body.length,uploadChecksum,body,"dosya"⟩ calm

private def corruptRun : List Event :=
  [.patch ⟨some 0,some 1,some "sha256 AAAAAAAAAAAAAAAAAAAAAAAAAAAAAAAAAAAAAAAAAAA=",[1],"dosya"⟩ {calm with transfer := .unheard},
    piece 0 [1,2] none,piece 1 [2] none]

private def corruptEnd : Store where
  session := some ⟨"rapor.txt",some "klasor",2,2,some "dosya"⟩
  staged := none
  folder := true
  placed := some [1,2]
  entry := some ("dosya",2)
  journal := [.stored ⟨[1],some (List.replicate 32 0)⟩,.stored ⟨[2],none⟩]

/-- A chunk whose digest was never compared is part of the published file. -/
theorem corrupt_chunk_published : ¬∀ (env : Surroundings) (filename : String) (parentId : Option String) (lengthBytes : Nat)
    (folder : Bool) (events : List Event) (final : Store), 0 < lengthBytes → (lengthBytes : Int) ≤ MAX_SAFE_INTEGER →
    Machine.run (step env) (created filename parentId lengthBytes folder) events = some final →
    Faithful env lengthBytes final := by
  intro claimed
  have ran : Machine.run (step digests) (created "rapor.txt" (some "klasor") 2 true) corruptRun = some corruptEnd := by
    decide +kernel
  have faithful := claimed digests _ _ _ _ corruptRun corruptEnd (by decide) (by decide) ran
  obtain ⟨-,-,verified⟩ := faithful.published [1,2] rfl
  have first := verified ⟨[1],some (List.replicate 32 0)⟩ (by decide) _ rfl
  revert first
  decide

example : (Machine.run (step digests) (created "rapor.txt" (some "klasor") 1 true)
    [.patch ⟨some 0,some 1,none,[1],"dosya"⟩ {calm with publish := .undone}]).map
      (fun store => (store.staged,store.placed,(resume digests [1] "dosya" (resume digests [1] "dosya" store)).placed)) =
    some (some [1],none,none) := by
  decide +kernel

private def wholeRun : List Event := [piece 0 [1] none,.head .done,piece 1 [2] none]

private def wholeEnd : Store where
  session := some ⟨"rapor.txt",some "klasor",2,2,some "dosya"⟩
  staged := none
  folder := true
  placed := some [1,2]
  entry := some ("dosya",2)
  journal := [.stored ⟨[1],none⟩,.stored ⟨[2],none⟩]

theorem uploads_faithful_in_two : Faithful digests 2 wholeEnd := by
  refine uploads_faithful digests "rapor.txt" (some "klasor") 2 true wholeRun wholeEnd (by decide) (by decide) ?_ (by decide +kernel)
  exact ⟨admits_calm _ _,trivial,admits_calm _ _,trivial⟩

end Corrupt

end Depsis.Files.Uploads

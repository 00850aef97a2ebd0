import Depsis.Agent.DataClient

/-! Both ends of a transfer: the download a client takes from the stream of the agent,
and the upload whose failure it reports while the agent appends.
-/
namespace Depsis.Agent.DataClient
open Depsis.Foundation Depsis.Foundation.Utf8 Depsis.Foundation.Streams Depsis.Agent.DataChannel List

/-- The agent was given no more than was forwarded, and what the client read are its answers. -/
structure Composed (serialise : DataReply → List UInt8) (wire : Wire) (file : OpenFile) (preamble : Preamble)
    (leftover : List UInt8) (body : Body) (ready stored : Except String Reply) : Prop where
  arrived : leftover ++ received wire.inbound <+: (send preamble.length.toNat body ready stored).forwarded
  first : ∀ reply, ready = .ok reply →
    reply = .known .ready ∨ reply = .known (attempt serialise wire file preamble leftover).1.reply
  second : ∀ reply, stored = .ok reply → reply = .known (attempt serialise wire file preamble leftover).1.reply

def NothingStored (declared : UInt64) (chunks : List (List UInt8)) : Prop :=
  ∀ serialise wire file token offset leftover failure ready stored,
    Composed serialise wire file ⟨token,offset,declared⟩ leftover ⟨chunks,failure⟩ ready stored →
    ∀ reason kind, (send declared.toNat ⟨chunks,failure⟩ ready stored).outcome = .error (.transferFailed reason kind) →
      (attempt serialise wire file ⟨token,offset,declared⟩ leftover).2.2.store.content = file.store.content

theorem send_forwards (declared : Nat) (body : Body) (ready stored : Except String Reply) :
    (send declared body ready stored).forwarded <+: body.chunks.flatten ∧
    (send declared body ready stored).forwarded.length ≤ declared ∧
    (send declared body ready stored).hashed = (send declared body ready stored).forwarded := by
  unfold send
  split
  · exact ⟨List.nil_prefix,Nat.zero_le _,rfl⟩
  · obtain ⟨front,short,hashed,-⟩ := pipeline_spec body.failure body.chunks (show (⟨declared,0,[]⟩ : ExactLength).seen ≤ declared from Nat.zero_le declared)
    dsimp only at short hashed ⊢
    exact ⟨front,by omega,by rw [hashed,nil_append]⟩
  · exact ⟨List.nil_prefix,Nat.zero_le _,rfl⟩

private theorem toError_failed {reply : Reply} {reason : String} {kind : FailureKind} (told : toError reply = .transferFailed reason kind) :
    ∃ why of, reply = .known (.failed why of) := by
  cases reply with
  | other status => cases told
  | known answer =>
    cases answer with
    | ready => cases told
    | stored bytes => cases told
    | sending bytes => cases told
    | failed why of => exact ⟨why,of,rfl⟩

theorem send_failed {declared : Nat} {body : Body} {ready stored : Except String Reply} {reason : String} {kind : FailureKind}
    (told : (send declared body ready stored).outcome = .error (.transferFailed reason kind)) :
    (∃ why of, ready = .ok (.known (.failed why of))) ∨ (∃ why of, stored = .ok (.known (.failed why of))) ∨
    ∃ front back, body.chunks = front ++ back ∧ (send declared body ready stored).forwarded = front.flatten ∧
      back.flatten ≠ [] := by
  unfold send at told ⊢
  split at told
  · cases told
  · obtain ⟨-,-,-,cut⟩ := pipeline_spec body.failure body.chunks (show (⟨declared,0,[]⟩ : ExactLength).seen ≤ declared from Nat.zero_le declared)
    dsimp only at told ⊢
    split at told
    next failure ended =>
      cases told
      exact .inr (.inr (cut reason kind ended))
    next => cases told
    next => cases told
    next reply _ _ =>
      obtain ⟨why,of,rfl⟩ := toError_failed (Except.error.inj told)
      exact .inr (.inl ⟨why,of,rfl⟩)
  · next reply _ =>
    obtain ⟨why,of,rfl⟩ := toError_failed (Except.error.inj told)
    exact .inl ⟨why,of,rfl⟩

structure Clean (wire : Wire) (bytes : List UInt8) : Prop where
  arms : wire.arms = []
  inbound : wire.inbound = [.data bytes] ∨ wire.inbound = [] ∧ bytes = []

private theorem Clean.read {wire : Wire} {bytes : List UInt8} (clean : Clean wire bytes) (more : bytes ≠ []) (window : Nat) :
    wire.armRead.1 = none ∧ (wire.armRead.2.read window).1 = .bytes (bytes.take window) ∧
      Clean (wire.armRead.2.read window).2 (bytes.drop window) := by
  have sent : wire.armRead.2.inbound = [.data bytes] := by
    rcases clean.inbound with data | ⟨-,empty⟩
    · exact data
    · exact absurd empty more
  have untimed : wire.armRead.2.arms = [] := by rw [Wire.armRead,clean.arms]; rfl
  refine ⟨by rw [Wire.armRead,clean.arms]; rfl,?_⟩
  unfold Wire.read
  rw [sent]
  by_cases fits : bytes.length ≤ window
  · rw [Streams.read,if_pos fits,take_of_length_le fits,drop_of_length_le fits]
    exact ⟨rfl,untimed,.inr ⟨rfl,rfl⟩⟩
  · rw [Streams.read,if_neg fits]
    exact ⟨rfl,untimed,.inl rfl⟩

private theorem writeAll_clean (data : List UInt8) {file : OpenFile} (outcomes : file.store.outcomes = []) :
    (file.writeAll data).1 = none ∧ (file.writeAll data).2.store.outcomes = [] ∧ (file.writeAll data).2.sync = file.sync := by
  unfold OpenFile.writeAll Sink.writeAll
  split_ifs
  · exact ⟨rfl,outcomes,rfl⟩
  · rw [outcomes]
    exact ⟨rfl,rfl,rfl⟩

private theorem unread {written want : Nat} {bytes : List UInt8} (size : written + bytes.length = want) (less : written < want) :
    bytes ≠ [] := by
  intro empty
  rw [empty,length_nil] at size
  omega

theorem copyLoop_clean {want written : Nat} {wire : Wire} {file : OpenFile} {bytes : List UInt8} (clean : Clean wire bytes)
    (outcomes : file.store.outcomes = []) (size : written + bytes.length = want) :
    (copyLoop want written wire file).1 = .ok want ∧ (copyLoop want written wire file).2.2.sync = file.sync := by
  fun_induction copyLoop want written wire file generalizing bytes with
  | case1 written wire file less line armed =>
    rw [(clean.read (unread size less) 0).1] at armed
    cases armed
  | case2 written wire file less armed window after =>
    rename_i empty
    rw [(clean.read (unread size less) window).2.1] at empty
    have none := congrArg List.length (Reading.bytes.inj empty)
    have some := length_pos_of_ne_nil (unread size less)
    have room : 0 < COPY_BUFFER := by decide
    rw [length_take,length_nil] at none
    omega
  | case3 written wire file less armed window after first more reading error =>
    rename_i failed
    rw [(writeAll_clean _ outcomes).1] at failed
    cases failed
  | case4 written wire file less armed window after first more reading wrote =>
    rename_i ih
    obtain ⟨-,chunk,left⟩ := clean.read (unread size less) window
    rw [chunk] at reading
    have pushed := Reading.bytes.inj reading
    have sum : bytes.length = (bytes.take window).length + (bytes.drop window).length := by
      rw [← length_append,take_append_drop]
    rw [pushed] at sum
    obtain ⟨-,still,synced⟩ := writeAll_clean (first::more) outcomes
    have rest : written + (first::more).length + (bytes.drop window).length = want := by omega
    obtain ⟨copied,sync⟩ := ih left still rest
    exact ⟨copied,sync.trans synced⟩
  | case5 written wire file less armed window after interrupted =>
    rw [(clean.read (unread size less) window).2.1] at interrupted
    cases interrupted
  | case6 written wire file less armed window after error =>
    rename_i failed
    rw [(clean.read (unread size less) window).2.1] at failed
    cases failed
  | case7 written wire file done =>
    have all : written = want := by omega
    exact ⟨by rw [all],rfl⟩

theorem pipeline_cut (failure : Option String) (front : List (List UInt8)) {back : List (List UInt8)} (more : back.flatten ≠ [])
    {exact : ExactLength} (full : exact.seen + front.flatten.length = exact.declared) :
    (pipeline failure (front ++ back) exact).1 = front.flatten ∧
    ∃ reason, (pipeline failure (front ++ back) exact).2.2 = some (.transferFailed reason .refused) := by
  induction front generalizing exact with
  | cons chunk front ih =>
    rw [flatten_cons,length_append] at full
    have fits : ¬exact.declared < exact.seen + chunk.length := by omega
    obtain ⟨forwarded,told⟩ := @ih ⟨exact.declared,exact.seen + chunk.length,exact.digest ++ chunk⟩ (by dsimp only; omega)
    rw [cons_append,pipeline,ExactLength.transform]
    dsimp only
    rw [if_neg fits]
    exact ⟨by dsimp only; rw [forwarded,flatten_cons],told⟩
  | nil =>
    rw [flatten_nil,length_nil,Nat.add_zero] at full
    rw [nil_append]
    induction back generalizing exact with
    | nil => exact absurd rfl more
    | cons chunk back ih =>
      rw [pipeline,ExactLength.transform]
      dsimp only
      by_cases empty : chunk = []
      · subst chunk
        have fits : ¬exact.declared < exact.seen + ([] : List UInt8).length := by rw [length_nil]; omega
        rw [if_neg fits]
        exact @ih more ⟨exact.declared,exact.seen,exact.digest ++ []⟩ full
      · have some := length_pos_of_ne_nil empty
        rw [if_pos (by omega)]
        exact ⟨rfl,_,rfl⟩

section Exact

def fairWire (bytes : List UInt8) : Wire := ⟨[.data bytes],[],[],⟨[],[]⟩,[]⟩

def emptyFile : OpenFile := ⟨⟨[],[]⟩,none,none,none,[],none⟩

private theorem attempt_clean (declared : UInt64) {bytes : List UInt8} (size : bytes.length = declared.toNat) :
    (attempt (fun _ => []) (fairWire bytes) emptyFile ⟨"t",0,declared⟩ []).1.reply = .stored declared.toNat := by
  have clean : Clean (reply (fun _ => []) .ready (fairWire bytes)).2 bytes := ⟨rfl,.inl rfl⟩
  obtain ⟨copied,synced⟩ := @copyLoop_clean declared.toNat 0 _ emptyFile bytes clean rfl (by omega)
  have whole : copyExactly (reply (fun _ => []) .ready (fairWire bytes)).2 emptyFile ⟨"t",0,declared⟩ [] =
      copyLoop declared.toNat 0 (reply (fun _ => []) .ready (fairWire bytes)).2 emptyFile := by
    unfold copyExactly
    exact if_pos rfl
  have ready : (reply (fun _ => []) .ready (fairWire bytes)).1 = none := rfl
  have aligned : ¬emptyFile.store.content.length ≠ (0 : UInt64).toNat := not_not.mpr rfl
  unfold attempt
  change (if _ ≠ (0 : UInt64).toNat then _ else _ : Attempt × Wire × OpenFile).1.reply = _
  rw [if_neg aligned,ready]
  dsimp only
  rw [whole]
  cases result : copyLoop declared.toNat 0 (reply (fun _ => []) .ready (fairWire bytes)).2 emptyFile with
  | mk outcome rest =>
    rw [result] at copied synced
    dsimp only at copied synced
    subst copied
    dsimp only
    rw [synced]
    rfl

theorem nothingStored_iff (declared : UInt64) (chunks : List (List UInt8)) :
    NothingStored declared chunks ↔ ¬(0 < declared.toNat ∧ CutThenMore declared.toNat chunks) := by
  constructor
  · rintro honest ⟨some,front,back,rfl,size,more⟩
    have bound : 0 + front.flatten.length = declared.toNat := by omega
    obtain ⟨forwarded,reason,told⟩ := @pipeline_cut none front back more ⟨declared.toNat,0,[]⟩ bound
    have outcome : (send declared.toNat ⟨front ++ back,none⟩ (.ok (.known .ready)) (.error "")).outcome =
        .error (.transferFailed reason .refused) := by
      unfold send
      dsimp only
      rw [told]
    have arrived : [] ++ received (fairWire front.flatten).inbound <+:
        (send declared.toNat ⟨front ++ back,none⟩ (.ok (.known .ready)) (.error "")).forwarded := by
      unfold send
      dsimp only
      rw [forwarded]
      exact ⟨[],by simp [fairWire,received]⟩
    have unchanged := honest (fun _ => []) (fairWire front.flatten) emptyFile "t" 0 [] none _ _
      ⟨arrived,fun reply same => .inl (Except.ok.inj same).symm,by rintro _ ⟨⟩⟩ reason .refused outcome
    rcases attempt_atomic (fun _ => []) (fairWire front.flatten) emptyFile ⟨"t",0,declared⟩ [] with
      ⟨-,-,-,content⟩ | ⟨failed,-⟩
    · rw [content] at unchanged
      have taken := congrArg List.length unchanged
      simp only [fairWire,received,emptyFile,nil_append,append_nil,length_take,length_nil] at taken
      omega
    · exact failed _ (attempt_clean declared size)
  · intro uncut serialise wire file token offset leftover failure ready stored composed reason kind told
    rcases attempt_atomic serialise wire file ⟨token,offset,declared⟩ leftover with ⟨answered,-,enough,content⟩ | ⟨-,content⟩
    · dsimp only at answered enough content
      rcases send_failed told with ⟨why,of,rfl⟩ | ⟨why,of,rfl⟩ | ⟨front,back,same,forwarded,more⟩
      · rcases composed.first _ rfl with same | same
        · cases same
        · rw [answered] at same
          cases same
      · have same := composed.second _ rfl
        rw [answered] at same
        cases same
      · have short := (send_forwards declared.toNat ⟨chunks,failure⟩ ready stored).2.1
        have arrived := composed.arrived.length_le
        dsimp only at arrived
        rw [forwarded] at short arrived
        by_cases none : declared.toNat = 0
        · rw [content,none,take_zero,append_nil]
        · exact absurd ⟨Nat.pos_of_ne_zero none,front,back,same,by omega,more⟩ uncut
    · exact content

/-- A download is whole or refused with less than it asked for, however its stream is cut; an upload
forwards and hashes a front of its body; and a failed one has stored nothing unless the agent had
all it was promised when the body went on. -/
theorem transfers_exact (parse : List Char → Option Reply) (length : Nat) :
    (∀ segments : List (List UInt8),
      (∃ line payload, header segments.flatten = some (line,payload) ∧ parse (decode line) = some (.known (.sending length)) ∧
        length ≤ payload.length ∧
        receive parse length (segments.map .data ++ [.ended]) = ⟨.done (.ok length),payload.take length⟩) ∨
      (∀ line payload, header segments.flatten = some (line,payload) →
        parse (decode line) = some (.known (.sending length)) → payload.length < length) ∧
        ∃ failure delivered, receive parse length (segments.map .data ++ [.ended]) = ⟨.done (.error failure),delivered⟩ ∧
          (delivered = [] ∨ delivered.length < length ∧ ∃ line, header segments.flatten = some (line,delivered))) ∧
    (∀ (segments : List (List UInt8)) (message : String),
      ∃ failure delivered, receive parse length (segments.map .data ++ [.failed message]) = ⟨.done (.error failure),delivered⟩ ∧
        (delivered = [] ∨ ∃ line payload, header segments.flatten = some (line,payload) ∧ delivered = payload.take length)) ∧
    (∀ (declared : Nat) (body : Body) (ready stored : Except String Reply),
      (send declared body ready stored).forwarded <+: body.chunks.flatten ∧
      (send declared body ready stored).forwarded.length ≤ declared ∧
      (send declared body ready stored).hashed = (send declared body ready stored).forwarded) ∧
    ∀ (declared : UInt64) (chunks : List (List UInt8)),
      NothingStored declared chunks ↔ ¬(0 < declared.toNat ∧ CutThenMore declared.toNat chunks) :=
  ⟨receive_ended parse length,receive_failed parse length,send_forwards,nothingStored_iff⟩

/-- Three bytes were promised, three came in one chunk and a fourth after them: the upload is
reported as failed and its three bytes are in the file. -/
theorem long_body_stored :
    (send 3 ⟨[[1,2,3],[4]],none⟩ (.ok (.known .ready)) (.error "closed")).outcome =
      .error (.transferFailed "the body is longer than the declared 3 bytes" .refused) ∧
    Composed (fun _ => []) (fairWire [1,2,3]) emptyFile ⟨"t",0,3⟩ [] ⟨[[1,2,3],[4]],none⟩ (.ok (.known .ready)) (.error "closed") ∧
    emptyFile.store.content = [] ∧
    (attempt (fun _ => []) (fairWire [1,2,3]) emptyFile ⟨"t",0,3⟩ []).2.2.store.content = [1,2,3] := by
  refine ⟨by decide,⟨by decide,fun reply same => .inl (Except.ok.inj same).symm,nofun⟩,rfl,?_⟩
  rcases attempt_atomic (fun _ => []) (fairWire [1,2,3]) emptyFile ⟨"t",0,3⟩ [] with ⟨-,-,-,content⟩ | ⟨failed,-⟩
  · rw [content]
    decide
  · exact absurd (@attempt_clean 3 [1,2,3] rfl) (failed _)

end Exact

end Depsis.Agent.DataClient

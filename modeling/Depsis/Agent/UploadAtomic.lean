import Depsis.Agent.DataChannel

/-! An upload connection is all or nothing: whatever the socket, the deadline and
the file answer, the staging file ends as it was or with exactly the declared
bytes of the stream, and only then is the answer `stored`.
-/
namespace Depsis.Agent.DataChannel

open Depsis.Foundation Depsis.Foundation.Streams List Function

def preambleBytes (stream : List UInt8) : List UInt8 := stream.takeWhile (fun byte => byte != 10)

def payload (stream : List UInt8) : List UInt8 := (stream.dropWhile (fun byte => byte != 10)).tail

theorem preambleBytes_append {head rest : List UInt8} (clean : (10 : UInt8) ∉ head) :
    preambleBytes (head ++ 10::rest) = head := by
  induction head with
  | nil => rfl
  | cons byte more ih =>
    obtain ⟨here,later⟩ := not_or.mp (mem_cons.not.mp clean)
    have different : byte ≠ 10 := fun same => here same.symm
    simpa [preambleBytes,different] using ih later

private theorem payload_append {head rest : List UInt8} (clean : (10 : UInt8) ∉ head) :
    payload (head ++ 10::rest) = rest := by
  induction head with
  | nil => rfl
  | cons byte more ih =>
    obtain ⟨here,later⟩ := not_or.mp (mem_cons.not.mp clean)
    have different : byte ≠ 10 := fun same => here same.symm
    simpa [payload,different] using ih later

theorem split_at_newline {data : List UInt8} {newline : Nat}
    (found : data.findIdx? (fun byte => byte == 10) = some newline) :
    data = data.take newline ++ 10::data.drop (newline + 1) ∧ (10 : UInt8) ∉ data.take newline := by
  obtain ⟨bound,here,before⟩ := findIdx?_eq_some_iff_getElem.mp found
  have value : data[newline] = 10 := by simpa using here
  refine ⟨?_,fun member => ?_⟩
  · rw [← value,getElem_cons_drop,take_append_drop]
  · obtain ⟨index,inside,same⟩ := mem_iff_getElem.mp member
    rw [length_take] at inside
    rw [getElem_take] at same
    exact before index (by omega) (by simp [same])

theorem no_newline {data : List UInt8}
    (missing : data.findIdx? (fun byte => byte == 10) = none) : (10 : UInt8) ∉ data := by
  intro member
  have none := findIdx?_eq_none_iff.mp missing 10 member
  simp at none

theorem chunk_received (wire : Wire) {window : Nat} {data : List UInt8}
    (reading : (wire.read window).1 = .bytes data) :
    received wire.inbound = data ++ received (wire.read window).2.inbound := by
  have split := read_received window wire.inbound
  change (Streams.read window wire.inbound).1 = .bytes data at reading
  rwa [reading] at split

theorem interrupted_received (wire : Wire) {window : Nat}
    (reading : (wire.read window).1 = .interrupted) :
    received wire.inbound = received (wire.read window).2.inbound := by
  have split := read_received window wire.inbound
  change (Streams.read window wire.inbound).1 = .interrupted at reading
  rwa [reading] at split

theorem preambleLoop_accepted (buf : List UInt8) (wire : Wire) {line : String} {leftover : List UInt8}
    {after : Wire} (accepted : preambleLoop buf wire = (.ok (line,leftover),after)) :
    ∃ head, received wire.inbound = head ++ 10::(leftover ++ received after.inbound) ∧
      (10 : UInt8) ∉ head ∧ String.fromUTF8? ⟨(buf ++ head).toArray⟩ = some line := by
  fun_induction preambleLoop buf wire with
  | case4 buf wire timed early armed rest reading ih =>
    have same : received wire.inbound = received rest.inbound := interrupted_received timed.armRead.2 reading
    rw [same]
    exact ih accepted
  | case6 buf wire timed early armed rest first more reading data newline found text decoded =>
    simp only [Prod.mk.injEq,Except.ok.injEq] at accepted
    obtain ⟨⟨rfl,rfl⟩,rfl⟩ := accepted
    have arrived : received wire.inbound = data ++ received rest.inbound :=
      chunk_received timed.armRead.2 reading
    obtain ⟨split,clean⟩ := split_at_newline found
    refine ⟨data.take newline,?_,clean,decoded⟩
    rw [arrived]
    nth_rewrite 1 [split]
    simp
  | case9 buf wire timed early armed rest first more reading data missing short ih =>
    have arrived : received wire.inbound = data ++ received rest.inbound :=
      chunk_received timed.armRead.2 reading
    obtain ⟨head,split,clean,decoded⟩ := ih accepted
    refine ⟨data ++ head,?_,?_,?_⟩
    · rw [arrived,split,append_assoc]
    · simpa using ⟨no_newline missing,clean⟩
    · rwa [← append_assoc]
  | _ => cases accepted

theorem copyLoop_copied (want written : Nat) (wire : Wire) (file : OpenFile) (bound : written ≤ want) :
    file.store.content <+: (copyLoop want written wire file).2.2.store.content ∧
    ∀ total, (copyLoop want written wire file).1 = .ok total →
      total = want ∧ want - written ≤ (received wire.inbound).length ∧
      (copyLoop want written wire file).2.2.store.content =
        file.store.content ++ (received wire.inbound).take (want - written) := by
  fun_induction copyLoop want written wire file with
  | case1 written wire file more error armed => exact ⟨prefix_rfl,nofun⟩
  | case2 written wire file more armed window rest reading =>
    exact ⟨prefix_rfl,nofun⟩
  | case3 written wire file more armed window rest first tail reading error broken =>
    exact ⟨writeAll_extends _ _,nofun⟩
  | case4 written wire file more armed window rest first tail reading wrote ih =>
    have arrived : received wire.inbound = first::tail ++ received rest.inbound :=
      chunk_received wire.armRead.2 reading
    have fits : (first::tail).length ≤ window := by
      have chunk := read_chunk_length window wire.armRead.2.inbound
      change (Streams.read window wire.armRead.2.inbound).1 = .bytes (first::tail) at reading
      rwa [reading] at chunk
    have room : written + (first::tail).length ≤ want := by omega
    have appended : (file.writeAll (first::tail)).2.store.content = file.store.content ++ first::tail :=
      writeAll_whole wrote
    obtain ⟨grows,finished⟩ := ih room
    refine ⟨(writeAll_extends _ _).trans grows,fun total copied => ?_⟩
    obtain ⟨all,enough,content⟩ := finished total copied
    refine ⟨all,?_,?_⟩
    · rw [arrived,length_append]
      omega
    · rw [content,appended,arrived,append_assoc]
      congr 1
      rw [take_append]
      have covers : (first::tail).length ≤ want - written := by omega
      rw [take_of_length_le covers,Nat.sub_sub]
  | case5 written wire file more armed window rest reading ih =>
    have same : received wire.inbound = received rest.inbound :=
      interrupted_received wire.armRead.2 reading
    rw [same]
    exact ih bound
  | case6 written wire file more armed window rest error reading =>
    exact ⟨prefix_rfl,nofun⟩
  | case7 written wire file done =>
    have all : written = want := by omega
    refine ⟨prefix_rfl,fun total copied => ?_⟩
    cases copied
    simp [all]

theorem copyExactly_copied (wire : Wire) (file : OpenFile) (preamble : Preamble) (leftover : List UInt8) :
    file.store.content <+: (copyExactly wire file preamble leftover).2.2.store.content ∧
    ∀ total, (copyExactly wire file preamble leftover).1 = .ok total →
      total = preamble.length.toNat ∧
      preamble.length.toNat ≤ (leftover ++ received wire.inbound).length ∧
      (copyExactly wire file preamble leftover).2.2.store.content =
        file.store.content ++ (leftover ++ received wire.inbound).take preamble.length.toNat := by
  unfold copyExactly
  simp only
  split
  next empty =>
    subst empty
    simpa using copyLoop_copied preamble.length.toNat 0 wire file (Nat.zero_le _)
  next =>
    split
    next error broken => exact ⟨writeAll_extends _ _,by rintro _ ⟨⟩⟩
    next wrote =>
      have appended := writeAll_whole wrote
      obtain ⟨grows,finished⟩ := copyLoop_copied preamble.length.toNat
        (min preamble.length.toNat leftover.length) wire
        (file.writeAll (leftover.take (min preamble.length.toNat leftover.length))).2 (Nat.min_le_left _ _)
      refine ⟨(writeAll_extends _ _).trans grows,fun total copied => ?_⟩
      obtain ⟨all,enough,content⟩ := finished total copied
      refine ⟨all,?_,?_⟩
      · rw [length_append]
        omega
      · rw [content]
        change (file.store.writeAll _).2.content ++ _ = _
        rw [appended,append_assoc]
        congr 1
        rw [take_append]
        congr 1
        · rw [← take_take,take_length]
        · congr 1
          omega

theorem setLen_restores {file copied : OpenFile} (grown : file.store.content <+: copied.store.content) :
    (copied.setLen file.store.content.length).store.content = file.store.content := by
  obtain ⟨added,whole⟩ := grown
  simp [OpenFile.setLen,← whole]

section Serve

variable (serialise : DataReply → List UInt8) (parse : String → Except String Preamble)

theorem reply_inbound (answer : DataReply) (wire : Wire) :
    (reply serialise answer wire).2.inbound = wire.inbound := by
  unfold reply
  simp only
  split
  next => rfl
  next => split <;> rfl

theorem attempt_atomic (wire : Wire) (file : OpenFile) (preamble : Preamble) (leftover : List UInt8) :
    let result := attempt serialise wire file preamble leftover
    (result.1.reply = .stored preamble.length.toNat ∧
      preamble.offset.toNat = file.store.content.length ∧
      preamble.length.toNat ≤ (leftover ++ received wire.inbound).length ∧
      result.2.2.store.content =
        file.store.content ++ (leftover ++ received wire.inbound).take preamble.length.toNat) ∨
    ((∀ bytes, result.1.reply ≠ .stored bytes) ∧ result.2.2.store.content = file.store.content) := by
  intro result
  have copied := copyExactly_copied (reply serialise .ready wire).2 file preamble leftover
  rw [reply_inbound] at copied
  simp only [result,attempt]
  split
  next error failed => exact .inr ⟨by rintro _ ⟨⟩,rfl⟩
  next =>
    split
    next => exact .inr ⟨by rintro _ ⟨⟩,rfl⟩
    next same =>
      split
      next error failed => exact .inr ⟨by rintro _ ⟨⟩,rfl⟩
      next =>
        split
        next written after stored finished =>
          rw [finished] at copied
          obtain ⟨all,enough,content⟩ := copied.2 written rfl
          split
          next error unsynced =>
            exact .inr ⟨by rintro _ ⟨⟩,setLen_restores copied.1⟩
          next =>
            refine .inl ⟨by rw [all],?_,enough,content⟩
            exact (not_ne_iff.mp same).symm
        next error after stored finished =>
          rw [finished] at copied
          exact .inr ⟨by rintro _ ⟨⟩,setLen_restores copied.1⟩
        next got want after stored finished =>
          rw [finished] at copied
          exact .inr ⟨by rintro _ ⟨⟩,setLen_restores copied.1⟩

private theorem read_store (position window : Nat) (file : OpenFile) :
    (file.read position window).2.store = file.store := by
  unfold OpenFile.read
  simp only
  split <;> rfl

theorem sendLoop_reads (offset length written : Nat) (wire : Wire) (file : OpenFile) :
    (∀ bytes, (sendLoop offset length written wire file).1.reply ≠ .stored bytes) ∧
    (sendLoop offset length written wire file).2.2.store = file.store := by
  fun_induction sendLoop offset length written wire file with
  | case3 written wire file more rest first tail reading wrote ih | case4 written wire file more rest reading ih =>
    exact ⟨ih.1,ih.2.trans (read_store _ _ _)⟩
  | case1 | case2 | case5 => exact ⟨nofun,read_store _ _ _⟩
  | case6 | case7 => exact ⟨nofun,rfl⟩

theorem send_reads (wire : Wire) (file : OpenFile) (preamble : Preamble) :
    (∀ bytes, (send serialise wire file preamble).1.1.reply ≠ .stored bytes) ∧
    (send serialise wire file preamble).2.2.store = file.store := by
  unfold send
  simp only
  split
  next => exact ⟨by rintro _ ⟨⟩,rfl⟩
  next =>
    split
    next => exact ⟨by rintro _ ⟨⟩,rfl⟩
    next =>
      split
      next => exact ⟨by rintro _ ⟨⟩,rfl⟩
      next =>
        split
        next => exact ⟨by rintro _ ⟨⟩,rfl⟩
        next =>
          split
          next => exact ⟨by rintro _ ⟨⟩,rfl⟩
          next => exact sendLoop_reads _ _ _ _ _

/-- The connection stored exactly what its preamble declared, in the file of the
upload its token named. -/
def Stored (peer : PeerIdentity) (now : Nat) (registry : TransferRegistry) (stream : List UInt8)
    (files : Nat → OpenFile) (served : Served) : Prop :=
  ∃ line preamble transfer key,
    String.fromUTF8? ⟨(preambleBytes stream).toArray⟩ = some line ∧ parse line = .ok preamble ∧
    (registry.claim now preamble.token peer).1 = .ok (transfer,key) ∧ transfer.direction = .receive ∧
    preamble.offset.toNat = (files transfer.file).store.content.length ∧
    preamble.length.toNat ≤ (payload stream).length ∧
    served.answered = some (.stored preamble.length.toNat) ∧
    (served.files transfer.file).store.content =
      (files transfer.file).store.content ++ (payload stream).take preamble.length.toNat ∧
    ∀ other, other ≠ transfer.file → served.files other = files other

/-- The connection changed no file's bytes and did not answer `stored`. -/
def Untouched (files : Nat → OpenFile) (served : Served) : Prop :=
  (∀ file, (served.files file).store.content = (files file).store.content) ∧
  ∀ bytes, served.answered ≠ some (.stored bytes)

private theorem refuse_untouched (wire : Wire) (peer : PeerIdentity) (files : Nat → OpenFile) (reason : String) :
    Untouched files (refuse serialise wire peer files reason) := by
  refine ⟨fun _ => rfl,fun bytes answer => ?_⟩
  simp [refuse] at answer

private theorem update_untouched {files : Nat → OpenFile} {at_ : Nat} {file : OpenFile}
    (same : file.store.content = (files at_).store.content) (other : Nat) :
    (Function.update files at_ file other).store.content = (files other).store.content := by
  by_cases here : other = at_
  · rw [here,update_self,same]
  · rw [update_of_ne here]

/-- Every connection, however the stream is cut and wherever a call fails, stores
exactly the declared bytes that follow the newline or changes nothing. -/
theorem serve_all_or_nothing (policy : Policy) (peer : PeerIdentity) (now : Nat) (registry : TransferRegistry)
    (wire : Wire) (files : Nat → OpenFile) :
    Stored parse peer now registry (received wire.inbound) files
      (serve serialise parse policy peer now registry wire files) ∨
    Untouched files (serve serialise parse policy peer now registry wire files) := by
  unfold serve
  split
  next => exact .inr (refuse_untouched serialise _ _ _ _)
  next =>
    split
    next error after failed => exact .inr ⟨fun _ => rfl,nofun⟩
    next line leftover after accepted =>
      obtain ⟨head,stream,clean,decoded⟩ := preambleLoop_accepted [] wire accepted
      split
      next => exact .inr (refuse_untouched serialise _ _ _ _)
      next preamble parsed =>
        split
        next => exact .inr (refuse_untouched serialise _ _ _ _)
        next => exact .inr (refuse_untouched serialise _ _ _ _)
        next transfer key claimed =>
          cases way : transfer.direction with
          | send =>
            have reads : (∀ bytes, (transferred serialise after transfer (files transfer.file) preamble
                leftover).1.1.reply ≠ .stored bytes) ∧ (transferred serialise after transfer
                (files transfer.file) preamble leftover).2.2.store = (files transfer.file).store := by
              simp only [transferred,way]
              split
              next => exact ⟨nofun,rfl⟩
              next => exact send_reads serialise _ _ _
            right
            simp only
            split
            next => exact ⟨update_untouched (congrArg Sink.content reads.2),nofun⟩
            next =>
              refine ⟨update_untouched (congrArg Sink.content reads.2),fun bytes answer => ?_⟩
              exact reads.1 bytes (Option.some.inj answer)
          | receive =>
            simp only [transferred,way,Bool.false_eq_true,if_false]
            rcases attempt_atomic serialise after (files transfer.file) preamble leftover with
              ⟨stored,offset,enough,content⟩ | ⟨failed,content⟩
            · left
              have bytes : payload (received wire.inbound) = leftover ++ received after.inbound := by
                rw [stream,payload_append clean]
              refine ⟨line,preamble,transfer,key,?_,parsed,claimed,way,offset,bytes ▸ enough,
                congrArg some stored,?_,fun other elsewhere => update_of_ne elsewhere _ _⟩
              · rw [stream,preambleBytes_append clean]
                exact decoded
              · rw [bytes]
                change (Function.update files transfer.file _ transfer.file).store.content = _
                rw [update_self]
                exact content
            · right
              exact ⟨update_untouched content,fun bytes answer => failed bytes (Option.some.inj answer)⟩

end Serve

end Depsis.Agent.DataChannel

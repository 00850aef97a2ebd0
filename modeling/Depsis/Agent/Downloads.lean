import Depsis.Agent.Preambles

/-! What a download puts on the wire: one line that refuses it, or the header and then a part
of the range it names and nothing else.
-/
namespace Depsis.Agent.Downloads

open Depsis.Foundation Depsis.Foundation.Streams DataChannel Preambles List

variable (serialise : DataReply → List UInt8) (parse : String → Except String Preamble)

def rangeOf (preamble : Preamble) (content : List UInt8) : List UInt8 :=
  (content.drop preamble.offset.toNat).take preamble.length.toNat

structure Fits (preamble : Preamble) (content : List UInt8) : Prop where
  bounded : preamble.offset.toNat + preamble.length.toNat < UInt64.size
  inside : preamble.offset.toNat + preamble.length.toNat ≤ content.length

def Reported (wire : Wire) (error : IoError) : Prop :=
  some error ∈ wire.flushes ∨ ∃ count, .broken count error ∈ wire.outbound.outcomes

structure HeaderDue (file : OpenFile) (preamble : Preamble) (leftover : List UInt8) : Prop where
  alone : leftover = []
  measured : file.metadata = none
  fits : Fits preamble file.store.content
  placed : file.seekStart = none

inductive Told (preamble : Preamble) (content : List UInt8) (wire : Wire) (failure : Option String) (outcome : Outcome)
    (out : List UInt8) : Prop where
  | refused {reason : String} {kind : FailureKind} (denied : outcome ≠ .allowed)
    (line : out <+: serialise (.failed reason kind) ++ [10])
    (uncut : failure = none → out = serialise (.failed reason kind) ++ [10])
  | sent {body : List UInt8} (fits : Fits preamble content)
    (line : out = serialise (.sending preamble.length.toNat) ++ 10::body) (part : body <+: rangeOf preamble content)
    (allowed : outcome = .allowed → body = rangeOf preamble content)
    (whole : body = rangeOf preamble content → outcome = .allowed ∨
      ∃ error, Reported wire error ∧ outcome = .failed error.display)

section Writes

variable {serialise} {wire : Wire}

theorem writeAll_bytes (data : List UInt8) (wire : Wire) : ∃ out,
    (wire.writeAll data).2.outbound.content = wire.outbound.content ++ out ∧ out <+: data ∧
    ((wire.writeAll data).1 = none → out = data) ∧
    (∀ error, (wire.writeAll data).1 = some error → Reported wire error) := by
  unfold Wire.writeAll Sink.writeAll
  dsimp only
  split
  next empty => exact ⟨[],(append_nil _).symm,List.nil_prefix,(fun _ => empty.symm),nofun⟩
  next =>
    cases script : wire.outbound.outcomes with
    | nil => exact ⟨data,rfl,prefix_rfl,(fun _ => rfl),nofun⟩
    | cons outcome rest =>
      cases outcome with
      | whole => exact ⟨data,rfl,prefix_rfl,(fun _ => rfl),nofun⟩
      | broken count error =>
        refine ⟨data.take count,rfl,List.take_prefix count data,nofun,fun other same => ?_⟩
        cases same
        exact .inr ⟨count,by rw [script]; exact mem_cons_self⟩

structure Later (wire after : Wire) : Prop where
  outcomes : ∀ outcome ∈ after.outbound.outcomes, outcome ∈ wire.outbound.outcomes
  flushes : ∀ flushed ∈ after.flushes, flushed ∈ wire.flushes

theorem Later.refl (wire : Wire) : Later wire wire := ⟨fun _ => id,fun _ => id⟩

theorem Later.trans {first second third : Wire} (one : Later first second) (two : Later second third) : Later first third :=
  ⟨fun outcome member => one.outcomes outcome (two.outcomes outcome member),
    fun flushed member => one.flushes flushed (two.flushes flushed member)⟩

theorem Later.reported {after : Wire} {error : IoError} (later : Later wire after) (reported : Reported after error) :
    Reported wire error :=
  reported.imp (later.flushes _) (fun ⟨count,member⟩ => ⟨count,later.outcomes _ member⟩)

theorem later_writeAll (data : List UInt8) (wire : Wire) : Later wire (wire.writeAll data).2 := by
  unfold Wire.writeAll Sink.writeAll
  dsimp only
  split
  next => exact .refl wire
  next =>
    cases script : wire.outbound.outcomes with
    | nil => exact ⟨fun outcome member => (by rw [script]; exact member),fun _ => id⟩
    | cons outcome rest =>
      have fewer : ∀ other ∈ rest, other ∈ wire.outbound.outcomes := by
        intro other member
        rw [script]
        exact mem_cons_of_mem _ member
      cases outcome with
      | whole | broken count error => exact ⟨fewer,fun _ => id⟩

theorem later_flush (wire : Wire) : Later wire wire.flush.2 :=
  ⟨fun _ => id,fun _ member => mem_of_mem_tail member⟩

theorem flush_reported {error : IoError} (failed : wire.flush.1 = some error) : Reported wire error := by
  unfold Wire.flush at failed
  cases script : wire.flushes with
  | nil =>
    rw [script] at failed
    cases failed
  | cons flushed rest =>
    rw [script] at failed
    refine .inl ?_
    rw [script]
    exact mem_cons.mpr (.inl failed.symm)

theorem reply_bytes (answer : DataReply) (wire : Wire) : Later wire (reply serialise answer wire).2 ∧ ∃ out,
    (reply serialise answer wire).2.outbound.content = wire.outbound.content ++ out ∧
    out <+: serialise answer ++ [10] ∧ ((reply serialise answer wire).1 = none → out = serialise answer ++ [10]) := by
  obtain ⟨text,added,part,all,-⟩ := writeAll_bytes (serialise answer) wire
  have before := later_writeAll (serialise answer) wire
  unfold reply
  dsimp only
  cases first : (wire.writeAll (serialise answer)).1 with
  | some error => exact ⟨before,text,added,part.trans (prefix_append _ _),nofun⟩
  | none =>
    obtain rfl := all first
    obtain ⟨newline,ended,short,closed,-⟩ := writeAll_bytes [10] (wire.writeAll (serialise answer)).2
    have between := before.trans (later_writeAll [10] (wire.writeAll (serialise answer)).2)
    have both : ((wire.writeAll (serialise answer)).2.writeAll [10]).2.outbound.content =
        wire.outbound.content ++ (serialise answer ++ newline) := by rw [ended,added,append_assoc]
    have cut : serialise answer ++ newline <+: serialise answer ++ [10] := (prefix_append_right_inj _).mpr short
    dsimp only
    cases second : ((wire.writeAll (serialise answer)).2.writeAll [10]).1 with
    | some error => exact ⟨between,_,both,cut,nofun⟩
    | none => exact ⟨between.trans (later_flush _),_,both,cut,fun _ => by rw [closed second]⟩

end Writes

section Body

variable {wire : Wire} {file : OpenFile} {offset length written : Nat}

private theorem read_part (position window : Nat) (file : OpenFile) : (file.read position window).2.store = file.store ∧
    ∀ chunk, (file.read position window).1 = .bytes chunk → chunk <+: (file.store.content.drop position).take window := by
  unfold OpenFile.read
  dsimp only
  split
  next => exact ⟨rfl,fun chunk same => by cases same; exact prefix_rfl⟩
  next count rest script => exact ⟨rfl,fun chunk same => by cases same; exact List.take_prefix _ _⟩
  next => exact ⟨rfl,fun chunk same => by cases same; exact List.nil_prefix⟩
  all_goals next => exact ⟨rfl,nofun⟩

def restOf (offset length written : Nat) (content : List UInt8) : List UInt8 :=
  (content.drop (offset + written)).take (length - written)

theorem restOf_split {content chunk : List UInt8} {window : Nat} (fits : window ≤ length - written)
    (read : chunk <+: (content.drop (offset + written)).take window) :
    restOf offset length written content = chunk ++ restOf offset length (written + chunk.length) content := by
  have inside : chunk <+: (content.drop (offset + written)).take (length - written) :=
    read.trans (take_prefix_take_left fits)
  obtain ⟨rest,whole⟩ := inside
  unfold restOf
  rw [← whole]
  refine congrArg (chunk ++ ·) ?_
  have dropped := congrArg (List.drop chunk.length) whole
  rw [drop_left,drop_take,drop_drop] at dropped
  rw [dropped,Nat.add_assoc,Nat.sub_sub]

theorem sendLoop_bytes (offset length written : Nat) (wire : Wire) (file : OpenFile)
    (inside : offset + length ≤ file.store.content.length) : ∃ body,
    (sendLoop offset length written wire file).2.1.outbound.content = wire.outbound.content ++ body ∧
    body <+: restOf offset length written file.store.content ∧
    ((sendLoop offset length written wire file).1.outcome = .allowed → body = restOf offset length written file.store.content) ∧
    (body = restOf offset length written file.store.content →
      (sendLoop offset length written wire file).1.outcome = .allowed ∨
      ∃ error, Reported wire error ∧ (sendLoop offset length written wire file).1.outcome = .failed error.display) := by
  have unsent (written : Nat) (file : OpenFile) (inside : offset + length ≤ file.store.content.length)
      (less : written < length) : [] ≠ restOf offset length written file.store.content := by
    intro empty
    have none' := congrArg List.length empty
    rw [restOf,length_take,length_drop,length_nil] at none'
    omega
  fun_induction sendLoop offset length written wire file with
  | case1 written wire file less after reading =>
    refine ⟨[],(append_nil _).symm,List.nil_prefix,by rintro ⟨⟩,fun all => ?_⟩
    exact absurd all (unsent written file inside less)
  | case2 written wire file less after first more reading error broken =>
    obtain ⟨chunk,added,part,-,told⟩ := writeAll_bytes (first::more) wire
    obtain ⟨-,read⟩ := read_part (offset + written) (min (length - written) COPY_BUFFER) file
    refine ⟨chunk,added,part.trans ?_,by rintro ⟨⟩,fun _ => .inr ⟨error,told error broken,rfl⟩⟩
    rw [restOf_split (Nat.min_le_left _ _) (read _ reading)]
    exact prefix_append _ _
  | case3 written wire file less after first more reading wrote ih =>
    obtain ⟨chunk,added,-,all,-⟩ := writeAll_bytes (first::more) wire
    obtain rfl := all wrote
    obtain ⟨store,read⟩ := read_part (offset + written) (min (length - written) COPY_BUFFER) file
    have same : after.store = file.store := store
    obtain ⟨body,rest,part,allowed,whole⟩ := ih (by rw [same]; exact inside)
    rw [same] at part allowed whole
    have cut := restOf_split (Nat.min_le_left _ _) (read _ reading)
    refine ⟨first::more ++ body,?_,?_,fun done => ?_,fun done => ?_⟩
    · rw [rest,added,append_assoc]
    · rw [cut]
      exact (prefix_append_right_inj _).mpr part
    · rw [cut,allowed done]
    · rw [cut] at done
      refine (whole (append_cancel_left done)).imp id ?_
      rintro ⟨error,reported,same⟩
      exact ⟨error,(later_writeAll (first::more) wire).reported reported,same⟩
  | case4 written wire file less after reading ih =>
    obtain ⟨store,-⟩ := read_part (offset + written) (min (length - written) COPY_BUFFER) file
    have same : after.store = file.store := store
    have more := ih (by rw [same]; exact inside)
    rwa [same] at more
  | case5 written wire file less after error reading =>
    refine ⟨[],(append_nil _).symm,List.nil_prefix,by rintro ⟨⟩,fun all => ?_⟩
    exact absurd all (unsent written file inside less)
  | case6 written wire file done error failed =>
    have nothing : restOf offset length written file.store.content = [] := by
      rw [restOf,Nat.sub_eq_zero_of_le (Nat.le_of_not_lt done),take_zero]
    refine ⟨[],(append_nil _).symm,List.nil_prefix,by rintro ⟨⟩,fun _ => ?_⟩
    exact .inr ⟨error,flush_reported failed,rfl⟩
  | case7 written wire file done flushed =>
    have nothing : restOf offset length written file.store.content = [] := by
      rw [restOf,Nat.sub_eq_zero_of_le (Nat.le_of_not_lt done),take_zero]
    exact ⟨[],(append_nil _).symm,List.nil_prefix,(fun _ => nothing.symm),fun _ => .inl rfl⟩

end Body

section Serve

variable {serialise parse} {wire : Wire} {file : OpenFile} {preamble : Preamble} {leftover : List UInt8}

theorem send_bytes (announced : HeaderDue file preamble [] →
      (reply serialise (.sending preamble.length.toNat) wire).1 = none) :
    (∃ attempt reason kind, send serialise wire file preamble = ((attempt,false),wire,file) ∧
      attempt.reply = .failed reason kind ∧ attempt.outcome ≠ .allowed) ∨
    ∃ attempt after kept body, send serialise wire file preamble = ((attempt,true),after,kept) ∧
      Fits preamble file.store.content ∧
      after.outbound.content = wire.outbound.content ++ (serialise (.sending preamble.length.toNat) ++ 10::body) ∧
      body <+: rangeOf preamble file.store.content ∧
      (attempt.outcome = .allowed → body = rangeOf preamble file.store.content) ∧
      (body = rangeOf preamble file.store.content → attempt.outcome = .allowed ∨
        ∃ error, Reported wire error ∧ attempt.outcome = .failed error.display) := by
  unfold send
  split
  next error measured => exact .inl ⟨_,_,_,rfl,rfl,by rintro ⟨⟩⟩
  next measured =>
    dsimp only
    split
    next => exact .inl ⟨_,_,_,rfl,rfl,by rintro ⟨⟩⟩
    next bounded =>
      split
      next => exact .inl ⟨_,_,_,rfl,rfl,by rintro ⟨⟩⟩
      next inside =>
        have fits : Fits preamble file.store.content := ⟨Nat.lt_of_not_le bounded,Nat.le_of_not_lt inside⟩
        split
        next => exact .inl ⟨_,_,_,rfl,rfl,by rintro ⟨⟩⟩
        next placed =>
          have said := announced ⟨rfl,measured,fits,placed⟩
          obtain ⟨later,header,added,-,line⟩ := @reply_bytes serialise (.sending preamble.length.toNat) wire
          obtain rfl := line said
          rw [said]
          obtain ⟨body,rest,part,allowed,whole⟩ := sendLoop_bytes preamble.offset.toNat preamble.length.toNat 0
            (reply serialise (.sending preamble.length.toNat) wire).2 file fits.inside
          refine .inr ⟨_,_,_,body,rfl,fits,?_,part,allowed,fun done => (whole done).imp id ?_⟩
          · rw [rest,added,append_assoc,append_assoc]
            rfl
          · rintro ⟨error,reported,same⟩
            exact ⟨error,later.reported reported,same⟩

theorem preambleLoop_silent (buf : List UInt8) (wire : Wire) :
    (preambleLoop buf wire).2.outbound = wire.outbound ∧ (preambleLoop buf wire).2.flushes = wire.flushes := by
  fun_induction preambleLoop buf wire with
  | case4 buf wire timed early armed rest reading ih => exact ih
  | case9 buf wire timed early armed rest first more reading data missing short ih => exact ih
  | _ => exact ⟨rfl,rfl⟩

def sourceOf (registry : TransferRegistry) (now : Nat) (token : String) (peer : PeerIdentity) (files : Nat → OpenFile) :
    List UInt8 :=
  match (registry.claim now token peer).1 with
  | .ok (transfer,_) => (files transfer.file).store.content
  | .error _ => []

variable {policy : Policy} {peer : PeerIdentity} {now : Nat} {registry : TransferRegistry} {files : Nat → OpenFile}
  {line : String} {after : Wire}

private theorem refused_told (content : List UInt8) (reason : String) (start : Wire)
    (silent : start.outbound = wire.outbound ∧ start.flushes = wire.flushes) : ∃ out entry,
    (refuse serialise start peer files reason).journal = [entry] ∧
    (refuse serialise start peer files reason).wire.outbound.content = wire.outbound.content ++ out ∧
    Told serialise preamble content wire (refuse serialise start peer files reason).failure entry.outcome out := by
  obtain ⟨-,out,added,part,whole⟩ := @reply_bytes serialise (.failed reason .refused) start
  rw [silent.1] at added
  exact ⟨out,_,rfl,added,.refused nofun part whole⟩

end Serve

section Office

def kindName : FailureKind → List Char
  | .outOfSpace => ['o','u','t','_','o','f','_','s','p','a','c','e']
  | .io => ['i','o']
  | .refused => ['r','e','f','u','s','e','d']

def quoted (text : List Char) : List Char := '"'::text ++ [ '"']

def objectLine (fields : List (List Char × List Char)) : List UInt8 :=
  ('{'::[','].intercalate (fields.map (fun field => quoted field.1 ++ ':'::field.2)) ++ [ '}']).map
    (fun char => UInt8.ofNat char.toNat)

def status (value : List Char) : List Char × List Char := (['s','t','a','t','u','s'],quoted value)

def byteCount (bytes : Nat) : List Char × List Char := (['b','y','t','e','s'],(toString bytes).toList)

def json : DataReply → List UInt8
  | .ready => objectLine [status ['r','e','a','d','y']]
  | .stored bytes => objectLine [status ['s','t','o','r','e','d'],byteCount bytes]
  | .sending bytes => objectLine [status ['s','e','n','d','i','n','g'],byteCount bytes]
  | .failed reason kind => objectLine [status ['f','a','i','l','e','d'],
      (['r','e','a','s','o','n'],quoted reason.toList),(['k','i','n','d'],quoted (kindName kind))]

def reader : PeerIdentity := ⟨999,999,1⟩

def photo : PendingTransfer := ⟨0,.send,"s","photo.jpg",reader,"c","read",0⟩

def downloads : TransferRegistry := { pending := (∅ : Table String PendingTransfer).insert "t" photo, byName := ∅, inFlight := ∅ }

def quick (flushes : List (Option IoError)) : Wire := ⟨[.data [120,10]],[],[],⟨[],[]⟩,flushes⟩

theorem quick_read (flushes : List (Option IoError)) : ∃ after, readPreamble (quick flushes) = (.ok ("x",[]),after) ∧
    after.outbound = ⟨[],[]⟩ ∧ after.flushes = flushes := by
  have fair : Fair (quick flushes) := ⟨nofun,nofun,
    fun arrival member => .inr ⟨[120,10],mem_singleton.mp member,by decide,by decide⟩⟩
  have taken := (@preambleLoop_piece (quick flushes) [] [120,10] [] fair rfl).2 [120] "x" rfl (by decide) (by decide +kernel)
  have silent := preambleLoop_silent [] (quick flushes)
  exact ⟨(readPreamble (quick flushes)).2,Prod.ext taken rfl,silent.1,silent.2⟩

theorem reply_clean (serialise : DataReply → List UInt8) (answer : DataReply) {wire : Wire}
    (outcomes : wire.outbound.outcomes = []) (flushes : wire.flushes = []) : (reply serialise answer wire).1 = none := by
  obtain ⟨inbound,arms,elapsed,⟨content,script⟩,flushed⟩ := wire
  cases outcomes
  cases flushes
  unfold reply Wire.writeAll Sink.writeAll
  by_cases blank : serialise answer = []
  all_goals simp [blank,Wire.flush]

def album : Nat → OpenFile := fun _ => ⟨⟨[1,2,3],[]⟩,none,none,none,[],none⟩

structure Intact (serialise : DataReply → List UInt8) (preamble : Preamble) (content : List UInt8) (outcome : Outcome)
    (out : List UInt8) : Prop where
  one : (∃ reason kind, out = serialise (.failed reason kind) ++ [10]) ∨
    ∃ body, out = serialise (.sending preamble.length.toNat) ++ 10::body ∧ body <+: rangeOf preamble content
  whole : (Fits preamble content ∧ out = serialise (.sending preamble.length.toNat) ++ 10::rangeOf preamble content) ↔
    outcome = .allowed

def stalled : Wire := quick [some ⟨none,"timed out"⟩]

def apology : DataReply := .failed "could not announce the transfer: io: write reply: timed out" .refused

def twoLines : List UInt8 := json (.sending 2) ++ 10::(json apology ++ [10])

theorem stalled_content : (serve json (fun _ => .ok ⟨"t",1,2⟩) ⟨999⟩ reader 0 downloads stalled album).wire.outbound.content =
    stalled.outbound.content ++ twoLines := by
  obtain ⟨after,read,outbound,flushes⟩ := quick_read [some ⟨none,"timed out"⟩]
  obtain ⟨inbound,arms,elapsed,sink,flushed⟩ := after
  cases outbound
  cases flushes
  have claimed : (downloads.claim 0 "t" reader).1 = .ok (photo,photo.key) := by decide
  unfold serve stalled
  rw [if_neg (by decide),read]
  dsimp only
  rw [claimed]
  rfl

end Office
end Depsis.Agent.Downloads

import Depsis.Console.Sessions

/-! What the rows of a session say: open while its shell lives, closed once and with the reason of
its end, and the lines in the order they came, as long as no other request's UPDATE meets them.
-/
namespace Depsis.Console

open Depsis.Foundation List AList Bool

variable {tailOf : String → String → String} {state next final : State} {event : Event} {id organizationId reason : String}
variable {session : Session} {row : Option Row} {closings texts : List String}

def tailAfter (tailOf : String → String → String) (tail : String) : List Message → String
  | [] => tail
  | .out data::rest => tailAfter tailOf (tailOf tail data) rest
  | _::rest => tailAfter tailOf tail rest

def recorded (tailOf : String → String → String) (tail : String) : List Message → List String
  | [] => []
  | .out data::rest => recorded tailOf (tailOf tail data) rest
  | .line line::rest => (if PASSWORD_PROMPT tail then MASKED_LINE else line)::recorded tailOf tail rest
  | _::rest => recorded tailOf tail rest

theorem tailAfter_append (tail : String) (first second : List Message) :
    tailAfter tailOf tail (first ++ second) = tailAfter tailOf (tailAfter tailOf tail first) second := by
  induction first generalizing tail with
  | nil => rfl
  | cons message first ih => cases message <;> exact ih _

theorem recorded_append (tail : String) (first second : List Message) :
    recorded tailOf tail (first ++ second) = recorded tailOf tail first ++ recorded tailOf (tailAfter tailOf tail first) second := by
  induction first generalizing tail with
  | nil => rfl
  | cons message first ih =>
    cases message with
    | line line => exact congrArg _ (ih tail)
    | _ => exact ih _

def Write.text : Write → Option String
  | .command line => some line
  | .closes _ => none

structure Sound (tailOf : String → String → String) (row : Option Row) (closings texts : List String) (session : Session) : Prop where
  early : session.stage = .connected ∨ session.stage = .abandoned → row = none ∧ closings = []
  stored : session.stage = .inserted ∨ session.stage = .registered → ∃ found, row = some found ∧
    found.organizationId = session.organizationId ∧ (found.closeReason = none ∧ closings = [] ∨
      ∃ reason, found.closeReason = some reason ∧ closings = [reason] ∧ session.reason = some reason)
  ended : session.closed = session.reason.isSome
  gone : session.gone = (session.closed || session.stage = .abandoned)
  quiet : session.gone = true → session.wire = []
  pending : ∀ reason found, session.reason = some reason → row = some found → found.closeReason = none →
    Write.closes reason ∈ session.writes
  named : ∀ reason, Write.closes reason ∈ session.writes → session.reason = some reason
  waits : session.stage ≠ .registered → session.closed = false ∧ session.writes = [] ∧ session.received = []
  hungUp : session.hungUp = true → session.gone = false → ∃ message ∈ session.wire, message.last = true
  front : session.received ++ session.wire <+: session.sent
  whole : session.gone = false → session.received ++ session.wire = session.sent
  tail : session.outputTail = tailAfter tailOf "" session.received
  texts : texts ++ (session.writes.filterMap Write.text).map cut = (recorded tailOf "" session.received).map cut

theorem sound_fresh (organizationId userId : String) : Sound tailOf none [] [] (.fresh organizationId userId) where
  early := fun _ => ⟨rfl,rfl⟩
  stored := fun stage => by rcases stage with stage | stage <;> cases stage
  ended := rfl
  gone := rfl
  quiet := fun _ => rfl
  pending := nofun
  named := fun _ member => absurd member not_mem_nil
  waits := fun _ => ⟨rfl,rfl,rfl⟩
  hungUp := fun hungUp => by cases hungUp
  front := prefix_rfl
  whole := fun _ => rfl
  tail := rfl
  texts := rfl

namespace Sound

variable (sound : Sound tailOf row closings texts session)

include sound

theorem inserted (connected : session.stage = .connected) :
    Sound tailOf (some ⟨session.organizationId,session.userId,none⟩) [] texts { session with stage := .inserted } := by
  have waits := sound.waits (by rw [connected]; nofun)
  have alive : session.gone = false := by rw [sound.gone,waits.1,connected]; rfl
  constructor
  case early => exact fun stage => by rcases stage with stage | stage <;> cases stage
  case stored => exact fun _ => ⟨_,rfl,rfl,.inl ⟨rfl,rfl⟩⟩
  case ended => exact sound.ended
  case gone => rw [alive,waits.1]; rfl
  case quiet => exact sound.quiet
  case pending =>
    intro reason found ended
    have := sound.ended
    rw [waits.1,show session.reason = some reason from ended] at this
    cases this
  case named => exact sound.named
  case waits => exact fun _ => waits
  case hungUp => exact sound.hungUp
  case front => exact sound.front
  case whole => exact sound.whole
  case tail => exact sound.tail
  case texts => exact sound.texts

theorem abandoned (connected : session.stage = .connected) :
    Sound tailOf row closings texts { session with stage := .abandoned, gone := true, wire := [] } := by
  have waits := sound.waits (by rw [connected]; nofun)
  constructor
  case early => exact fun _ => sound.early (.inl connected)
  case stored => exact fun stage => by rcases stage with stage | stage <;> cases stage
  case ended => exact sound.ended
  case gone => exact (Bool.or_true _).symm
  case quiet => exact fun _ => rfl
  case pending => exact sound.pending
  case named => exact sound.named
  case waits => exact fun _ => waits
  case hungUp => exact nofun
  case front =>
    change session.received ++ [] <+: session.sent
    rw [append_nil]
    exact (prefix_append _ _).trans sound.front
  case whole => exact nofun
  case tail => exact sound.tail
  case texts => exact sound.texts

theorem registered (inserted : session.stage = .inserted) :
    Sound tailOf row closings texts { session with stage := .registered } := by
  have waits := sound.waits (by rw [inserted]; nofun)
  have gone := sound.gone
  rw [inserted] at gone
  exact ⟨(fun stage => by rcases stage with stage | stage <;> cases stage),fun _ => sound.stored (.inl inserted),sound.ended,
    gone,sound.quiet,sound.pending,sound.named,fun other => absurd rfl other,sound.hungUp,sound.front,sound.whole,sound.tail,sound.texts⟩

theorem sends {message : Message} (lives : session.shellLives = true) : Sound tailOf row closings texts
    { session with wire := session.wire ++ [message], sent := session.sent ++ [message], hungUp := message.last } := by
  simp only [Session.shellLives,and_eq_true,not_eq_true'] at lives
  have whole : session.received ++ (session.wire ++ [message]) = session.sent ++ [message] := by
    rw [← append_assoc,sound.whole lives.1]
  refine ⟨sound.early,sound.stored,sound.ended,sound.gone,fun gone => ?_,sound.pending,sound.named,sound.waits,fun hungUp _ => ?_,?_,
    fun _ => whole,sound.tail,sound.texts⟩
  · cases lives.1.symm.trans gone
  · exact ⟨message,mem_append_right _ mem_cons_self,hungUp⟩
  · exact whole ▸ prefix_rfl

theorem live_iff (live : session.live = true) : session.stage = .registered ∧ session.closed = false ∧ session.gone = false ∧
    session.reason = none := by
  simp only [Session.live,and_eq_true,decide_eq_true_eq,not_eq_true'] at live
  obtain ⟨stage,opened⟩ := live
  refine ⟨stage,opened,?_,?_⟩
  · rw [sound.gone,opened,stage]
    rfl
  · have ended := sound.ended
    rw [opened] at ended
    exact Option.isSome_eq_false_iff.mp ended.symm |> Option.isNone_iff_eq_none.mp

theorem unended (reasonless : session.reason = none) (reason : String) : Write.closes reason ∉ session.writes := fun member => by
  have named := sound.named reason member
  rw [reasonless] at named
  cases named

theorem finished {received : List Message} (live : session.live = true) (front : received <+: session.sent)
    (tail : session.outputTail = tailAfter tailOf "" received)
    (same : recorded tailOf "" received = recorded tailOf "" session.received) (rest : List Message) (reason : String) :
    Sound tailOf row closings texts ({ session with wire := rest, received := received }.finish reason) := by
  obtain ⟨stage,opened,-,none⟩ := sound.live_iff live
  rw [Session.finish,if_neg (by rw [opened]; exact false_ne_true)]
  constructor
  case early => exact fun early => by rw [stage] at early; rcases early with early | early <;> cases early
  case stored =>
    intro _
    obtain ⟨found,there,tenant,⟨isOpen,nothing⟩ | ⟨other,-,-,ended⟩⟩ := sound.stored (.inr stage)
    · exact ⟨found,there,tenant,.inl ⟨isOpen,nothing⟩⟩
    · cases none.symm.trans ended
  case ended => rfl
  case gone => rfl
  case quiet => exact fun _ => rfl
  case pending =>
    intro other found ended _ _
    cases ended
    exact mem_append_right _ mem_cons_self
  case named =>
    intro other member
    rcases mem_append.mp member with earlier | now
    · exact absurd earlier (sound.unended none other)
    · cases mem_singleton.mp now
      rfl
  case waits => exact fun other => absurd stage other
  case hungUp => exact nofun
  case front =>
    change received ++ [] <+: session.sent
    rw [append_nil]
    exact front
  case whole => exact nofun
  case tail => exact tail
  case texts =>
    change texts ++ ((session.writes ++ [Write.closes reason]).filterMap Write.text).map cut = _
    rw [filterMap_append,show [Write.closes reason].filterMap Write.text = [] from rfl,append_nil,sound.texts]
    exact congrArg (List.map cut) same.symm

theorem ended_by (live : session.live = true) (reason : String) : Sound tailOf row closings texts (session.finish reason) :=
  sound.finished live ((prefix_append _ _).trans sound.front) sound.tail rfl session.wire reason

theorem dispatched {message : Message} {rest : List Message} (live : session.live = true) (wire : session.wire = message::rest) :
    Sound tailOf row closings texts
      ({ session with wire := rest, received := session.received ++ [message] }.handle tailOf message) := by
  obtain ⟨stage,opened,alive,none⟩ := sound.live_iff live
  have whole : (session.received ++ [message]) ++ rest = session.sent := by
    rw [append_assoc,singleton_append,← wire]
    exact sound.whole alive
  have front : session.received ++ [message] <+: session.sent := whole ▸ prefix_append _ _
  have hungUp (later : message.last = false) : session.hungUp = true → session.gone = false → ∃ message ∈ rest, message.last = true := by
    intro ended _
    obtain ⟨other,member,last⟩ := sound.hungUp ended alive
    rw [wire] at member
    rcases mem_cons.mp member with rfl | member
    · cases later.symm.trans last
    · exact ⟨other,member,last⟩
  have quiet : session.gone = true → rest = [] := fun gone => by cases alive.symm.trans gone
  cases message with
  | out data =>
    refine ⟨sound.early,sound.stored,sound.ended,sound.gone,quiet,sound.pending,sound.named,
      fun other => absurd stage other,hungUp rfl,?_,fun _ => whole,?_,?_⟩
    · exact whole ▸ prefix_rfl
    · change tailOf session.outputTail data = tailAfter tailOf "" (session.received ++ [.out data])
      rw [tailAfter_append,← sound.tail]
      rfl
    · change _ = (recorded tailOf "" (session.received ++ [.out data])).map cut
      rw [recorded_append,show recorded tailOf _ [Message.out data] = [] from rfl,append_nil]
      exact sound.texts
  | line line =>
    refine ⟨sound.early,sound.stored,sound.ended,sound.gone,quiet,fun reason found ended _ _ => ?_,fun reason member => ?_,
      fun other => absurd stage other,hungUp rfl,?_,fun _ => whole,?_,?_⟩
    · cases none.symm.trans ended
    · rcases mem_append.mp member with earlier | now
      · exact sound.named reason earlier
      · cases mem_singleton.mp now
    · exact whole ▸ prefix_rfl
    · change session.outputTail = tailAfter tailOf "" (session.received ++ [.line line])
      rw [tailAfter_append,← sound.tail]
      rfl
    · change texts ++ ((session.writes ++ [Write.command (if PASSWORD_PROMPT session.outputTail then MASKED_LINE else line)]).filterMap Write.text).map cut =
        (recorded tailOf "" (session.received ++ [.line line])).map cut
      rw [filterMap_append,map_append,← append_assoc,sound.texts,recorded_append,map_append,← sound.tail]
      rfl
  | error message =>
    have later : recorded tailOf "" (session.received ++ [.error message]) = recorded tailOf "" session.received := by
      rw [recorded_append,show recorded tailOf _ [Message.error message] = [] from rfl,append_nil]
    have tail : session.outputTail = tailAfter tailOf "" (session.received ++ [.error message]) := by
      rw [tailAfter_append,← sound.tail]
      rfl
    rw [Session.handle]
    split
    all_goals
      exact ⟨sound.early,sound.stored,sound.ended,sound.gone,quiet,sound.pending,sound.named,fun other => absurd stage other,
        hungUp rfl,whole ▸ prefix_rfl,fun _ => whole,tail,later ▸ sound.texts⟩
  | exit code =>
    refine sound.finished live front ?_ ?_ rest _
    · rw [tailAfter_append,← sound.tail]
      rfl
    · rw [recorded_append,show recorded tailOf _ [Message.exit code] = [] from rfl,append_nil]
  | closed =>
    refine sound.finished live front ?_ ?_ rest _
    · rw [tailAfter_append,← sound.tail]
      rfl
    · rw [recorded_append,show recorded tailOf _ [Message.closed] = [] from rfl,append_nil]

theorem rowStage {found : Row} (there : row = some found) : session.stage = .inserted ∨ session.stage = .registered := by
  cases staged : session.stage with
  | connected => cases there.symm.trans (sound.early (.inl staged)).1
  | abandoned => cases there.symm.trans (sound.early (.inr staged)).1
  | inserted => exact .inl rfl
  | registered => exact .inr rfl

theorem rowClosed {found : Row} (there : row = some found) (isOpen : found.closeReason = none)
    (reason : String) (ended : session.reason = some reason) :
    Sound tailOf (some { found with closeReason := some reason }) (closings ++ [reason]) texts session := by
  obtain ⟨other,same,tenant,⟨-,nothing⟩ | ⟨why,closed,-⟩⟩ := sound.stored (sound.rowStage there)
  · cases there.symm.trans same
    refine { sound with early := fun early => ?_, stored := fun _ => ?_, pending := fun _ _ _ same still => ?_ }
    · cases there.symm.trans (sound.early early).1
    · exact ⟨_,rfl,tenant,.inr ⟨reason,rfl,by rw [nothing]; rfl,ended⟩⟩
    · cases same
      cases still
  · cases there.symm.trans same
    cases isOpen.symm.trans closed

theorem wroteCommand {line : String} {rest : List Write} (queued : session.writes = .command line::rest) :
    Sound tailOf row closings (texts ++ [cut line]) { session with writes := rest } := by
  refine { sound with pending := fun reason found ended there isOpen => ?_, named := fun reason member => ?_,
                      waits := fun other => ?_, texts := ?_ }
  · have member := sound.pending reason found ended there isOpen
    rw [queued] at member
    rcases mem_cons.mp member with same | later
    · cases same
    · exact later
  · exact sound.named reason (queued ▸ mem_cons_of_mem _ member)
  · have none := (sound.waits other).2.1
    rw [queued] at none
    cases none
  · rw [← sound.texts,queued,append_assoc]
    rfl

theorem wroteEnd {reason : String} {rest : List Write} (queued : session.writes = .closes reason::rest)
    (closed : ∀ found, row = some found → found.closeReason ≠ none) :
    Sound tailOf row closings texts { session with writes := rest } := by
  refine { sound with pending := fun why found _ there isOpen => absurd isOpen (closed found there),
                      named := fun why member => ?_, waits := fun other => ?_, texts := ?_ }
  · exact sound.named why (queued ▸ mem_cons_of_mem _ member)
  · have none := (sound.waits other).2.1
    rw [queued] at none
    cases none
  · rw [← sound.texts,queued]
    rfl

end Sound

def about (id : String) (entries : List (String × String)) : List String :=
  (entries.filter (fun entry => entry.1 = id)).map Prod.snd

theorem about_append (id : String) (first second : List (String × String)) :
    about id (first ++ second) = about id first ++ about id second := by
  rw [about,filter_append,map_append]
  rfl

theorem about_single (id other text : String) : about id [(other,text)] = if other = id then [text] else [] := by
  rw [about,filter_cons]
  by_cases same : other = id
  · simp [same]
  · simp [same]

theorem about_nil {entries : List (String × String)} (absent : ∀ entry ∈ entries, entry.1 ≠ id) : about id entries = [] := by
  rw [about,filter_eq_nil_iff.mpr (fun entry member => by simpa using absent entry member)]
  rfl

structure Truthful (tailOf : String → String → String) (state : State) : Prop where
  sound : ∀ id session, state.sessions.lookup id = some session →
    Sound tailOf (state.rows.lookup id) (about id state.closings) (about id state.commands) session
  known : ∀ entry ∈ state.closings, (state.rows.lookup entry.1).isSome

theorem Truthful.put (truthful : Truthful tailOf state)
    (sound : Sound tailOf (state.rows.lookup id) (about id state.closings) (about id state.commands) session) :
    Truthful tailOf (state.put id session) := by
  refine ⟨fun other found there => ?_,truthful.known⟩
  change (state.sessions.insert id session).lookup other = some found at there
  rcases lookup_insert_cases there with ⟨same,rfl⟩ | ⟨-,there⟩
  · exact same ▸ sound
  · exact truthful.sound other found there

theorem markClosed_cases (state : State) (organizationId id reason : String) :
    (state.markClosed organizationId id reason = state ∧ ∀ row, state.rows.lookup id = some row → isOpen organizationId row = false) ∨
    ∃ row, state.rows.lookup id = some row ∧ row.organizationId = organizationId ∧ row.closeReason = none ∧
      state.markClosed organizationId id reason =
        { state with rows := state.rows.insert id { row with closeReason := some reason },
                     closings := state.closings ++ [(id,reason)] } := by
  rw [State.markClosed]
  split
  next missing =>
    refine .inl ⟨rfl,fun row there => ?_⟩
    rw [there] at missing
    simpa [Option.filter_eq_none_iff] using missing
  next row found =>
    obtain ⟨there,opened⟩ := Option.filter_eq_some_iff.mp found
    simp only [isOpen,and_eq_true,decide_eq_true_eq,Option.isNone_iff_eq_none] at opened
    exact .inr ⟨row,there,opened.1,opened.2,rfl⟩

theorem Truthful.markClosed (truthful : Truthful tailOf state) (organizationId : String)
    (meets : ∀ row session, state.rows.lookup id = some row → isOpen organizationId row = true →
      state.sessions.lookup id = some session → session.reason = some reason) :
    Truthful tailOf (state.markClosed organizationId id reason) := by
  rcases markClosed_cases state organizationId id reason with ⟨same,-⟩ | ⟨row,there,tenant,opened,changed⟩
  · rw [same]
    exact truthful
  · rw [changed]
    constructor
    · intro other session found
      have sound := truthful.sound other session found
      change Sound tailOf ((state.rows.insert id _).lookup other) (about other (state.closings ++ [(id,reason)])) _ session
      rw [lookup_insert_eq,about_append,about_single]
      by_cases same : other = id
      · subst same
        rw [if_pos rfl,if_pos rfl]
        exact sound.rowClosed there opened reason (meets row session there (by simp [isOpen,tenant,opened]) found)
      · rw [if_neg same,if_neg (fun equal => same equal.symm),append_nil]
        exact sound
    · intro entry member
      change ((state.rows.insert id _).lookup entry.1).isSome
      rw [lookup_insert_eq]
      split
      next => rfl
      next different =>
        rcases mem_append.mp member with earlier | now
        · exact truthful.known entry earlier
        · exact absurd (congrArg Prod.fst (mem_singleton.mp now)) different

theorem about_reaped (rows : Table String Row) (test : String × Row → Bool) (id : String) :
    about id ((rows.rows.filter test).map (fun entry => (entry.1,"shutdown"))) =
      ((rows.lookup id).filter (fun row => test (id,row))).toList.map (fun _ => "shutdown") := by
  have picked : (rows.rows.filter test).filter (fun entry => entry.1 = id) =
      ((rows.lookup id).toList.map (fun row => (id,row))).filter test := by
    rw [← rows_at,filter_comm]
  rw [about,filter_map,map_map]
  change (((rows.rows.filter test).filter (fun entry => entry.1 = id))).map (fun _ => "shutdown") = _
  rw [picked]
  cases rows.lookup id with
  | none => rfl
  | some row => cases passes : test (id,row) <;> simp [passes,Option.filter_some]

theorem Truthful.reap (truthful : Truthful tailOf state) (organizationId : String) (mine : List String)
    (meets : ∀ id row session, state.rows.lookup id = some row → isOpen organizationId row = true → id ∉ mine →
      state.sessions.lookup id = some session → session.reason = some "shutdown") :
    Truthful tailOf (state.reap organizationId mine) := by
  constructor
  · intro id session found
    have sound := truthful.sound id session found
    change Sound tailOf ((state.rows.mapRows _).lookup id) (about id (state.closings ++ _)) (about id state.commands) session
    rw [lookup_mapRows,about_append,about_reaped]
    cases there : state.rows.lookup id with
    | none =>
      rw [there] at sound
      simpa using sound
    | some row =>
      rw [there] at sound
      rw [Option.map_some,Option.filter_some]
      by_cases hit : (isOpen organizationId row && !mine.contains id) = true
      · rw [if_pos hit,if_pos hit]
        obtain ⟨opened,away⟩ := and_eq_true_iff.mp hit
        have unclosed : row.closeReason = none := by
          simp only [isOpen,and_eq_true,Option.isNone_iff_eq_none] at opened
          exact opened.2
        exact sound.rowClosed rfl unclosed "shutdown" (meets id row session there opened (by simpa using away) found)
      · rw [if_neg hit,if_neg hit]
        simpa using sound
  · intro entry member
    change ((state.rows.mapRows _).lookup entry.1).isSome
    rw [lookup_mapRows,Option.isSome_map]
    rcases mem_append.mp member with earlier | now
    · exact truthful.known entry earlier
    · obtain ⟨⟨id,row⟩,listed,rfl⟩ := mem_map.mp now
      rw [mem_rows.mp (mem_of_mem_filter listed)]
      rfl

/-- The row's session, if there is one, has ended with `shutdown`. -/
def State.spared (state : State) (id : String) : Bool :=
  (state.sessions.lookup id).all (fun session => session.reason = some "shutdown")

/-- No UPDATE of another request meets the open row of a session, but one that has ended with the same reason;
and the session's own statements succeed. -/
def Event.spares (state : State) : Event → Bool
  | .reaps handler =>
    match state.handlers.lookup handler with
    | some (.reaping organizationId mine) =>
      state.rows.rows.all (fun entry => !isOpen organizationId entry.2 || mine.contains entry.1 || state.spared entry.1)
    | _ => true
  | .marks handler =>
    match state.handlers.lookup handler with
    | some (.marking organizationId id) => (state.rows.lookup id).all (fun row => !isOpen organizationId row || state.spared id)
    | _ => true
  | .writes _ succeeds => succeeds
  | _ => true

theorem truthful_first (rows : Table String Row) (commands : List (String × String)) :
    Truthful tailOf (.first rows commands) := by
  refine ⟨fun id session found => ?_,fun _ member => absurd member not_mem_nil⟩
  rw [State.first,lookup_empty] at found
  cases found

theorem spared_reason (spared : state.spared id = true) (found : state.sessions.lookup id = some session) :
    session.reason = some "shutdown" := by
  rw [State.spared,found] at spared
  exact of_decide_eq_true spared

section

variable (truthful : Truthful tailOf state)
include truthful

theorem Truthful.handled (handlers : Table Nat Handler) :
    Truthful tailOf { state with handlers := handlers } := ⟨truthful.sound,truthful.known⟩

theorem Truthful.asked {handler : Nat} {asked : Handler}
    (taken : state.ask handler asked = some next) : Truthful tailOf next := by
  rw [State.ask] at taken
  obtain ⟨-,taken⟩ := of_unless taken
  cases taken
  exact truthful.handled _

theorem Truthful.select (handler : Nat) (organizationId id : String) (userId : Option String) :
    Truthful tailOf (state.select handler organizationId id userId) := by
  rw [State.select]
  split
  next => exact truthful.handled _
  next =>
    split
    all_goals next => exact truthful.handled _

theorem Truthful.write {write : Write} {rest : List Write}
    (found : state.sessions.lookup id = some session) (queued : session.writes = write::rest) :
    Truthful tailOf ((state.put id { session with writes := rest }).write id session true write) := by
  have sound := truthful.sound id session found
  cases write with
  | command line =>
    refine ⟨fun other later there => ?_,truthful.known⟩
    change (state.sessions.insert id _).lookup other = some later at there
    change Sound tailOf _ _ (about other (state.commands ++ [(id,cut line)])) later
    rw [about_append,about_single]
    rw [lookup_insert_eq] at there
    by_cases same : other = id
    · subst same
      rw [if_pos rfl] at there
      cases there
      rw [if_pos rfl]
      exact sound.wroteCommand queued
    · rw [if_neg same] at there
      rw [if_neg (fun equal => same equal.symm),append_nil]
      exact truthful.sound other later there
  | closes reason =>
    have ended : session.reason = some reason := sound.named reason (queued ▸ mem_cons_self)
    have closed := truthful.markClosed session.organizationId (fun _ other _ _ again => by
      cases found.symm.trans again
      exact ended)
    have row : ∀ row, (state.markClosed session.organizationId id reason).rows.lookup id = some row → row.closeReason ≠ none := by
      intro row there
      rcases markClosed_cases state session.organizationId id reason with ⟨same,nothing⟩ | ⟨old,-,-,-,changed⟩
      · rw [same] at there
        obtain ⟨other,also,tenant,-⟩ := sound.stored (sound.rowStage there)
        cases there.symm.trans also
        intro still
        have missed := nothing row there
        simp [isOpen,tenant,still] at missed
      · rw [changed] at there
        change (state.rows.insert id _).lookup id = some row at there
        rw [lookup_insert] at there
        cases there
        exact Option.some_ne_none _
    have sessions : (state.markClosed session.organizationId id reason).sessions.lookup id = some session := by
      rcases markClosed_cases state session.organizationId id reason with ⟨same,-⟩ | ⟨old,-,-,-,changed⟩
      · rw [same]
        exact found
      · rw [changed]
        exact found
    have done := closed.put ((closed.sound id session sessions).wroteEnd queued row)
    have commutes : (state.put id { session with writes := rest }).markClosed session.organizationId id reason =
        (state.markClosed session.organizationId id reason).put id { session with writes := rest } := by
      have rows : (state.put id { session with writes := rest }).rows = state.rows := rfl
      rw [State.markClosed,State.markClosed,rows]
      cases (state.rows.lookup id).filter (isOpen session.organizationId) <;> rfl
    change Truthful tailOf ((state.put id { session with writes := rest }).markClosed session.organizationId id reason)
    rw [commutes]
    exact done

theorem connects_truthful {userId : String}
    (taken : step tailOf state (.connects id organizationId userId) = some next) : Truthful tailOf next := by
  rw [step] at taken
  obtain ⟨free,taken⟩ := of_when taken
  cases taken
  obtain ⟨-,missing,unused⟩ := free
  have missing := Option.isNone_iff_eq_none.mp missing
  refine truthful.put ?_
  have unclosed : about id state.closings = [] := about_nil (fun entry member same => by
    have there := truthful.known entry member
    rw [same,missing] at there
    cases there)
  rw [missing,unclosed,about_nil unused]
  exact sound_fresh organizationId userId

theorem inserts_truthful {succeeds : Bool}
    (taken : step tailOf state (.inserts id succeeds) = some next) : Truthful tailOf next := by
  obtain ⟨session,found,taken⟩ := Option.bind_eq_some_iff.mp taken
  have sound := truthful.sound id session found
  obtain ⟨connected,taken⟩ := of_when taken
  obtain ⟨missing,unclosed⟩ := sound.early (.inl connected)
  split at taken
  next =>
    cases taken
    refine ⟨fun other later there => ?_,fun entry member => ?_⟩
    · change (state.sessions.insert id _).lookup other = some later at there
      change Sound tailOf ((state.rows.insert id _).lookup other) _ _ later
      rw [lookup_insert_eq] at there ⊢
      split at there
      next same =>
        cases there
        subst same
        rw [if_pos rfl]
        exact unclosed ▸ sound.inserted connected
      next different =>
        rw [if_neg different]
        exact truthful.sound other later there
    · change ((state.rows.insert id _).lookup entry.1).isSome
      rw [lookup_insert_eq]
      split
      next => rfl
      next => exact truthful.known entry member
  next =>
    cases taken
    exact truthful.put (sound.abandoned connected)

theorem step_truthful (spares : event.spares state = true)
    (taken : step tailOf state event = some next) : Truthful tailOf next := by
  cases event with simp only [step] at taken
  | connects id organizationId userId => exact connects_truthful truthful taken
  | inserts id succeeds => exact inserts_truthful truthful taken
  | registers id =>
    obtain ⟨session,found,taken⟩ := Option.bind_eq_some_iff.mp taken
    obtain ⟨inserted,taken⟩ := of_when taken
    cases taken
    exact truthful.put ((truthful.sound id session found).registered inserted)
  | sends id message =>
    obtain ⟨session,found,taken⟩ := Option.bind_eq_some_iff.mp taken
    obtain ⟨lives,taken⟩ := of_when taken
    cases taken
    exact truthful.put ((truthful.sound id session found).sends lives)
  | dispatches id =>
    obtain ⟨session,found,taken⟩ := Option.bind_eq_some_iff.mp taken
    obtain ⟨live,taken⟩ := of_when taken
    split at taken
    next => cases taken
    next message rest wire =>
      cases taken
      exact truthful.put ((truthful.sound id session found).dispatched live wire)
  | writes id succeeds =>
    obtain ⟨session,found,taken⟩ := Option.bind_eq_some_iff.mp taken
    split at taken <;> cases taken
    next write rest queued =>
      obtain rfl : succeeds = true := spares
      exact truthful.write found queued
  | lists handler organizationId => exact truthful.asked taken
  | reaps handler =>
    split at taken <;> cases taken
    next organizationId mine asked =>
      rw [Event.spares,asked] at spares
      refine (truthful.reap organizationId mine (fun id row session there opened away found => ?_)).handled _
      have kept := all_eq_true.mp spares (id,row) (mem_rows.mpr there)
      simp only [opened,Bool.not_true,Bool.false_or,Bool.or_eq_true,contains_iff_mem] at kept
      exact spared_reason (kept.resolve_left away) found
  | closes handler organizationId id =>
    split at taken
    next session found =>
      cases taken
      obtain ⟨there,live⟩ := Option.filter_eq_some_iff.mp found
      exact truthful.put ((truthful.sound id session there).ended_by (and_eq_true_iff.mp live).1 "user")
    next => exact truthful.asked taken
  | inputs handler organizationId userId id =>
    split at taken
    next =>
      cases taken
      exact truthful
    next => exact truthful.asked taken
  | selects handler =>
    split at taken <;> cases taken
    next organizationId id userId asked => exact truthful.select handler organizationId id userId
  | marks handler =>
    split at taken <;> cases taken
    next organizationId id asked =>
      refine (truthful.markClosed organizationId (fun row session there opened found => ?_)).handled _
      simp only [Event.spares,asked,there,Option.all_some,opened,Bool.not_true,Bool.false_or] at spares
      exact spared_reason spares found
  | shutsDown =>
    cases taken
    refine ⟨fun id session found => ?_,truthful.known⟩
    change (state.sessions.mapRows _).lookup id = some session at found
    rw [lookup_mapRows] at found
    obtain ⟨old,there,rfl⟩ := Option.map_eq_some_iff.mp found
    have sound := truthful.sound id old there
    split
    next live => exact sound.ended_by live "shutdown"
    next => exact sound

end

def Session.settled (session : Session) : Bool := session.stage = .registered && session.wire.isEmpty && session.writes.isEmpty

def shown (tail data : String) : String := tail ++ (if data = "UGFzc3dvcmQ6IA==" then "Password: " else "$ ")

def opens : List Event := [.connects "s" "box" "ayse",.inserts "s" true,.registers "s"]

def typesAndLeaves : List Event :=
  [.sends "s" (.line "ls"),.dispatches "s",.lists 0 "box",.writes "s" true,.reaps 0,.sends "s" (.exit 0),.dispatches "s",.writes "s" true]

def Message.typed : Message → Option String
  | .line text => some text
  | _ => none

end Depsis.Console

import Depsis.Foundation.Machine
import Depsis.Foundation.Table

/-! Console sessions: one socket for each shell, and the rows that say who opened it, how it ended
and which lines were typed. Output is only looked at for a password prompt.
-/
namespace Depsis.Console

open Depsis.Foundation

def MAX_AUDIT_LINE : Nat := 8192

def MASKED_LINE : String := "<gizlenmiş girdi>"

def EXPIRY_REASONS : List String := ["idle","max_age"]

/-- `i` of a regular expression, as far as the words need it. -/
def canonical (char : Char) : Char := if char = 'Ş' then 'ş' else char.toLower

def promptWords : List (List Char) := ["password".toList,"passphrase".toList,"parola".toList,"şifre".toList]

def PASSWORD_PROMPT (tail : String) : Bool :=
  match tail.toList.reverse.dropWhile (fun char => char = ' ' || char = '\t') with
  | [] => false
  | last::before =>
    (last = ':' || last = '：') &&
      let line := ((before.takeWhile (fun char => char ≠ '\r' && char ≠ '\n')).map canonical).reverse
      promptWords.any (fun word => line.tails.any (fun rest => word.isPrefixOf rest))

inductive Message where
  | out (data : String)
  | line (line : String)
  | error (message : String)
  | exit (code : Int)
  | closed

def Message.last : Message → Bool
  | .exit _ | .closed => true
  | _ => false

inductive Write where
  | command (line : String)
  | closes (reason : String)

inductive Stage where
  | connected
  /-- The row is committed, and the id still in `opening`. -/
  | inserted
  | registered
  | abandoned
deriving DecidableEq

structure Session where
  organizationId : String
  userId : String
  stage : Stage
  wire : List Message
  gone : Bool
  hungUp : Bool
  pendingReason : Option String
  outputTail : String
  writes : List Write
  closed : Bool
  sent : List Message
  received : List Message
  reason : Option String

def Session.shellLives (session : Session) : Bool := !session.gone && !session.hungUp

def Session.live (session : Session) : Bool := session.stage = .registered && !session.closed

def Session.opening (session : Session) : Bool := session.stage = .connected || session.stage = .inserted

structure Row where
  organizationId : String
  userId : String
  closeReason : Option String

inductive Handler where
  | reaping (organizationId : String) (mine : List String)
  /-- `close`, or what needs the caller's own session. -/
  | asking (organizationId id : String) (userId : Option String)
  | marking (organizationId id : String)

structure State where
  rows : Table String Row
  commands : List (String × String)
  sessions : Table String Session
  handlers : Table Nat Handler
  closings : List (String × String)

inductive Event where
  | connects (id organizationId userId : String)
  | inserts (id : String) (succeeds : Bool)
  | registers (id : String)
  | sends (id : String) (message : Message)
  | dispatches (id : String)
  | writes (id : String) (succeeds : Bool)
  | lists (handler : Nat) (organizationId : String)
  | reaps (handler : Nat)
  | closes (handler : Nat) (organizationId id : String)
  | inputs (handler : Nat) (organizationId userId id : String)
  | selects (handler : Nat)
  | marks (handler : Nat)
  | shutsDown

def Session.fresh (organizationId userId : String) : Session :=
  ⟨organizationId,userId,.connected,[],false,false,none,"",[],false,[],[],none⟩

def Session.finish (session : Session) (reason : String) : Session :=
  if session.closed then session
  else { session with closed := true, gone := true, wire := [], writes := session.writes ++ [.closes reason], reason := some reason }

def Session.record (session : Session) (line : String) : Session :=
  { session with
    writes := session.writes ++ [.command (if PASSWORD_PROMPT session.outputTail then MASKED_LINE else line)] }

def Session.handle (tailOf : String → String → String) (session : Session) : Message → Session
  | .out data => { session with outputTail := tailOf session.outputTail data }
  | .line line => session.record line
  | .error message =>
    if EXPIRY_REASONS.contains message then { session with pendingReason := some message }
    else { session with pendingReason := some (session.pendingReason.getD "error") }
  | .exit _ => session.finish (session.pendingReason.getD "user")
  | .closed => session.finish (session.pendingReason.getD "shutdown")

def cut (line : String) : String := String.ofList (line.toList.take MAX_AUDIT_LINE)

def State.put (state : State) (id : String) (session : Session) : State :=
  { state with sessions := state.sessions.insert id session }

def isOpen (organizationId : String) (row : Row) : Bool := row.organizationId = organizationId && row.closeReason.isNone

def State.markClosed (state : State) (organizationId id reason : String) : State :=
  match (state.rows.lookup id).filter (isOpen organizationId) with
  | none => state
  | some row =>
    { state with
      rows := state.rows.insert id { row with closeReason := some reason }
      closings := state.closings ++ [(id,reason)] }

def State.reap (state : State) (organizationId : String) (mine : List String) : State :=
  { state with
    rows := state.rows.mapRows (fun id row =>
      if isOpen organizationId row && !mine.contains id then { row with closeReason := some "shutdown" } else row)
    closings := state.closings ++
      (state.rows.rows.filter (fun entry => isOpen organizationId entry.2 && !mine.contains entry.1)).map
        (fun entry => (entry.1,"shutdown")) }

def State.mine (state : State) (organizationId : String) : List String :=
  ((state.sessions.rows.filter (fun entry => entry.2.live && entry.2.organizationId = organizationId)) ++
    state.sessions.rows.filter (fun entry => entry.2.opening)).map Prod.fst

def State.ask (state : State) (handler : Nat) (asked : Handler) : Option State :=
  if (state.handlers.lookup handler).isSome then none else some { state with handlers := state.handlers.insert handler asked }

def State.answered (state : State) (handler : Nat) : State := { state with handlers := state.handlers.erase handler }

def State.select (state : State) (handler : Nat) (organizationId id : String) (userId : Option String) : State :=
  match (state.rows.lookup id).filter (fun row => row.organizationId = organizationId && userId.all (fun user => row.userId = user)) with
  -- `ConsoleSessionNotFoundError`
  | none => state.answered handler
  | some row =>
    if row.closeReason.isSome then state.answered handler
    else { state with handlers := state.handlers.insert handler (.marking organizationId id) }

def State.write (state : State) (id : String) (session : Session) (succeeds : Bool) : Write → State
  | .command line =>
    if succeeds then { state with commands := state.commands ++ [(id,cut line)] } else state
  | .closes reason => if succeeds then state.markClosed session.organizationId id reason else state

def step (tailOf : String → String → String) (state : State) : Event → Option State
  | .connects id organizationId userId =>
    -- `randomUUID`
    if (state.sessions.lookup id).isNone ∧ (state.rows.lookup id).isNone ∧ ∀ command ∈ state.commands, command.1 ≠ id then
      some (state.put id (.fresh organizationId userId))
    else none
  | .inserts id succeeds =>
    (state.sessions.lookup id).bind (fun session =>
      if session.stage = .connected then
        if succeeds then
          some { state.put id { session with stage := .inserted } with
            rows := state.rows.insert id ⟨session.organizationId,session.userId,none⟩ }
        else some (state.put id { session with stage := .abandoned, gone := true, wire := [] })
      else none)
  | .registers id =>
    (state.sessions.lookup id).bind (fun session =>
      if session.stage = .inserted then some (state.put id { session with stage := .registered }) else none)
  | .sends id message =>
    (state.sessions.lookup id).bind (fun session =>
      if session.shellLives then
        some (state.put id { session with
          wire := session.wire ++ [message], sent := session.sent ++ [message], hungUp := message.last })
      else none)
  | .dispatches id =>
    (state.sessions.lookup id).bind (fun session =>
      if session.live then
        match session.wire with
        | [] => none
        | message::rest =>
          some (state.put id
            ({ session with wire := rest, received := session.received ++ [message] }.handle tailOf message))
      else none)
  | .writes id succeeds =>
    (state.sessions.lookup id).bind (fun session =>
      match session.writes with
      | [] => none
      | write::rest => some ((state.put id { session with writes := rest }).write id session succeeds write))
  | .lists handler organizationId => state.ask handler (.reaping organizationId (state.mine organizationId))
  | .reaps handler =>
    match state.handlers.lookup handler with
    | some (.reaping organizationId mine) => some ((state.reap organizationId mine).answered handler)
    | _ => none
  | .closes handler organizationId id =>
    match (state.sessions.lookup id).filter (fun session => session.live && session.organizationId = organizationId) with
    | some session => some (state.put id (session.finish "user"))
    | none => state.ask handler (.asking organizationId id none)
  | .inputs handler organizationId userId id =>
    match (state.sessions.lookup id).filter (fun session =>
        session.live && session.organizationId = organizationId && session.userId = userId) with
    | some _ => some state
    | none => state.ask handler (.asking organizationId id (some userId))
  | .selects handler =>
    match state.handlers.lookup handler with
    | some (.asking organizationId id userId) => some (state.select handler organizationId id userId)
    | _ => none
  | .marks handler =>
    match state.handlers.lookup handler with
    | some (.marking organizationId id) => some ((state.markClosed organizationId id "shutdown").answered handler)
    | _ => none
  | .shutsDown =>
    some { state with sessions := state.sessions.mapRows (fun _ session =>
      if session.live then session.finish "shutdown" else session) }

def State.first (rows : Table String Row) (commands : List (String × String)) : State := ⟨rows,commands,∅,∅,[]⟩

end Depsis.Console

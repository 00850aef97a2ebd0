import Depsis.Foundation.ReadCommitted

/-! Calls of a service that alternates the statements of its transactions with
requests to a party outside the database. A call is its next step and what it
does with the answer, so one definition serves every interleaving of sessions
and the run of a call alone.
-/
namespace Depsis.Foundation.Calls

open ReadCommitted

structure Vocabulary where
  Statement : Type
  Answer : Statement → Type
  Fault : Type
  Request : Type
  Response : Type

/-- A failed statement has rolled its transaction back, a commit that fails leaves open
whether it took effect, and an outside request may go unanswered. -/
inductive Call (words : Vocabulary) (Result : Type) : Type where
  | done (result : Result)
  | sql (statement : words.Statement) (next : Except words.Fault (words.Answer statement) → Call words Result)
  | commit (next : Except words.Fault Unit → Call words Result)
  | rollBack (next : Call words Result)
  | ask (request : words.Request) (next : Option words.Response → Call words Result)

variable {words : Vocabulary} {Result Later Error : Type}

namespace Call

def bind : Call words Result → (Result → Call words Later) → Call words Later
  | .done result,rest => rest result
  | .sql statement next,rest => .sql statement (fun answer => (next answer).bind rest)
  | .commit next,rest => .commit (fun outcome => (next outcome).bind rest)
  | .rollBack next,rest => .rollBack (next.bind rest)
  | .ask request next,rest => .ask request (fun response => (next response).bind rest)

instance : Monad (Call words) where
  pure := .done
  bind := bind

end Call

abbrev Attempt (words : Vocabulary) (Error Result : Type) := ExceptT Error (Call words) Result

def query (statement : words.Statement) : Call words (Except words.Fault (words.Answer statement)) :=
  .sql statement .done

def single (statement : words.Statement) : Call words (Except words.Fault (words.Answer statement)) :=
  .sql statement (fun answer =>
    match answer with
    | .ok value => .commit (fun outcome => .done (outcome.map (fun _ => value)))
    | .error fault => .done (.error fault))

def request (asked : words.Request) : Call words (Option words.Response) := .ask asked .done

structure Meaning (words : Vocabulary) (Key Row World Demand Result : Type) where
  execute : (statement : words.Statement) → Table Key Row →
    Except words.Fault (List (Key × Mode) × List (Key × Option Row) × words.Answer statement)
  lost : words.Fault
  respond : words.Request → World → World × words.Response
  opening : Demand → Call words Result

end Depsis.Foundation.Calls

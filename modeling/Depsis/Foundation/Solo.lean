import Depsis.Foundation.Calls

/-! A call with nobody beside it, in surroundings that may fail any of its steps.
What the call is told has failed was either not done or done without its learning of it.
-/
namespace Depsis.Foundation.Calls

open ReadCommitted

inductive Fate (Failure : Type) where
  | heard
  | lost (failure : Failure)
  | unheard (failure : Failure)

structure Exchange (words : Vocabulary) where
  request : words.Request
  done : Option words.Response
  heard : Option words.Response

structure Scene (words : Vocabulary) (Key Row World : Type) where
  committed : Table Key Row
  writes : Table Key (Option Row)
  world : World
  turn : Nat
  exchanges : List (Exchange words)
  confirmed : Bool

variable {words : Vocabulary} {Key Row World Demand Failure Result Later Ended Error : Type} [DecidableEq Key]

namespace Scene

variable (scene : Scene words Key Row World)

def opening (committed : Table Key Row) (world : World) : Scene words Key Row World :=
  ⟨committed,∅,world,0,[],true⟩

def rollBack : Scene words Key Row World := {scene with writes := ∅, turn := scene.turn + 1}

def write (writes : List (Key × Option Row)) : Scene words Key Row World :=
  {scene with writes := scene.writes.fill writes, turn := scene.turn + 1}

def settle (confirmed : Bool) : Scene words Key Row World :=
  { scene with
    committed := overlay scene.committed scene.writes
    writes := ∅
    turn := scene.turn + 1
    confirmed := scene.confirmed && (confirmed || scene.writes.rows.isEmpty) }

def exchanged (world : World) (exchange : Exchange words) : Scene words Key Row World :=
  {scene with world := world, turn := scene.turn + 1, exchanges := scene.exchanges ++ [exchange]}

end Scene

section Solo

variable (meaning : Meaning words Key Row World Demand Ended) (told : Failure → Option words.Response)

def answered (fate : Fate Failure) (statement : words.Statement) (scene : Scene words Key Row World) :
    Except words.Fault (words.Answer statement) × Scene words Key Row World :=
  match fate with
  | .heard =>
    match meaning.execute statement (overlay scene.committed scene.writes) with
    | .error fault => (.error fault,scene.rollBack)
    | .ok (_,writes,answer) => (.ok answer,scene.write writes)
  | _ => (.error meaning.lost,scene.rollBack)

def settled (fate : Fate Failure) (scene : Scene words Key Row World) :
    Except words.Fault Unit × Scene words Key Row World :=
  match fate with
  | .heard => (.ok (),scene.settle true)
  | .lost _ => (.error meaning.lost,scene.rollBack)
  | .unheard _ => (.error meaning.lost,scene.settle false)

def responded (fate : Fate Failure) (asked : words.Request) (scene : Scene words Key Row World) :
    Option words.Response × Scene words Key Row World :=
  let (world,response) := meaning.respond asked scene.world
  match fate with
  | .heard => (some response,scene.exchanged world ⟨asked,some response,some response⟩)
  | .lost failure => (told failure,scene.exchanged scene.world ⟨asked,none,told failure⟩)
  | .unheard failure => (told failure,scene.exchanged world ⟨asked,some response,told failure⟩)

variable (fates : Nat → Fate Failure)

def Call.alone : Call words Result → Scene words Key Row World → Result × Scene words Key Row World
  | .done result,scene => (result,scene)
  | .sql statement next,scene =>
    let (answer,later) := answered meaning (fates scene.turn) statement scene
    (next answer).alone later
  | .commit next,scene =>
    let (outcome,later) := settled meaning (fates scene.turn) scene
    (next outcome).alone later
  | .rollBack next,scene => next.alone scene.rollBack
  | .ask asked next,scene =>
    let (response,later) := responded meaning told (fates scene.turn) asked scene
    (next response).alone later

section Steps

variable (scene : Scene words Key Row World)

theorem answered_cases (fate : Fate Failure) (statement : words.Statement) :
    (∃ fault, answered meaning fate statement scene = (.error fault,scene.rollBack)) ∨
      ∃ locks writes answer, meaning.execute statement (overlay scene.committed scene.writes) = .ok (locks,writes,answer) ∧
        answered meaning fate statement scene = (.ok answer,scene.write writes) := by
  cases fate with
  | lost failure => exact .inl ⟨_,rfl⟩
  | unheard failure => exact .inl ⟨_,rfl⟩
  | heard =>
    cases executed : meaning.execute statement (overlay scene.committed scene.writes) with
    | error fault => exact .inl ⟨fault,by simp only [answered,executed]⟩
    | ok outcome => exact .inr ⟨outcome.1,outcome.2.1,outcome.2.2,rfl,by simp only [answered,executed]⟩

theorem settled_cases (fate : Fate Failure) :
    settled meaning fate scene = (.ok (),scene.settle true) ∨
      (∃ fault, settled meaning fate scene = (.error fault,scene.rollBack)) ∨
      ∃ fault, settled meaning fate scene = (.error fault,scene.settle false) := by
  cases fate with
  | heard => exact .inl rfl
  | lost failure => exact .inr (.inl ⟨_,rfl⟩)
  | unheard failure => exact .inr (.inr ⟨_,rfl⟩)

omit [DecidableEq Key] in
theorem responded_cases (fate : Fate Failure) (asked : words.Request) :
    (∃ world response, meaning.respond asked scene.world = (world,response) ∧
      responded meaning told fate asked scene = (some response,scene.exchanged world ⟨asked,some response,some response⟩)) ∨
    (∃ failure, responded meaning told fate asked scene =
      (told failure,scene.exchanged scene.world ⟨asked,none,told failure⟩)) ∨
    ∃ world response failure, meaning.respond asked scene.world = (world,response) ∧
      responded meaning told fate asked scene = (told failure,scene.exchanged world ⟨asked,some response,told failure⟩) := by
  cases fate with
  | heard => exact .inl ⟨_,_,rfl,rfl⟩
  | lost failure => exact .inr (.inl ⟨failure,rfl⟩)
  | unheard failure => exact .inr (.inr ⟨_,_,failure,rfl,rfl⟩)

theorem request_alone (asked : words.Request) : (Calls.request asked).alone meaning told fates scene =
    responded meaning told (fates scene.turn) asked scene := rfl

theorem query_alone (statement : words.Statement) : (query statement).alone meaning told fates scene =
    answered meaning (fates scene.turn) statement scene := rfl

theorem single_cases (statement : words.Statement) :
    (∃ fault, (single statement).alone meaning told fates scene = (.error fault,scene.rollBack)) ∨
      ∃ locks writes answer, meaning.execute statement (overlay scene.committed scene.writes) = .ok (locks,writes,answer) ∧
        ((single statement).alone meaning told fates scene = (.ok answer,(scene.write writes).settle true) ∨
          (∃ fault, (single statement).alone meaning told fates scene = (.error fault,(scene.write writes).rollBack)) ∨
          ∃ fault, (single statement).alone meaning told fates scene = (.error fault,(scene.write writes).settle false)) := by
  simp only [single,Call.alone]
  rcases answered_cases meaning scene (fates scene.turn) statement with ⟨fault,failed⟩ | ⟨locks,writes,answer,executed,done⟩
  · left
    exact ⟨fault,by simp only [failed,Call.alone]⟩
  · right
    refine ⟨locks,writes,answer,executed,?_⟩
    rcases settled_cases meaning (scene.write writes) (fates (scene.write writes).turn) with
      kept | ⟨fault,undone⟩ | ⟨fault,unsaid⟩
    · left
      simp only [done,Call.alone,kept]
      rfl
    · right; left
      exact ⟨fault,by simp only [done,Call.alone,undone]; rfl⟩
    · right; right
      exact ⟨fault,by simp only [done,Call.alone,unsaid]; rfl⟩

end Steps

theorem alone_bind (call : Call words Result) (rest : Result → Call words Later) (scene : Scene words Key Row World) :
    (call >>= rest).alone meaning told fates scene =
      (rest (call.alone meaning told fates scene).1).alone meaning told fates (call.alone meaning told fates scene).2 := by
  change (call.bind rest).alone meaning told fates scene = _
  induction call generalizing scene with
  | done result => rfl
  | sql statement next ih => exact ih _ _
  | commit next ih => exact ih _ _
  | rollBack next ih => exact ih _
  | ask asked next ih => exact ih _ _

namespace Attempt

def Ends (attempt : Attempt words Error Result) (scene : Scene words Key Row World)
    (post : Except Error Result → Scene words Key Row World → Prop) : Prop :=
  post (attempt.run.alone meaning told fates scene).1 (attempt.run.alone meaning told fates scene).2

variable {meaning told fates} {attempt : Attempt words Error Result} {scene : Scene words Key Row World}

theorem ends_bind {rest : Result → Attempt words Error Later} {post : Except Error Later → Scene words Key Row World → Prop} :
    Ends meaning told fates (attempt >>= rest) scene post ↔ Ends meaning told fates attempt scene (fun ended later =>
      match ended with
      | .ok result => Ends meaning told fates (rest result) later post
      | .error error => post (.error error) later) := by
  unfold Ends
  change post (Call.alone meaning told fates (attempt.run >>= _) scene).1
    (Call.alone meaning told fates (attempt.run >>= _) scene).2 ↔ _
  rw [alone_bind]
  cases (attempt.run.alone meaning told fates scene).1 with
  | ok result => rfl
  | error error => rfl

theorem ends_catch {handler : Error → Attempt words Error Result}
    {post : Except Error Result → Scene words Key Row World → Prop} :
    Ends meaning told fates (tryCatch attempt handler) scene post ↔
      Ends meaning told fates attempt scene (fun ended later =>
        match ended with
        | .ok result => post (.ok result) later
        | .error error => Ends meaning told fates (handler error) later post) := by
  unfold Ends
  change post (Call.alone meaning told fates (attempt.run >>= _) scene).1
    (Call.alone meaning told fates (attempt.run >>= _) scene).2 ↔ _
  rw [alone_bind]
  cases (attempt.run.alone meaning told fates scene).1 with
  | ok result => rfl
  | error error => rfl

theorem Ends.mono {post weaker : Except Error Result → Scene words Key Row World → Prop}
    (ends : Ends meaning told fates attempt scene post) (imp : ∀ ended later, post ended later → weaker ended later) :
    Ends meaning told fates attempt scene weaker :=
  imp _ _ ends

end Attempt

end Solo

end Depsis.Foundation.Calls

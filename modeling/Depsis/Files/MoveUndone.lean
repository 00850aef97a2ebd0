import Depsis.Files.MoveSteps

/-! A move leaves the row and the bytes at one place, whichever of its requests and
transactions fail, unless one that takes effect is reported to have failed.
-/
namespace Depsis.Files

open Depsis.Foundation Depsis.Foundation.ReadCommitted Depsis.Foundation.Calls List

variable {Bytes : Type}

structure MoveRequest where
  organizationId : String
  id : String
  share : ShareRef
  parentId : Option String
  newName : Option String
  actorId : String

namespace MoveRequest

section

variable (request : MoveRequest) (rows : View)

def call : Service Bytes EntryRow :=
  move request.organizationId request.id request.share request.parentId request.newName request.actorId

def components (id : String) : List String :=
  (rows.chain request.organizationId id).1.reverse.map (fun (_,row) => row.name)

def entry : Option EntryRow := rows.entryAt request.organizationId request.id

def name : String := request.newName.getD ((request.entry rows).elim "" EntryRow.name)

def source : List String := request.components rows request.id

def target : List String :=
  match request.parentId with
  | none => [request.name rows]
  | some parentId => request.components rows parentId ++ [request.name rows]

def inPlace : Bool :=
  (request.entry rows).any (fun entry => entry.parentId = request.parentId && request.name rows = entry.name)

def asksForth : AgentRequest Bytes → Bool := asksFor request.share.name (request.source rows) (request.target rows)

def asksBack : AgentRequest Bytes → Bool := asksFor request.share.name (request.target rows) (request.source rows)

variable (fold : String → String) (uids : String → String → Option Nat) (fates : Nat → Fate Silence) (disk : Disk Bytes)

def run : Except FilesError EntryRow × ShareScene Bytes :=
  request.call.run.alone (meaning fold uids) Silence.told fates (.opening rows disk)

/-- The row and the bytes are at the destination if the call returns, at the source if it throws. -/
structure Together (ended : Except FilesError EntryRow) (after : ShareScene Bytes) : Prop where
  returns : ∀ row, ended = .ok row → request.inPlace rows = false →
    (∃ row, View.entryAt after.committed request.organizationId request.id = some row ∧
      row.parentId = request.parentId ∧ row.name = request.name rows) ∧
    (after.world.lookup (request.share.name::request.target rows)).isSome ∧
    after.world.lookup (request.share.name::request.source rows) = none ∧
    ∀ tail node, disk.lookup (request.share.name::request.source rows ++ tail) = some node →
      after.world.lookup (request.share.name::request.target rows ++ tail) = some node
  stays : ∀ row, ended = .ok row → request.inPlace rows = true → after.committed = rows ∧ after.world = disk
  throws : ∀ error, ended = .error error → after.committed = rows ∧
    (∀ tail node, disk.lookup (request.share.name::request.source rows ++ tail) = some node →
      after.world.lookup (request.share.name::request.source rows ++ tail) = some node) ∧
    ((∃ exchange ∈ after.exchanges, request.asksForth rows exchange.request = true ∧ exchange.done = some .moved) →
      (after.world.lookup (request.share.name::request.source rows)).isSome ∧
      after.world.lookup (request.share.name::request.target rows) = none)
  only : ∀ exchange ∈ after.exchanges, ∀ other origin destination, exchange.request = .moveEntry other origin destination →
    request.asksForth rows exchange.request = true ∨ request.asksBack rows exchange.request = true
  once : (after.exchanges.filter (fun exchange => request.asksForth rows exchange.request)).length ≤ 2

def Compensated (after : ShareScene Bytes) : Prop :=
  ∀ exchange ∈ after.exchanges, request.asksBack rows exchange.request = true → request.source rows ≠ request.target rows →
    exchange.done = some .moved

/-- Neither the rename nor the update of the row has taken effect while its failure was reported. -/
def Spared (after : ShareScene Bytes) : Prop :=
  (∀ exchange ∈ after.exchanges, request.asksForth rows exchange.request = true →
    exchange.done = some .moved → exchange.heard = some .moved) ∧ after.confirmed = true

end

section Verdicts

variable {fold : String → String} {uids : String → String → Option Nat} {fates : Nat → Fate Silence}
variable {scene after : ShareScene Bytes} {request : MoveRequest} {rows : View} {disk : Disk Bytes}

variable (request rows disk) in
def Judged (ended : Except FilesError EntryRow) (after : ShareScene Bytes) : Prop :=
  request.Compensated rows after → (request.Together rows disk ended after ↔ request.Spared rows after)

theorem judged_of_sound {ended : Except FilesError EntryRow} (together : request.Together rows disk ended after)
    (spared : request.Spared rows after) : request.Judged rows disk ended after :=
  fun _ => ⟨fun _ => spared,fun _ => together⟩

theorem judged_quiet (error : FilesError) (quiet : Quiet (.opening rows disk) after) :
    request.Judged rows disk (.error error) after := by
  have none' : after.exchanges = [] := quiet.exchanges
  refine judged_of_sound ⟨nofun,nofun,?_,?_,?_⟩ ⟨?_,quiet.confirmed⟩
  · intro _ _
    refine ⟨quiet.committed,?_,?_⟩
    · rw [quiet.world]
      exact fun _ _ stored => stored
    · rw [none']
      intro ⟨_,member,_⟩
      cases member
  · rw [none']
    nofun
  · rw [none']
    exact Nat.zero_le 2
  · rw [none']
    nofun

theorem judged_stays (row : EntryRow) (place : request.inPlace rows = true) (quiet : Quiet (.opening rows disk) after) :
    request.Judged rows disk (.ok row) after := by
  have none' : after.exchanges = [] := quiet.exchanges
  refine judged_of_sound ⟨?_,fun _ _ _ => ⟨quiet.committed,quiet.world⟩,nofun,?_,?_⟩ ⟨?_,quiet.confirmed⟩
  · intro _ _ elsewhere
    rw [place] at elsewhere
    cases elsewhere
  · rw [none']
    nofun
  · rw [none']
    exact Nat.zero_le 2
  · rw [none']
    nofun

theorem judged_halved (error : FilesError) {half : FilesError}
    (halved : Halved request.share.name (request.source rows) (request.target rows) (.opening rows disk) after (.error half)) :
    request.Judged rows disk (.error error) after := by
  obtain ⟨steady,asked,same,sole,half⟩ := halved
  have listed : after.exchanges = asked := same
  subst listed
  cases half with
  | left _ grown untouched =>
    refine judged_of_sound ⟨nofun,nofun,?_,?_,sole.seldom⟩
      ⟨fun exchange member asks moved => absurd ⟨exchange,member,asks,moved⟩ untouched,steady.confirmed⟩
    · exact fun _ _ => ⟨steady.committed,fun tail node stored => grown _ node stored,fun touched => absurd touched untouched⟩
    · exact fun exchange member other origin destination request => .inl (sole.only exchange member other origin destination request)
  | astray _ between renamed untold =>
    refine fun _ => ⟨fun together => ?_,fun spared => absurd spared.1 untold⟩
    -- Nothing has put the entry back.
    have touched : Touched request.share.name (request.source rows) (request.target rows) after.exchanges := by
      by_contra untouched
      exact untold (fun exchange member asks moved => absurd ⟨exchange,member,asks,moved⟩ untouched)
    have back := ((together.throws error rfl).2.2 touched).1
    rw [renamed.leaves] at back
    cases back

variable {carried placed : ShareScene Bytes}

private theorem carried_out (halved : Halved request.share.name (request.source rows) (request.target rows)
      (.opening rows disk) carried (.ok ())) :
    Steady (.opening rows disk) carried ∧
      Sole request.share.name (request.source rows) (request.target rows) 2 carried.exchanges ∧
      Told request.share.name (request.source rows) (request.target rows) carried.exchanges ∧
      ∃ between, Grown disk between ∧ Renamed between carried.world (request.share.name::request.source rows)
        (request.share.name::request.target rows) := by
  obtain ⟨steady,asked,same,sole,half⟩ := halved
  have listed : carried.exchanges = asked := same
  subst listed
  cases half with
  | carried between grown renamed told => exact ⟨steady,sole,told,between,grown,renamed⟩

theorem judged_done {row : EntryRow} (halved : Halved request.share.name (request.source rows) (request.target rows)
      (.opening rows disk) carried (.ok ()))
    (place : Placed request.organizationId request.id request.parentId (request.name rows) carried placed)
    (confirmed : placed.confirmed = carried.confirmed) (elsewhere : request.inPlace rows = false) (quiet : Quiet placed after) :
    request.Judged rows disk (.ok row) after := by
  obtain ⟨steady,sole,told,between,grown,renamed⟩ := carried_out halved
  have listed : after.exchanges = carried.exchanges := quiet.exchanges.trans place.exchanges
  have disk' : after.world = carried.world := quiet.world.trans place.world
  refine judged_of_sound ⟨?_,?_,nofun,?_,?_⟩ ⟨?_,?_⟩
  · intro _ _ _
    rw [disk',quiet.committed]
    exact ⟨place.row,renamed.arrives,renamed.leaves,fun tail node stored => renamed.carries (grown _ node stored)⟩
  · intro _ _ here
    rw [elsewhere] at here
    cases here
  · rw [listed]
    exact fun exchange member other origin destination request => .inl (sole.only exchange member other origin destination request)
  · rw [listed]
    exact sole.seldom
  · rw [listed]
    exact told
  · rw [quiet.confirmed,confirmed,steady.confirmed]
    rfl

variable {done heard : Option AgentResponse}

private theorem put_back {between : Disk Bytes}
    (renamed : Renamed between carried.world (request.share.name::request.source rows)
      (request.share.name::request.target rows))
    (undone : Asked request.share.name (request.target rows) (request.source rows) placed after done heard)
    (world : placed.world = carried.world) (compensated : request.Compensated rows after) :
    request.source rows ≠ request.target rows ∧
      Renamed carried.world after.world (request.share.name::request.target rows)
        (request.share.name::request.source rows) := by
  have apart : request.source rows ≠ request.target rows := by
    intro same
    have there := renamed.there
    rw [same,renamed.free] at there
    cases there
  have moved : done = some .moved := by
    refine compensated ⟨.moveEntry request.share.name (request.target rows) (request.source rows),done,heard⟩ ?_ ?_ apart
    · rw [undone.exchanges]
      exact mem_append_right _ mem_cons_self
    · simp [asksBack,asksFor]
  exact ⟨apart,world ▸ undone.moved moved⟩

theorem judged_undone (error : FilesError)
    (halved : Halved request.share.name (request.source rows) (request.target rows) (.opening rows disk) carried (.ok ()))
    (quiet : Quiet carried placed)
    (undone : Asked request.share.name (request.target rows) (request.source rows) placed after done heard) :
    request.Judged rows disk (.error error) after := by
  intro compensated
  obtain ⟨steady,sole,told,between,grown,renamed⟩ := carried_out halved
  obtain ⟨apart,back⟩ := put_back renamed undone quiet.world compensated
  have listed : after.exchanges = carried.exchanges ++
      [⟨.moveEntry request.share.name (request.target rows) (request.source rows),done,heard⟩] := by
    rw [undone.exchanges,quiet.exchanges]
  have other : asksFor request.share.name (request.source rows) (request.target rows)
      (.moveEntry request.share.name (request.target rows) (request.source rows) : AgentRequest Bytes) = false := by
    simp [asksFor,Ne.symm apart]
  have committed : after.committed = rows := undone.committed.trans (quiet.committed.trans steady.committed)
  refine iff_of_true ⟨by rintro _ ⟨⟩,by rintro _ ⟨⟩,?_,?_,?_⟩ ⟨?_,?_⟩
  · exact fun _ _ => ⟨committed,fun tail node stored => back.carries (renamed.carries (grown _ node stored)),
      fun _ => ⟨back.arrives,back.leaves⟩⟩
  · intro exchange member share origin destination request'
    rw [listed] at member
    rcases mem_append.mp member with earlier | last
    · exact .inl (sole.only exchange earlier share origin destination request')
    · rw [mem_singleton.mp last]
      exact .inr (by simp [asksBack,asksFor])
  · rw [listed,filter_append,length_append]
    have idle : ([⟨.moveEntry request.share.name (request.target rows) (request.source rows),done,heard⟩] :
        List (Exchange (words Bytes))).filter (fun exchange => request.asksForth rows exchange.request) = [] := by
      simp only [filter_cons,asksForth,other]
      rfl
    rw [idle]
    exact sole.seldom
  · intro exchange member asks moved
    rw [listed] at member
    rcases mem_append.mp member with earlier | last
    · exact told exchange earlier asks moved
    · rw [mem_singleton.mp last] at asks
      rw [asksForth,other] at asks
      cases asks
  · rw [undone.confirmed,quiet.confirmed,steady.confirmed]
    rfl

theorem judged_unsaid (error : FilesError)
    (place : Placed request.organizationId request.id request.parentId (request.name rows) carried placed)
    (unconfirmed : placed.confirmed = false) (elsewhere : request.inPlace rows = false)
    (undone : Asked request.share.name (request.target rows) (request.source rows) placed after done heard) :
    request.Judged rows disk (.error error) after := by
  refine fun _ => iff_of_false (fun together => ?_) (fun spared => ?_)
  · obtain ⟨row,found,parent,named⟩ := place.row
    rw [← undone.committed,(together.throws error rfl).1] at found
    have here : request.inPlace rows = true := by
      unfold inPlace entry
      rw [found]
      simp [parent,named]
    rw [here] at elsewhere
    cases elsewhere
  · have held := spared.2
    rw [undone.confirmed,unconfirmed] at held
    cases held

end Verdicts

section Steps

variable {fold : String → String} {uids : String → String → Option Nat} {fates : Nat → Fate Silence}
variable {scene : ShareScene Bytes} {request : MoveRequest} {rows : View} {organizationId id : String}

theorem reads_componentsOf (closed : scene.writes = ∅) : Reads fold uids fates (componentsOf organizationId id) scene
    (fun names => names = (View.chain scene.committed organizationId id).1.reverse.map (fun (_,row) => row.name)) := by
  have asked : Reads fold uids fates (withTenant (.componentsOf organizationId id)) scene (fun names =>
      names = (View.chain scene.committed organizationId id).1.reverse.map (fun (_,row) => row.name)) := by
    refine reads_withTenant closed rfl (fun locks writes answer ran => ?_)
    simp only [execute] at ran
    split_ifs at ran
    cases ran
    rfl
  refine reads_bind asked (fun names later quiet tells => ?_)
  refine reads_bind (reads_refuse quiet.closed) (fun _ last still _ => ?_)
  exact reads_pure still.closed tells

theorem reads_destinationComponents (closed : scene.writes = ∅) (same : scene.committed = rows) :
    Reads fold uids fates (destinationComponents request.organizationId (request.name rows) request.parentId) scene
      (fun names => names = request.target rows) := by
  unfold target
  cases request.parentId with
  | none => exact reads_pure closed rfl
  | some parentId =>
    refine reads_bind (reads_componentsOf closed) (fun names later quiet tells => ?_)
    refine reads_pure quiet.closed ?_
    rw [tells,same]
    rfl

theorem reads_destinationPath {entry : EntryRow} {parentId : Option String} (closed : scene.writes = ∅) :
    Reads fold uids fates (destinationPath organizationId id entry parentId) scene (fun _ => True) := by
  cases parentId with
  | none => exact reads_pure closed trivial
  | some parentId =>
    refine reads_bind (reads_find closed) (fun parent later quiet _ => ?_)
    refine reads_bind (reads_refuse quiet.closed) (fun _ later quiet _ => ?_)
    refine reads_bind (reads_refuse quiet.closed) (fun _ later quiet _ => ?_)
    refine reads_bind (reads_refuse quiet.closed) (fun _ later quiet _ => ?_)
    have apart : Reads fold uids fates (refuseDescendant organizationId id entry parentId) later (fun _ => True) := by
      unfold refuseDescendant
      split
      · have asked : Reads fold uids fates (withTenant (.isSelfOrDescendant organizationId parentId id)) later (fun _ => True) :=
          reads_withTenant quiet.closed rfl (fun _ _ _ _ => trivial)
        refine reads_bind asked (fun inside last quiet _ => ?_)
        exact (reads_refuse quiet.closed).mono (fun _ _ held => ⟨held.1,fun _ _ => trivial⟩)
      · exact reads_pure quiet.closed trivial
    exact reads_bind apart (fun _ last quiet _ => reads_pure quiet.closed trivial)

theorem reads_assertValidName {name : String} (closed : scene.writes = ∅) :
    Reads fold uids fates (assertValidName name) scene (fun _ => True) := by
  unfold assertValidName
  split
  · exact reads_throw closed
  · exact reads_pure closed trivial

theorem reads_requireNameFree {shareId name : String} {parentId exceptId : Option String} (closed : scene.writes = ∅) :
    Reads fold uids fates (requireNameFree organizationId shareId parentId name exceptId) scene (fun _ => True) := by
  have asked : Reads fold uids fates (withTenant (.requireNameFree organizationId shareId parentId name exceptId)) scene
      (fun _ => True) := reads_withTenant closed rfl (fun _ _ _ _ => trivial)
  refine reads_bind asked (fun free later quiet _ => ?_)
  exact (reads_refuse quiet.closed).mono (fun _ _ held => ⟨held.1,fun _ _ => trivial⟩)

theorem concludes_enqueueAclApply {shareId : String} (closed : scene.writes = ∅) :
    Concludes fold uids fates (enqueueAclApply organizationId shareId id) scene
      (fun ended later => ended = .ok () ∧ Quiet scene later) := by
  have asked : Reads fold uids fates (withTenant (.enqueueAclApply organizationId shareId id)) scene (fun _ => True) :=
    reads_withTenant closed rfl (fun _ _ _ _ => trivial)
  refine Attempt.ends_catch.mpr (asked.mono (fun ended later held => ?_))
  cases ended with
  | ok _ => exact ⟨rfl,held.1⟩
  | error error => exact ⟨rfl,held.1⟩

end Steps

/-- For every tree, entry and destination and every pattern of failures. -/
theorem move_together {fold : String → String} {uids : String → String → Option Nat} {fates : Nat → Fate Silence} (request : MoveRequest) (rows : View) (disk : Disk Bytes)
    (compensated : request.Compensated rows (request.run rows fold uids fates disk).2) :
    request.Together rows disk (request.run rows fold uids fates disk).1 (request.run rows fold uids fates disk).2 ↔
      request.Spared rows (request.run rows fold uids fates disk).2 := by
  suffices judged : Concludes fold uids fates request.call (.opening rows disk) (request.Judged rows disk) from judged compensated
  have failed (error : FilesError) (later : ShareScene Bytes) (quiet : Quiet (.opening rows disk) later) :
      request.Judged rows disk (.error error) later := judged_quiet error quiet
  refine concludes_reads (reads_find rfl) failed (fun entry later quiet found => ?_)
  have known : request.entry rows = some entry := found
  have named : request.newName.getD entry.name = request.name rows := by
    unfold name
    rw [known]
    rfl
  refine concludes_reads (reads_refuse quiet.closed) (fun error last still => failed error last (quiet.trans still))
    (fun _ last still _ => ?_)
  replace quiet := quiet.trans still
  rw [named]
  refine concludes_reads (reads_assertValidName quiet.closed) (fun error last still => failed error last (quiet.trans still))
    (fun _ last still _ => ?_)
  replace quiet := quiet.trans still
  refine concludes_reads (reads_destinationPath quiet.closed) (fun error last still => failed error last (quiet.trans still))
    (fun parentPath last still _ => ?_)
  replace quiet := quiet.trans still
  split
  next place =>
    refine judged_stays entry ?_ quiet
    unfold inPlace
    rw [known]
    simpa using place
  next elsewhere =>
    have apart : request.inPlace rows = false := by
      unfold inPlace
      rw [known]
      simpa using elsewhere
    refine concludes_reads (reads_requireNameFree quiet.closed) (fun error last still => failed error last (quiet.trans still))
      (fun _ last still _ => ?_)
    replace quiet := quiet.trans still
    refine concludes_reads (reads_componentsOf quiet.closed) (fun error last still => failed error last (quiet.trans still))
      (fun source last still sources => ?_)
    rw [quiet.committed] at sources
    replace quiet := quiet.trans still
    refine concludes_reads (reads_destinationComponents quiet.closed quiet.committed)
      (fun error last still => failed error last (quiet.trans still)) (fun target last still targets => ?_)
    replace quiet := quiet.trans still
    have origin : source = request.source rows := sources
    subst origin targets
    refine Attempt.ends_bind.mpr ((concludes_moveOrMaterialise quiet.closed).mono (fun ended carried halved => ?_))
    replace halved := Halved.delayed quiet halved
    cases ended with
    | error error => exact judged_halved error halved
    | ok _ =>
      have undo (error : FilesError) (placed : ShareScene Bytes) (closed : placed.writes = ∅)
          (judged : ∀ done heard later, Asked request.share.name (request.target rows) (request.source rows) placed later done heard →
            ∀ error, request.Judged rows disk (.error error) later) :
          Concludes fold uids fates (do
            tryCatch (moveOnDisk request.share.name (request.target rows) (request.source rows) entry.name) (fun _ => return ())
            throw (asNameConflict (request.name rows) error)) placed (request.Judged rows disk) := by
        refine Attempt.ends_bind.mpr (Attempt.ends_catch.mpr ((concludes_moveOnDisk closed).mono (fun ended later held => ?_)))
        obtain ⟨done,heard,asked,-⟩ := held
        cases ended with
        | ok _ | error _ => exact judged done heard later asked _
      refine Attempt.ends_catch.mpr (Attempt.ends_bind.mpr ((concludes_placeEntry halved.1.closed).mono (fun ended placed placement => ?_)))
      cases placement with
      | undone error still =>
        exact undo error placed still.closed (fun done heard later asked error => judged_undone error halved still asked)
      | unsaid error place unconfirmed =>
        exact undo error placed place.closed (fun done heard later asked error => judged_unsaid error place unconfirmed apart asked)
      | kept row place confirmed =>
        have done (later : ShareScene Bytes) (still : Quiet placed later) : request.Judged rows disk (.ok row) later :=
          judged_done halved place confirmed apart still
        dsimp only
        split
        next folder =>
          refine Attempt.ends_bind.mpr ((concludes_enqueueAclApply place.closed).mono (fun ended later held => ?_))
          obtain ⟨rfl,still⟩ := held
          exact done later still
        next file => exact done placed (.refl place.closed)

def storedRows : View := (∅ : View).insert (.entry "f") ⟨"o","s",none,.file,"a.txt","/a.txt",none,false⟩

def storedDisk : Disk Nat := ((∅ : Disk Nat).insert ["belgeler"] .directory).insert ["belgeler","a.txt"] (.file 7)

def renamesFile : MoveRequest := ⟨"o","f",⟨"s","belgeler"⟩,none,some "b.txt","u"⟩

def updateFails (turn : Nat) : Fate Silence := if turn = 7 then .lost .unanswered else .heard

def syncFails (turn : Nat) : Fate Silence :=
  if turn = 6 then .unheard (.failed "fsync destination directory: Input/output error (os error 5)") else .heard

def runOf (fates : Nat → Fate Silence) : Except FilesError EntryRow × ShareScene Nat :=
  renamesFile.run storedRows (fun name => name) (fun _ _ => none) fates storedDisk

theorem update_undone : renamesFile.Together storedRows storedDisk (runOf updateFails).1 (runOf updateFails).2 := by
  have compensated : renamesFile.Compensated storedRows (runOf updateFails).2 := by
    unfold Compensated
    decide +kernel
  refine (move_together renamesFile storedRows storedDisk compensated).mpr ?_
  unfold Spared
  decide +kernel

/-- The entry stays under its new name, which its row does not have. -/
theorem sync_unrepaired : ∃ fates : Nat → Fate Silence, renamesFile.Compensated storedRows (runOf fates).2 ∧
    ¬ renamesFile.Together storedRows storedDisk (runOf fates).1 (runOf fates).2 := by
  refine ⟨syncFails,?_,fun together => ?_⟩
  · unfold Compensated
    decide +kernel
  · have failed : (runOf syncFails).1 = .error (.agentRefused "fsync destination directory: Input/output error (os error 5)") := by
      decide +kernel
    have done : ∃ exchange ∈ (runOf syncFails).2.exchanges, renamesFile.asksForth storedRows exchange.request = true ∧
        exchange.done = some .moved := by decide +kernel
    have back := ((together.throws _ failed).2.2 done).1
    have gone : ((runOf syncFails).2.world.lookup (renamesFile.share.name::renamesFile.source storedRows)).isSome = false := by
      decide +kernel
    rw [gone] at back
    cases back

end MoveRequest

end Depsis.Files

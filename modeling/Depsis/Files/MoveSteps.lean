import Depsis.Files.Sessions
import Depsis.Foundation.Solo

/-! What the steps of a move leave of the rows and the disk, with nobody beside it and
any of its requests and transactions failing.
-/
namespace Depsis.Files

open Depsis.Foundation Depsis.Foundation.ReadCommitted Depsis.Foundation.Calls List Bool

/-- What the service hears of a request that failed; `failed` after the rename is what an
`fsync` of the directory leaves. -/
inductive Silence where
  | unanswered
  | refused (reason : String)
  | failed (reason : String)

def Silence.told : Silence → Option AgentResponse
  | .unanswered => none
  | .refused reason => some (.refused reason)
  | .failed reason => some (.failed reason)

abbrev ShareScene (Bytes : Type) := Scene (words Bytes) Key EntryRow (Disk Bytes)

variable {Bytes Result Later : Type}

section Solo

variable (fold : String → String) (uids : String → String → Option Nat) (fates : Nat → Fate Silence)

abbrev Concludes (call : Service Bytes Result) (scene : ShareScene Bytes)
    (post : Except FilesError Result → ShareScene Bytes → Prop) : Prop :=
  Attempt.Ends (meaning fold uids) Silence.told fates call scene post

end Solo

structure Steady (before after : ShareScene Bytes) : Prop where
  committed : after.committed = before.committed
  closed : after.writes = ∅
  confirmed : after.confirmed = before.confirmed

structure Quiet (before after : ShareScene Bytes) : Prop extends Steady before after where
  world : after.world = before.world
  exchanges : after.exchanges = before.exchanges

def Grown (before after : Disk Bytes) : Prop :=
  ∀ path node, before.lookup path = some node → after.lookup path = some node

variable {fold : String → String} {uids : String → String → Option Nat} {fates : Nat → Fate Silence}
variable {scene before middle after : ShareScene Bytes}

theorem Steady.trans (first : Steady before middle) (second : Steady middle after) : Steady before after where
  committed := second.committed.trans first.committed
  closed := second.closed
  confirmed := second.confirmed.trans first.confirmed

theorem Quiet.trans (first : Quiet before middle) (second : Quiet middle after) : Quiet before after where
  toSteady := first.toSteady.trans second.toSteady
  world := second.world.trans first.world
  exchanges := second.exchanges.trans first.exchanges

theorem Quiet.refl (closed : scene.writes = ∅) : Quiet scene scene := ⟨⟨rfl,closed,rfl⟩,rfl,rfl⟩

theorem Quiet.rollBack (scene : ShareScene Bytes) : Quiet scene scene.rollBack := ⟨⟨rfl,rfl,rfl⟩,rfl,rfl⟩

theorem Quiet.settle (closed : scene.writes = ∅) (confirmed : Bool) : Quiet scene ((scene.write []).settle confirmed) where
  committed := by
    change overlay scene.committed scene.writes = scene.committed
    rw [closed]
    rfl
  closed := rfl
  confirmed := by
    change (scene.confirmed && (confirmed || scene.writes.rows.isEmpty)) = scene.confirmed
    rw [closed]
    change (scene.confirmed && (confirmed || true)) = scene.confirmed
    rw [Bool.or_true,Bool.and_true]
  world := rfl
  exchanges := rfl

section Reads

theorem concludes_withTenant {statement : Statement}
    {post : Except FilesError statement.Answer → ShareScene Bytes → Prop}
    (failed : ∀ fault, post (.error (.database fault)) scene.rollBack)
    (ran : ∀ locks writes answer,
      execute fold uids statement (overlay scene.committed scene.writes) = .ok (locks,writes,answer) →
        post (.ok answer) ((scene.write writes).settle true) ∧
        ∀ fault, post (.error (.database fault)) (scene.write writes).rollBack ∧
          post (.error (.database fault)) ((scene.write writes).settle false)) :
    Concludes fold uids fates (withTenant statement) scene post := by
  unfold Concludes Attempt.Ends withTenant
  change post (Call.alone _ _ _ (@single (words Bytes) statement >>= _) _).1
    (Call.alone _ _ _ (@single (words Bytes) statement >>= _) _).2
  rw [alone_bind]
  rcases single_cases (meaning fold uids) Silence.told fates scene statement with
    ⟨fault,done⟩ | ⟨locks,writes,answer,executed,done | ⟨fault,done⟩ | ⟨fault,done⟩⟩
  · rw [done]
    exact failed fault
  · rw [done]
    exact (ran locks writes answer executed).1
  · rw [done]
    exact ((ran locks writes answer executed).2 fault).1
  · rw [done]
    exact ((ran locks writes answer executed).2 fault).2

variable (fold uids fates) in
abbrev Reads (call : Service Bytes Result) (scene : ShareScene Bytes) (holds : Result → Prop) : Prop :=
  Concludes fold uids fates call scene (fun ended later =>
    Quiet scene later ∧ ∀ result, ended = .ok result → holds result)

variable {call : Service Bytes Result} {holds : Result → Prop}

theorem reads_withTenant {statement : Statement} {holds : statement.Answer → Prop} (closed : scene.writes = ∅)
    (reading : reads statement = true)
    (tells : ∀ locks writes answer, execute fold uids statement scene.committed = .ok (locks,writes,answer) → holds answer) :
    Reads fold uids fates (withTenant statement) scene holds := by
  refine concludes_withTenant (fun fault => ⟨.rollBack scene,nofun⟩) (fun locks writes answer executed => ?_)
  rw [closed] at executed
  have nothing : writes = [] := reading_quiet reading executed
  subst nothing
  refine ⟨⟨.settle closed true,?_⟩,fun fault => ⟨⟨⟨⟨rfl,rfl,rfl⟩,rfl,rfl⟩,?_⟩,⟨.settle closed false,?_⟩⟩⟩
  · intro other same
    cases same
    exact tells locks [] answer executed
  · nofun
  · nofun

theorem reads_pure {result : Result} (closed : scene.writes = ∅) (tells : holds result) :
    Reads fold uids fates (pure result) scene holds := by
  refine ⟨.refl closed,fun other same => ?_⟩
  cases same
  exact tells

theorem reads_throw {error : FilesError} (closed : scene.writes = ∅) :
    Reads fold uids fates (throw error) scene holds :=
  ⟨.refl closed,nofun⟩

theorem concludes_reads {rest : Result → Service Bytes Later} {post : Except FilesError Later → ShareScene Bytes → Prop}
    (first : Reads fold uids fates call scene holds)
    (failed : ∀ error later, Quiet scene later → post (.error error) later)
    (onward : ∀ result later, Quiet scene later → holds result → Concludes fold uids fates (rest result) later post) :
    Concludes fold uids fates (call >>= rest) scene post := by
  refine Attempt.ends_bind.mpr (first.mono (fun ended later held => ?_))
  obtain ⟨quiet,tells⟩ := held
  cases ended with
  | error error => exact failed error later quiet
  | ok result => exact onward result later quiet (tells result rfl)

theorem reads_bind {rest : Result → Service Bytes Later} {last : Later → Prop}
    (first : Reads fold uids fates call scene holds)
    (onward : ∀ result later, Quiet scene later → holds result → Reads fold uids fates (rest result) later last) :
    Reads fold uids fates (call >>= rest) scene last := by
  refine concludes_reads first (fun error later quiet => ⟨quiet,nofun⟩) (fun result later quiet tells => ?_)
  exact Attempt.Ends.mono (onward result later quiet tells) (fun _ _ held => ⟨quiet.trans held.1,held.2⟩)

theorem reads_refuse {refused : Bool} {error : FilesError} (closed : scene.writes = ∅) :
    Reads fold uids fates (refuse refused error) scene (fun _ => refused = false) := by
  cases refused with
  | true => exact reads_throw closed
  | false => exact reads_pure closed rfl

theorem reads_find {organizationId id : String} (closed : scene.writes = ∅) :
    Reads fold uids fates (find organizationId id) scene
      (fun row => View.entryAt scene.committed organizationId id = some row) := by
  have asked : Reads fold uids fates (withTenant (.find organizationId id)) scene
      (fun found => found = View.entryAt scene.committed organizationId id) :=
    reads_withTenant closed rfl (fun _ _ _ ran => find_ok ran)
  refine reads_bind asked (fun found later quiet tells => ?_)
  cases found with
  | none => exact reads_throw quiet.closed
  | some row => exact reads_pure quiet.closed tells.symm

end Reads

section Renames

variable {disk later : Disk Bytes} {shareName : String} {source target : List String}

theorem openDir_none {path reached : List String} (opened : disk.openDir path = none) (below' : reached <+: path)
    (named : reached ≠ []) : disk.lookup reached = some .directory := by
  have listed : reached ∈ path.inits.tail := by
    cases path with
    | nil => exact absurd (prefix_nil.mp below') named
    | cons first rest =>
      have member : reached ∈ (first::rest).inits := (mem_inits _ _).mpr below'
      rw [inits_cons] at member
      exact (mem_cons.mp member).resolve_left named
  have found := findSome?_eq_none_iff.mp opened reached listed
  cases stored : disk.lookup reached with
  | none => rw [stored] at found; cases found
  | some node =>
    cases node with
    | directory => rfl
    | file bytes => rw [stored] at found; cases found

structure Renamed (disk later : Disk Bytes) (source target : List String) : Prop where
  there : (disk.lookup source).isSome
  free : disk.lookup target = none
  outside : source.isPrefixOf target = false
  beside : target.isPrefixOf source = false
  relocated : later = FileTree.relocate disk source target

theorem openedDir_ok {folders : List String} (opened : disk.openedDir shareName folders = .ok ()) :
    disk.openDir (shareName::folders) = none := by
  unfold Disk.openedDir at opened
  split at opened
  next => cases opened
  next => cases opened
  next =>
    split at opened
    next => cases opened
    next => cases opened
    next whole => exact whole

theorem rename_ok (renamed : disk.rename source target = .ok later) :
    (disk.lookup source).isSome ∧ disk.lookup target = none ∧ source.isPrefixOf target = false ∧
      later = FileTree.relocate disk source target := by
  unfold FileTree.rename at renamed
  split_ifs at renamed with missing taken within
  cases renamed
  exact ⟨by simpa [Option.isSome_iff_ne_none] using missing,by simpa using taken,of_not_eq_true within,rfl⟩

theorem published_ok (named : source ≠ []) (renamed : disk.published shareName source target = .ok later) :
    Renamed disk later (shareName::source) (shareName::target) := by
  unfold Disk.published at renamed
  cases opened : disk.openedDir shareName source.dropLast with
  | error error => rw [opened] at renamed; cases renamed
  | ok _ =>
    cases also : disk.openedDir shareName target.dropLast with
    | error error => rw [opened,also] at renamed; cases renamed
    | ok _ =>
      simp only [opened,also,Bind.bind,Except.bind] at renamed
      cases moved : disk.rename (shareName::source) (shareName::target) with
      | error errno => rw [moved] at renamed; cases errno <;> cases renamed
      | ok between =>
        rw [moved] at renamed
        cases renamed
        obtain ⟨there,free,outside,relocated⟩ := rename_ok moved
        refine ⟨there,free,outside,?_,relocated⟩
        -- The folders above the source were opened, so a target among them is taken.
        by_contra inside
        obtain ⟨tail,ends⟩ := isPrefixOf_iff_prefix.mp (of_not_eq_false inside)
        have folder : shareName::target <+: shareName::source.dropLast := by
          have whole : (shareName::source) = (shareName::source.dropLast) ++ [source.getLast named] := by
            rw [cons_append,dropLast_append_getLast]
          have split : shareName::target <+: (shareName::source.dropLast) ++ [source.getLast named] := by
            rw [← whole,← ends]
            exact prefix_append _ _
          rcases prefix_concat_iff.mp split with same | above
          · rw [same,← whole] at free
            rw [free] at there
            cases there
          · exact above
        rw [openDir_none (openedDir_ok opened) folder (cons_ne_nil _ _)] at free
        cases free

namespace Renamed

section

variable (renamed : Renamed disk later source target)
include renamed

theorem carries {tail : List String} {node : Node Bytes}
    (stored : disk.lookup (source ++ tail) = some node) : later.lookup (target ++ tail) = some node := by
  have self : target.isPrefixOf (target ++ tail) = true := isPrefixOf_iff_prefix.mpr (prefix_append _ _)
  rw [renamed.relocated,FileTree.lookup_relocate,if_pos self,drop_left,stored]

theorem arrives : (later.lookup target).isSome := by
  rw [renamed.relocated,FileTree.lookup_renamed renamed.there]
  exact renamed.there

theorem leaves : later.lookup source = none := by
  have self : source.isPrefixOf source = true := isPrefixOf_iff_prefix.mpr prefix_rfl
  rw [renamed.relocated,FileTree.lookup_relocate,if_neg (by simp [renamed.beside]),if_pos self]

end

end Renamed

theorem move_responds {response : AgentResponse}
    (responded : respond (.moveEntry shareName source target) disk = (later,response)) :
    (response = .moved → Renamed disk later (shareName::source) (shareName::target)) ∧
      (response ≠ .moved → later = disk) := by
  have answered := responded
  simp only [respond] at answered
  unfold Disk.moveEntry at answered
  split_ifs at answered with unnamed ours
  · cases answered
    exact ⟨nofun,fun _ => rfl⟩
  · cases answered
    exact ⟨nofun,fun _ => rfl⟩
  · cases published : disk.published shareName source target with
    | ok moved =>
      rw [published] at answered
      cases answered
      have named : source ≠ [] := fun same => unnamed (by simp [same])
      exact ⟨fun _ => published_ok named published,fun other => absurd rfl other⟩
    | error error =>
      rw [published] at answered
      cases error <;> cases answered <;> exact ⟨nofun,fun _ => rfl⟩

theorem create_responds {path : List String} {ownerUid ownerGid : Nat} {response : AgentResponse}
    (responded : respond (.createDirectory shareName path ownerUid ownerGid) disk = (later,response)) :
    Grown disk later := by
  have answered := responded
  simp only [respond] at answered
  have same : Grown disk disk := fun _ _ stored => stored
  unfold Disk.createDirectory at answered
  split_ifs at answered
  · cases answered
    exact same
  · cases answered
    exact same
  · cases answered
    exact same
  · cases opened : disk.openedDir shareName path.dropLast with
    | error error =>
      rw [opened] at answered
      cases error <;> cases answered <;> exact same
    | ok _ =>
      rw [opened] at answered
      cases made : disk.mkdir (shareName::path) with
      | error errno => rw [made] at answered; cases answered; exact same
      | ok grown =>
        rw [made] at answered
        cases answered
        unfold FileTree.mkdir at made
        split_ifs at made with taken
        cases made
        intro other node stored
        by_cases here : other = shareName::path
        · rw [← here,stored] at taken
          exact absurd rfl taken
        · rw [AList.lookup_insert_ne here]
          exact stored

end Renames

section Requests

variable {shareName name : String} {source target : List String}

theorem told_fails {failure : Silence} : failure.told ≠ some .moved ∧ ∀ reason, failure.told ≠ some (.notFound reason) := by
  cases failure with
  | unanswered | refused reason | failed reason => exact ⟨nofun,nofun⟩

theorem concludes_agentCall {asked : AgentRequest Bytes} {post : Except FilesError AgentResponse → ShareScene Bytes → Prop}
    (ended : ∀ world done heard,
      (done = none ∧ world = scene.world ∨ ∃ response, done = some response ∧ respond asked scene.world = (world,response)) →
      (heard = done ∨ ∃ failure, heard = Silence.told failure) →
      post (match heard with | some response => .ok response | none => .error .agentUnavailable)
        (scene.exchanged world ⟨asked,done,heard⟩)) :
    Concludes fold uids fates (agentCall asked) scene post := by
  unfold Concludes Attempt.Ends agentCall
  change post (Call.alone _ _ _ (@request (words Bytes) asked >>= _) _).1
    (Call.alone _ _ _ (@request (words Bytes) asked >>= _) _).2
  rw [alone_bind,request_alone]
  rcases responded_cases (meaning fold uids) Silence.told scene (fates scene.turn) asked with
    ⟨world,response,done,same⟩ | ⟨failure,same⟩ | ⟨world,response,failure,done,same⟩
  · rw [same]
    exact ended world (some response) (some response) (.inr ⟨response,rfl,done⟩) (.inl rfl)
  · rw [same]
    have held := ended scene.world none failure.told (.inl ⟨rfl,rfl⟩) (.inr ⟨failure,rfl⟩)
    cases failure <;> exact held
  · rw [same]
    have held := ended world (some response) failure.told (.inr ⟨response,rfl,done⟩) (.inr ⟨failure,rfl⟩)
    cases failure <;> exact held

/-- One request to move: the entry has moved if it was done with that response, and else the disk is as it was. -/
structure Asked (shareName : String) (source target : List String) (before after : ShareScene Bytes)
    (done heard : Option AgentResponse) : Prop extends Steady before after where
  exchanges : after.exchanges = before.exchanges ++ [⟨.moveEntry shareName source target,done,heard⟩]
  moved : done = some .moved → Renamed before.world after.world (shareName::source) (shareName::target)
  still : done ≠ some .moved → after.world = before.world
  honest : heard = some .moved → done = some .moved
  told : ∀ reason, heard = some (.notFound reason) → done = some (.notFound reason)

theorem concludes_moveOnDisk (closed : scene.writes = ∅) : Concludes fold uids fates (moveOnDisk shareName source target name)
    scene (fun ended later => ∃ done heard, Asked shareName source target scene later done heard ∧
      (∀ error, ended = .error error → heard ≠ some .moved) ∧ (ended = .ok () → heard = some .moved) ∧
      ∀ reason, ended = .error (.entryMissingOnDisk reason) → heard = some (.notFound reason)) := by
  refine Attempt.ends_bind.mpr (concludes_agentCall (fun world done heard was said => ?_))
  have asked : Asked shareName source target scene
      (scene.exchanged world ⟨.moveEntry shareName source target,done,heard⟩) done heard := by
    refine ⟨⟨rfl,closed,rfl⟩,rfl,?_,?_,?_,?_⟩
    · intro moved
      rcases was with ⟨rfl,-⟩ | ⟨response,rfl,responded⟩
      · cases moved
      · exact (move_responds responded).1 (Option.some.inj moved)
    · intro other
      rcases was with ⟨-,same⟩ | ⟨response,rfl,responded⟩
      · exact same
      · exact (move_responds responded).2 (fun same => other (congrArg some same))
    · intro moved
      rcases said with same | ⟨failure,rfl⟩
      · exact same ▸ moved
      · exact absurd moved told_fails.1
    · intro reason missing
      rcases said with same | ⟨failure,rfl⟩
      · exact same ▸ missing
      · exact absurd missing (told_fails.2 reason)
  cases heard with
  | none =>
    exact ⟨done,none,asked,nofun,nofun,nofun⟩
  | some response =>
    cases response with
    | moved => exact ⟨done,_,asked,nofun,(fun _ => rfl),nofun⟩
    | notFound reason =>
      refine ⟨done,_,asked,nofun,nofun,fun other same => ?_⟩
      cases same
      rfl
    | _ => exact ⟨done,_,asked,nofun,nofun,nofun⟩

structure Furnished (before after : ShareScene Bytes) : Prop extends Steady before after where
  exchanges : ∃ asked, after.exchanges = before.exchanges ++ asked ∧
    ∀ exchange ∈ asked, ∃ shareName path ownerUid ownerGid, exchange.request = .createDirectory shareName path ownerUid ownerGid
  grown : Grown before.world after.world

theorem Furnished.refl (closed : scene.writes = ∅) : Furnished scene scene :=
  ⟨⟨rfl,closed,rfl⟩,⟨[],(append_nil _).symm,nofun⟩,fun _ _ stored => stored⟩

theorem Furnished.trans (first : Furnished before middle) (second : Furnished middle after) : Furnished before after := by
  obtain ⟨asked,same,only⟩ := first.exchanges
  obtain ⟨more,also,others⟩ := second.exchanges
  refine ⟨first.toSteady.trans second.toSteady,⟨asked ++ more,?_,?_⟩,fun path node stored => second.grown path node (first.grown path node stored)⟩
  · rw [also,same,append_assoc]
  · intro exchange member
    rcases mem_append.mp member with earlier | later
    · exact only exchange earlier
    · exact others exchange later

theorem concludes_createEach {ownerUid : Nat} {paths : List (List String)} (closed : scene.writes = ∅) :
    Concludes fold uids fates (createEach shareName ownerUid paths) scene (fun _ later => Furnished scene later) := by
  induction paths generalizing scene with
  | nil => exact .refl closed
  | cons path rest ih =>
    refine Attempt.ends_bind.mpr (concludes_agentCall (fun world done heard was _ => ?_))
    have asked : Furnished scene (scene.exchanged world ⟨.createDirectory shareName path ownerUid ownerUid,done,heard⟩) := by
      refine ⟨⟨rfl,closed,rfl⟩,⟨_,rfl,fun exchange member => ?_⟩,?_⟩
      · rw [mem_singleton.mp member]
        exact ⟨_,_,_,_,rfl⟩
      · rcases was with ⟨-,rfl⟩ | ⟨response,-,responded⟩
        · exact fun _ _ stored => stored
        · exact create_responds responded
    have onward : Concludes fold uids fates (createEach shareName ownerUid rest)
        (scene.exchanged world ⟨.createDirectory shareName path ownerUid ownerUid,done,heard⟩)
        (fun _ later => Furnished scene later) :=
      (ih asked.closed).mono (fun _ _ held => asked.trans held)
    cases heard with
    | none => exact asked
    | some response =>
      cases response with
      | directoryCreated => exact onward
      | conflict reason => exact onward
      | _ => exact asked

theorem concludes_ensureDirectories {ownerUid : Nat} {chains : List (List String)} (closed : scene.writes = ∅) :
    Concludes fold uids fates (ensureDirectories shareName chains ownerUid) scene (fun _ later => Furnished scene later) := by
  refine Attempt.ends_bind.mpr ((concludes_createEach closed).mono (fun ended later furnished => ?_))
  cases ended with
  | error error => exact furnished
  | ok created => exact furnished

end Requests

section Halves

variable {shareName name : String} {source target : List String}

def asksFor (shareName : String) (source target : List String) : AgentRequest Bytes → Bool
  | .moveEntry other origin destination => other = shareName && origin = source && destination = target
  | _ => false

variable (shareName source target) in
def Told (exchanges : List (Exchange (words Bytes))) : Prop :=
  ∀ exchange ∈ exchanges, asksFor shareName source target exchange.request = true →
    exchange.done = some .moved → exchange.heard = some .moved

variable (shareName source target) in
def Touched (exchanges : List (Exchange (words Bytes))) : Prop :=
  ∃ exchange ∈ exchanges, asksFor shareName source target exchange.request = true ∧ exchange.done = some .moved

variable (shareName source target) in
structure Sole (times : Nat) (exchanges : List (Exchange (words Bytes))) : Prop where
  only : ∀ exchange ∈ exchanges, ∀ other origin destination, exchange.request = .moveEntry other origin destination →
    asksFor shareName source target exchange.request = true
  seldom : (exchanges.filter (fun exchange => asksFor shareName source target exchange.request)).length ≤ times

variable (shareName source target) in
/-- The disk's half of a move: the entry is carried and told so, or left, or carried unknown. -/
inductive Half (before after : Disk Bytes) (asked : List (Exchange (words Bytes))) : Except FilesError Unit → Prop where
  | carried (between : Disk Bytes) (grown : Grown before between)
      (renamed : Renamed between after (shareName::source) (shareName::target)) (told : Told shareName source target asked) :
      Half before after asked (.ok ())
  | left (error : FilesError) (grown : Grown before after) (untouched : ¬ Touched shareName source target asked) :
      Half before after asked (.error error)
  | astray (error : FilesError) (between : Disk Bytes) (renamed : Renamed between after (shareName::source) (shareName::target))
      (untold : ¬ Told shareName source target asked) : Half before after asked (.error error)

theorem sole_furnished {asked : List (Exchange (words Bytes))}
    (made : ∀ exchange ∈ asked, ∃ shareName path ownerUid ownerGid,
      exchange.request = AgentRequest.createDirectory shareName path ownerUid ownerGid) :
    Sole shareName source target 0 asked ∧ ∀ exchange ∈ asked, asksFor shareName source target exchange.request = false := by
  have never : ∀ exchange ∈ asked, asksFor shareName source target exchange.request = false := by
    intro exchange member
    obtain ⟨_,_,_,_,request⟩ := made exchange member
    rw [request]
    rfl
  refine ⟨⟨fun exchange member other origin destination request => ?_,?_⟩,never⟩
  · obtain ⟨_,_,_,_,created⟩ := made exchange member
    rw [created] at request
    cases request
  · rw [filter_eq_nil_iff.mpr (fun exchange member => by simp [never exchange member])]
    exact Nat.le_refl 0

theorem Sole.append {few more : Nat} {first second : List (Exchange (words Bytes))} (left : Sole shareName source target few first)
    (right : Sole shareName source target more second) : Sole shareName source target (few + more) (first ++ second) where
  only := by
    intro exchange member
    rcases mem_append.mp member with earlier | later
    · exact left.only exchange earlier
    · exact right.only exchange later
  seldom := by
    rw [filter_append,length_append]
    exact Nat.add_le_add left.seldom right.seldom

theorem sole_once {done heard : Option AgentResponse} :
    @Sole Bytes shareName source target 1 [⟨.moveEntry shareName source target,done,heard⟩] where
  only := by
    intro exchange member other origin destination _
    rw [mem_singleton.mp member]
    simp [asksFor]
  seldom := length_filter_le _ _

variable (shareName source target) in
def Halved (before after : ShareScene Bytes) (ended : Except FilesError Unit) : Prop :=
  Steady before after ∧ ∃ asked, after.exchanges = before.exchanges ++ asked ∧ Sole shareName source target 2 asked ∧
    Half shareName source target before.world after.world asked ended

variable (shareName source target) in
def Preparing (times : Nat) (before after : ShareScene Bytes) : Prop :=
  Steady before after ∧ Grown before.world after.world ∧ ∃ asked, after.exchanges = before.exchanges ++ asked ∧
    Sole shareName source target times asked ∧ ¬ Touched shareName source target asked

theorem Sole.mono {few more : Nat} {asked : List (Exchange (words Bytes))} (sole : Sole shareName source target few asked)
    (less : few ≤ more) : Sole shareName source target more asked := ⟨sole.only,Nat.le_trans sole.seldom less⟩

namespace Preparing

theorem opening (closed : scene.writes = ∅) : Preparing shareName source target 0 scene scene := by
  refine ⟨⟨rfl,closed,rfl⟩,fun _ _ stored => stored,[],(append_nil _).symm,⟨nofun,Nat.le_refl 0⟩,?_⟩
  intro ⟨_,member,_⟩
  cases member

theorem quiet {times : Nat} (preparing : Preparing shareName source target times before middle) (quiet : Quiet middle after) :
    Preparing shareName source target times before after := by
  obtain ⟨steady,grown,asked,same,sole,untouched⟩ := preparing
  exact ⟨steady.trans quiet.toSteady,quiet.world ▸ grown,asked,quiet.exchanges.trans same,sole,untouched⟩

theorem furnished {times : Nat} (preparing : Preparing shareName source target times before middle)
    (furnished : Furnished middle after) : Preparing shareName source target times before after := by
  obtain ⟨steady,grown,asked,same,sole,untouched⟩ := preparing
  obtain ⟨made,also,creations⟩ := furnished.exchanges
  obtain ⟨idle,never⟩ := sole_furnished creations
  refine ⟨steady.trans furnished.toSteady,fun path node stored => furnished.grown path node (grown path node stored),
    asked ++ made,?_,sole.append idle,?_⟩
  · rw [also,same,append_assoc]
  · intro ⟨exchange,member,asks,moved⟩
    rcases mem_append.mp member with earlier | later
    · exact untouched ⟨exchange,earlier,asks,moved⟩
    · rw [never exchange later] at asks
      cases asks

theorem halved {times : Nat} (preparing : Preparing shareName source target times before after) (less : times ≤ 2)
    (error : FilesError) : Halved shareName source target before after (.error error) := by
  obtain ⟨steady,grown,asked,same,sole,untouched⟩ := preparing
  exact ⟨steady,asked,same,sole.mono less,.left error grown untouched⟩

theorem asks {times : Nat} {done heard : Option AgentResponse} (preparing : Preparing shareName source target times before middle)
    (less : times ≤ 1) (asked : Asked shareName source target middle after done heard) :
    (heard = some .moved → Halved shareName source target before after (.ok ())) ∧
      (heard ≠ some .moved → ∀ error, Halved shareName source target before after (.error error)) ∧
      (done ≠ some .moved → Preparing shareName source target (times + 1) before after) := by
  obtain ⟨steady,grown,earlier,same,sole,untouched⟩ := preparing
  have whole : after.exchanges = before.exchanges ++ (earlier ++ [⟨.moveEntry shareName source target,done,heard⟩]) := by
    rw [asked.exchanges,same,append_assoc]
  have soles := sole.append (@sole_once Bytes shareName source target done heard)
  have still (other : done ≠ some .moved) : ¬ @Touched Bytes shareName source target
      (earlier ++ [⟨.moveEntry shareName source target,done,heard⟩]) := by
    intro ⟨exchange,member,asks,moved⟩
    rcases mem_append.mp member with before' | last
    · exact untouched ⟨exchange,before',asks,moved⟩
    · rw [mem_singleton.mp last] at moved
      exact other moved
  refine ⟨fun moved => ?_,fun failed error => ?_,fun other => ?_⟩
  · refine ⟨steady.trans asked.toSteady,_,whole,soles.mono (by omega),.carried middle.world grown (asked.moved (asked.honest moved)) ?_⟩
    intro exchange member asks done'
    rcases mem_append.mp member with before' | last
    · exact absurd ⟨exchange,before',asks,done'⟩ untouched
    · rw [mem_singleton.mp last]
      exact moved
  · refine ⟨steady.trans asked.toSteady,_,whole,soles.mono (by omega),?_⟩
    by_cases moved : done = some .moved
    · refine .astray error middle.world (asked.moved moved) (fun told => failed ?_)
      exact told ⟨.moveEntry shareName source target,done,heard⟩ (by simp) (by simp [asksFor]) moved
    · refine .left error ?_ (still moved)
      rw [asked.still moved]
      exact grown
  · refine ⟨steady.trans asked.toSteady,?_,_,whole,soles,still other⟩
    rw [asked.still other]
    exact grown

end Preparing

theorem Halved.quiet {error : FilesError} (halved : Halved shareName source target before middle (.error error))
    (quiet : Quiet middle after) (later : FilesError) : Halved shareName source target before after (.error later) := by
  obtain ⟨steady,asked,same,sole,half⟩ := halved
  refine ⟨steady.trans quiet.toSteady,asked,quiet.exchanges.trans same,sole,?_⟩
  rw [quiet.world]
  cases half with
  | left _ grown untouched => exact .left later grown untouched
  | astray _ between renamed untold => exact .astray later between renamed untold

theorem Halved.delayed {ended : Except FilesError Unit} (quiet : Quiet before middle)
    (halved : Halved shareName source target middle after ended) : Halved shareName source target before after ended := by
  obtain ⟨steady,asked,same,sole,half⟩ := halved
  rw [quiet.world] at half
  exact ⟨quiet.toSteady.trans steady,asked,quiet.exchanges ▸ same,sole,half⟩

end Halves

section Carrying

variable {organizationId shareId name : String} {parentId : Option String} {shareName : String} {source target : List String}

theorem concludes_upgradeTrashedConflict {error : FilesError} (closed : scene.writes = ∅) :
    Concludes fold uids fates (upgradeTrashedConflict organizationId shareId parentId name error : Service Bytes Result)
      scene (fun ended later => Quiet scene later ∧ ∃ error, ended = .error error) := by
  have asked : Reads fold uids fates (trashedEntryHolding organizationId shareId parentId name) scene (fun _ => True) :=
    reads_withTenant closed rfl (fun _ _ _ _ => trivial)
  refine concludes_reads asked (fun error later quiet => ⟨quiet,error,rfl⟩) (fun holding later quiet _ => ?_)
  cases holding with
  | none => exact ⟨quiet,error,rfl⟩
  | some trashed => exact ⟨quiet,_,rfl⟩

theorem concludes_moveOrMaterialise {share : ShareRef} {entry : EntryRow} {actorId : String} (closed : scene.writes = ∅) :
    Concludes fold uids fates (moveOrMaterialise organizationId share entry parentId name actorId source target) scene
      (fun ended later => Halved share.name source target scene later ended) := by
  have upgraded {middle : ShareScene Bytes} {error : FilesError}
      (halved : Halved share.name source target scene middle (.error error)) :
      Concludes fold uids fates (upgradeTrashedConflict organizationId entry.shareId parentId name error) middle
        (fun ended later => Halved share.name source target scene later ended) := by
    refine (concludes_upgradeTrashedConflict halved.1.closed).mono (fun ended later held => ?_)
    obtain ⟨quiet,error,rfl⟩ := held
    exact halved.quiet quiet error
  refine Attempt.ends_catch.mpr ((concludes_moveOnDisk closed).mono (fun ended middle held => ?_))
  obtain ⟨done,heard,asked,failed,succeeded,missing⟩ := held
  obtain ⟨whole,halved,again⟩ := (Preparing.opening closed).asks (Nat.zero_le 1) asked
  cases ended with
  | ok _ => exact whole (succeeded rfl)
  | error error =>
    have first := halved (failed error rfl)
    cases error with
    | nameTaken taken => exact upgraded (first _)
    | entryMissingOnDisk reason =>
      -- The rename was refused for a path that is not there: the second attempt is the last.
      have other : done ≠ some .moved := by
        rw [asked.told reason (missing reason rfl)]
        nofun
      have preparing := again other
      refine concludes_reads (reads_refuse preparing.1.closed)
        (fun error later quiet => (preparing.quiet quiet).halved (by omega) error) (fun _ later quiet _ => ?_)
      replace preparing := preparing.quiet quiet
      have uid : Reads fold uids fates (withTenant (.posixUidFor organizationId actorId)) later (fun _ => True) :=
        reads_withTenant preparing.1.closed rfl (fun _ _ _ _ => trivial)
      refine concludes_reads uid (fun error last quiet => (preparing.quiet quiet).halved (by omega) error)
        (fun ownerUid last quiet _ => ?_)
      replace preparing := preparing.quiet quiet
      refine Attempt.ends_bind.mpr ((concludes_ensureDirectories preparing.1.closed).mono (fun made later furnished => ?_))
      replace preparing := preparing.furnished furnished
      cases made with
      | error error => exact preparing.halved (by omega) error
      | ok materialised =>
        refine concludes_reads (reads_refuse preparing.1.closed)
          (fun error later quiet => (preparing.quiet quiet).halved (by omega) error) (fun _ later quiet _ => ?_)
        replace preparing := preparing.quiet quiet
        refine Attempt.ends_catch.mpr ((concludes_moveOnDisk preparing.1.closed).mono (fun ended final held => ?_))
        obtain ⟨done,heard,asked,failed,succeeded,-⟩ := held
        obtain ⟨whole,halved,-⟩ := preparing.asks (Nat.le_refl 1) asked
        cases ended with
        | ok _ => exact whole (succeeded rfl)
        | error retryError =>
          have second := halved (failed retryError rfl)
          cases retryError with
          | nameTaken taken => exact upgraded (second _)
          | _ => exact second _
    | _ => exact first _

end Carrying

section Placing

variable {organizationId id name path : String} {parentId : Option String}

structure Placed (organizationId id : String) (parentId : Option String) (name : String) (before after : ShareScene Bytes) :
    Prop where
  closed : after.writes = ∅
  world : after.world = before.world
  exchanges : after.exchanges = before.exchanges
  row : ∃ row, View.entryAt after.committed organizationId id = some row ∧ row.parentId = parentId ∧ row.name = name

theorem stalePaths_apart {rootId other stale : String} {levels : List (List (String × EntryRow × String))}
    (listed : (other,stale) ∈ stalePaths rootId levels) : other ≠ rootId := by
  obtain ⟨node,_,kept⟩ := mem_filterMap.mp listed
  obtain ⟨differs,same⟩ := Option.ite_none_right_eq_some.mp kept
  cases same
  exact differs.1

theorem lookup_placed {writes : Table Key (Option EntryRow)} {row : EntryRow} {rewritten : List (Key × Option EntryRow)}
    (apart : ∀ value, (Key.entry id,value) ∉ rewritten) :
    (((writes.fill [(.entry id,some row)]).fill []).fill rewritten).lookup (.entry id) = some (some row) := by
  rw [AList.lookup_fill_of_notMem]
  · exact AList.lookup_insert _
  · intro member
    obtain ⟨⟨key,value⟩,listed,same⟩ := mem_map.mp member
    cases same
    exact apart value listed

theorem placed_settle {row : EntryRow} {rewritten : List (Key × Option EntryRow)}
    (found : View.entryAt scene.committed organizationId id = some row) (apart : ∀ value, (Key.entry id,value) ∉ rewritten)
    (confirmed : Bool) {final : ShareScene Bytes}
    (same : final = ((scene.write [(.entry id,some {row with parentId := parentId, name := name, path := path})]).write []).write
      rewritten) :
    Placed organizationId id parentId name scene (final.settle confirmed) ∧
      (final.settle confirmed).confirmed = (scene.confirmed && confirmed) := by
  have written : final.writes.lookup (.entry id) =
      some (some {row with parentId := parentId, name := name, path := path}) := by
    rw [same]
    exact lookup_placed apart
  obtain ⟨stored,owned⟩ := entryAt_some.mp found
  refine ⟨⟨rfl,by rw [same]; rfl,by rw [same]; rfl,{row with parentId := parentId, name := name, path := path},?_,rfl,rfl⟩,?_⟩
  · exact entryAt_some.mpr ⟨lookup_overlay_some written,owned⟩
  · have some' : final.writes.rows.isEmpty = false := by
      cases listed : final.writes.rows with
      | nil =>
        have member := AList.mem_rows.mpr written
        rw [listed] at member
        cases member
      | cons _ _ => rfl
    change (final.confirmed && (confirmed || final.writes.rows.isEmpty)) = _
    rw [some',Bool.or_false,same]
    rfl

inductive Placement (organizationId id : String) (parentId : Option String) (name : String)
    (before after : ShareScene Bytes) : Except FilesError EntryRow → Prop where
  | kept (row : EntryRow) (placed : Placed organizationId id parentId name before after)
      (confirmed : after.confirmed = before.confirmed) : Placement organizationId id parentId name before after (.ok row)
  | undone (error : FilesError) (quiet : Quiet before after) :
      Placement organizationId id parentId name before after (.error error)
  | unsaid (error : FilesError) (placed : Placed organizationId id parentId name before after)
      (unconfirmed : after.confirmed = false) : Placement organizationId id parentId name before after (.error error)

theorem concludes_placeEntry (closed : scene.writes = ∅) :
    Concludes fold uids fates (placeEntry organizationId id parentId name path) scene
      (fun ended later => Placement organizationId id parentId name scene later ended) := by
  unfold Concludes Attempt.Ends placeEntry
  change Placement _ _ _ _ _
    (Call.alone _ _ _ (@query (words Bytes) (.updatePlace organizationId id parentId name path) >>= _) _).2
    (Call.alone _ _ _ (@query (words Bytes) (.updatePlace organizationId id parentId name path) >>= _) _).1
  rw [alone_bind,query_alone]
  rcases answered_cases (meaning fold uids) scene (fates scene.turn) (.updatePlace organizationId id parentId name path) with
    ⟨fault,failed⟩ | ⟨locks,writes,answer,updated,ran⟩
  · rw [failed]
    exact .undone _ (.rollBack scene)
  · rw [ran]
    have first : execute fold uids (.updatePlace organizationId id parentId name path) scene.committed =
        .ok (locks,writes,answer) := by
      rw [closed] at updated
      exact updated
    rcases place_ok first with ⟨rfl,rfl⟩ | ⟨row,found,rfl,rfl⟩
    · exact .undone _ ⟨⟨rfl,rfl,rfl⟩,rfl,rfl⟩
    · change Placement _ _ _ _ _
        (Call.alone _ _ _ (@query (words Bytes) (.subtreePaths organizationId id) >>= _) _).2
        (Call.alone _ _ _ (@query (words Bytes) (.subtreePaths organizationId id) >>= _) _).1
      rw [alone_bind,query_alone]
      generalize started : scene.write [(Key.entry id,some {row with parentId := parentId, name := name, path := path})] = opened
      rcases answered_cases (meaning fold uids) opened (fates opened.turn) (.subtreePaths organizationId id) with
        ⟨fault,failed⟩ | ⟨surveyLocks,none',paths,surveyed,asked⟩
      · rw [failed,← started]
        exact .undone _ ⟨⟨rfl,rfl,rfl⟩,rfl,rfl⟩
      · rw [asked]
        have second : execute fold uids (.subtreePaths organizationId id) (overlay opened.committed opened.writes) =
          .ok (surveyLocks,none',paths) := surveyed
        obtain ⟨rfl,levels,-,stale⟩ := survey_ok second
        change Placement _ _ _ _ _
          (Call.alone _ _ _ (@query (words Bytes) (.writePaths organizationId paths) >>= _) _).2
          (Call.alone _ _ _ (@query (words Bytes) (.writePaths organizationId paths) >>= _) _).1
        rw [alone_bind,query_alone]
        rcases answered_cases (meaning fold uids) (opened.write []) (fates (opened.write []).turn)
          (.writePaths organizationId paths) with ⟨fault,failed⟩ | ⟨writeLocks,rewritten,⟨⟩,rewrote,wrote⟩
        · rw [failed,← started]
          exact .undone _ ⟨⟨rfl,rfl,rfl⟩,rfl,rfl⟩
        · rw [wrote]
          have third : execute fold uids (.writePaths organizationId paths)
            (overlay (opened.write []).committed (opened.write []).writes) = .ok (writeLocks,rewritten,()) := rewrote
          have apart (value : Option EntryRow) : (Key.entry id,value) ∉ rewritten := by
            intro listed
            obtain ⟨other,stalePath,old,member,-,-,same,-⟩ := (rewrite_ok third _ value).mp listed
            cases same
            rw [stale] at member
            exact stalePaths_apart member rfl
          generalize reached : (opened.write []).write rewritten = final
          have same : final = ((scene.write [(Key.entry id,some {row with parentId := parentId, name := name, path := path})]).write
              []).write rewritten := by
            rw [← reached,← started]
          obtain ⟨placed,confirmed⟩ := placed_settle found apart true same
          obtain ⟨also,unconfirmed⟩ := placed_settle found apart false same
          rw [Bool.and_true] at confirmed
          rw [Bool.and_false] at unconfirmed
          rcases settled_cases (meaning fold uids) final (fates final.turn) with ended | ⟨fault,ended⟩ | ⟨fault,ended⟩
          · simp only [Call.alone,ended]
            exact .kept _ placed confirmed
          · simp only [Call.alone,ended]
            refine .undone _ ⟨⟨?_,rfl,?_⟩,?_,?_⟩ <;> rw [same] <;> rfl
          · simp only [Call.alone,ended]
            exact .unsaid _ also unconfirmed

end Placing

end Depsis.Files

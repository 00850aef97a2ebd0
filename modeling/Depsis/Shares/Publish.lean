import Depsis.Foundation.Faults
import Depsis.Shares.Samba

/-! Publishing the generated file: written beside the old one, validated, proved with a
live listing, and otherwise put back.
-/
namespace Depsis.Shares

open Depsis.Foundation.Faults

structure ConfigPath where
  display : String
  fileName : Option String
  parent : Option String

/-- The configuration file, the backup and the temporary file beside it, and the shares
whose sessions were closed.
-/
structure Files where
  config : Option String
  saved : Option String
  fresh : Option String
  closed : List (List String)

structure IoError where
  notFound : Bool
  text : String

/-- How an operation fails: in what words, what it leaves in the file it was writing, and
whether what it was asked for has happened nevertheless.
-/
structure Damage where
  text : String
  left : Option String
  took : Bool

abbrev FileStep (ε α : Type) := Attempt Damage Files ε α

def missingFile : IoError := ⟨true,"No such file or directory (os error 2)"⟩

def fails (damage : Damage) : IoError := ⟨false,damage.text⟩

def touch : FileStep IoError Unit := operation (fun files => .ok ((),files)) (fun damage files => (fails damage,files))

def copyAside : FileStep IoError Unit :=
  operation
    (fun files => match files.config with
      | none => .error missingFile
      | some content => .ok ((),{files with saved := some content}))
    (fun damage files => (fails damage,{files with saved := damage.left}))

def createFresh : FileStep IoError Unit :=
  operation (fun files => .ok ((),{files with fresh := some ""}))
    (fun damage files => (fails damage,{files with fresh := damage.left}))

def writeFresh (text : String) : FileStep IoError Unit :=
  operation (fun files => .ok ((),{files with fresh := some text}))
    (fun damage files => (fails damage,{files with fresh := damage.left}))

def Files.install (files : Files) : Files := {files with config := files.fresh, fresh := none}

def Files.putBack (files : Files) : Files := {files with config := files.saved, saved := none}

def renameFresh : FileStep IoError Unit :=
  operation (fun files => if files.fresh.isSome then .ok ((),files.install) else .error missingFile)
    (fun damage files => (fails damage,if damage.took && files.fresh.isSome then files.install else files))

def renameSaved : FileStep IoError Unit :=
  operation (fun files => if files.saved.isSome then .ok ((),files.putBack) else .error missingFile)
    (fun damage files => (fails damage,if damage.took && files.saved.isSome then files.putBack else files))

def removeConfig : FileStep IoError Unit :=
  operation (fun files => if files.config.isSome then .ok ((),{files with config := none}) else .error missingFile)
    (fun damage files => (fails damage,if damage.took then {files with config := none} else files))

def removeSaved : FileStep IoError Unit :=
  operation (fun files => if files.saved.isSome then .ok ((),{files with saved := none}) else .error missingFile)
    (fun damage files => (fails damage,if damage.took then {files with saved := none} else files))

inductive Previous where
  | absent
  | saved (backup : String)

structure PublishOutcome where
  shares : Nat
  verified : Bool

def ConfigPath.directory (path : ConfigPath) (otherwise : String) : Except SambaError String :=
  match path.parent with
  | some dir => .ok dir
  | none => .error (.io (path.display ++ otherwise))

def sibling (path : ConfigPath) (suffix : String) : Except SambaError String :=
  match path.fileName with
  | none => .error (.io (path.display ++ " does not name a file"))
  | some name => do
    let dir ← path.directory " has no parent directory"
    return dir ++ "/" ++ name ++ suffix

def reported (words : String) (step : FileStep IoError Unit) : FileStep SambaError Unit :=
  named (fun e => .io (words ++ ": " ++ e.text)) step

def syncParent (path : ConfigPath) : FileStep SambaError Unit := do
  let dir ← fromExcept (path.directory " has no parent")
  reported ("open " ++ dir ++ " for fsync") touch
  reported ("fsync " ++ dir) touch

def take (path : ConfigPath) : FileStep SambaError Previous := do
  let backup ← fromExcept (sibling path ".prev")
  match ← caught copyAside with
  | .ok () =>
    reported "reopen backup" touch
    reported "fsync backup" touch
    return .saved backup
  | .error e =>
    if e.notFound then return .absent
    else fromExcept (.error (.io ("copy " ++ path.display ++ " aside: " ++ e.text)))

def discard : Previous → FileStep SambaError Unit
  | .absent => pure ()
  | .saved _ => do
    let _ ← caught removeSaved

def restore (path : ConfigPath) : Previous → FileStep SambaError Unit
  | .absent => do
    match ← caught removeConfig with
    | .ok () => syncParent path
    | .error e =>
      if e.notFound then return ()
      else fromExcept (.error (.io ("remove " ++ path.display ++ ": " ++ e.text)))
  | .saved backup => do
    reported ("rename " ++ backup ++ " back to " ++ path.display) renameSaved
    syncParent path

def writeAtomically (path : ConfigPath) (text : String) : FileStep SambaError Unit := do
  let temp ← fromExcept (sibling path ".new")
  reported ("create " ++ temp) createFresh
  reported ("write " ++ temp) (writeFresh text)
  reported ("fsync " ++ temp) touch
  reported ("rename " ++ temp ++ " to " ++ path.display) renameFresh
  syncParent path

def rolledBack {α : Type} (previous : Previous) (path : ConfigPath) (rejection : String) : FileStep SambaError α := do
  match ← caught (restore path previous) with
  | .ok () => fromExcept (.error (.rejectedRolledBack rejection))
  | .error failure => fromExcept (.error (.rollbackFailed path.display rejection failure.message))

def asking {α : Type} (question : Option String → Except SambaError α) : FileStep SambaError α :=
  observe (fun files => question files.config)

def closeSessions (names : List String) : FileStep SambaError Unit := fun world =>
  (.ok (),{world with store := {world.store with closed := world.store.closed ++ [names]}})

def missingShares (sections : List Section) (offered : List String) : List String :=
  (sections.map Section.name).filter (fun name => !offered.any (fun seen => eqIgnoreAsciiCase seen name))

def notOffered (path : ConfigPath) (missing : List String) : String :=
  "smbd does not offer " ++ ", ".intercalate missing ++ "; check that smb.conf contains `include = " ++
    path.display ++ "`"

def publish (path : ConfigPath) (shares : List ShareSpec) (host : SambaHost) : FileStep SambaError PublishOutcome := do
  fromExcept host.ensureInstalled
  let sections ← fromExcept (plan host shares)
  let previous ← take path
  orElse (writeAtomically path (render sections)) (fun e => rolledBack previous path e.message)
  orElse (asking host.validate) (fun e => rolledBack previous path e.message)
  let offered ← orElse (asking host.offeredShares) (fun e => rolledBack previous path e.message)
  let missing := missingShares sections offered
  if missing ≠ [] then rolledBack previous path (notOffered path missing)
  else
    discard previous
    closeSessions (sections.map Section.name)
    return ⟨sections.length,true⟩

def SambaError.isRollbackFailed : SambaError → Bool
  | .rollbackFailed _ _ _ => true
  | _ => false

def Held (before : Option String) (previous : Previous) (files : Files) : Prop :=
  match previous with
  | .absent => before = none
  | .saved _ => before.isSome ∧ files.saved = before

theorem touch_keeps (held : Files → Prop) : Keeps held touch :=
  Keeps.operation (fun _ _ _ holds worked => by cases worked; exact holds) (fun _ _ holds => holds)

theorem reported_keeps {held : Files → Prop} {words : String} {step : FileStep IoError Unit} (kept : Keeps held step) :
    Keeps held (reported words step) := Keeps.named kept

theorem syncParent_keeps (held : Files → Prop) (path : ConfigPath) : Keeps held (syncParent path) :=
  (Keeps.fromExcept _).bind (fun _ => (reported_keeps (touch_keeps held)).bind (fun _ => reported_keeps (touch_keeps held)))

variable {after world : World Damage Files} {path : ConfigPath}

theorem syncParent_store {answer : Except SambaError Unit}
    (run : syncParent path world = (answer,after)) : after.store = world.store :=
  syncParent_keeps (fun files => files = world.store) path world answer after run rfl

theorem copyAside_spec {answer : Except IoError Unit}
    (run : copyAside world = (answer,after)) : after.store.config = world.store.config ∧
      (answer = .ok () → Held world.store.config (.saved "") after.store) ∧
        ∀ e, answer = .error e → e.notFound = true → world.store.config = none := by
  rcases operation_cases run with ⟨_,rfl,worked⟩ | ⟨e,rfl,refused,same⟩ | ⟨damage,rfl,left⟩
  · split at worked
    next => cases worked
    next content held =>
      injection worked with pair
      obtain ⟨_,written⟩ := Prod.mk.inj pair
      rw [← written]
      refine ⟨rfl,fun _ => ⟨?_,held.symm⟩,nofun⟩
      rw [held]
      rfl
  · rw [same]
    refine ⟨rfl,nofun,fun found _ _ => ?_⟩
    split at refused
    next absent => exact absent
    next => cases refused
  · rw [left]
    refine ⟨rfl,nofun,fun e failed absent => ?_⟩
    cases failed
    cases absent

theorem take_spec {answer : Except SambaError Previous}
    (run : take path world = (answer,after)) : after.store.config = world.store.config ∧
      ∀ previous, answer = .ok previous → Held world.store.config previous after.store := by
  rcases bind_cases run with ⟨e,rfl,ran⟩ | ⟨backup,middle,ran,rest⟩
  · rw [(fromExcept_run ran).2]
    exact ⟨rfl,nofun⟩
  obtain ⟨_,rfl⟩ := fromExcept_run ran
  rcases bind_cases rest with ⟨e,_,caughtRun⟩ | ⟨copied,later,caughtRun,rest⟩
  · obtain ⟨_,wrong,_⟩ := caught_run caughtRun
    cases wrong
  obtain ⟨found,same,copying⟩ := caught_run caughtRun
  cases same
  obtain ⟨config,saved,absent⟩ := copyAside_spec copying
  cases copied with
  | ok =>
    have kept : Keeps (fun files => files = later.store) (do
        reported "reopen backup" touch
        reported "fsync backup" touch
        return Previous.saved backup) :=
      (reported_keeps (touch_keeps _)).bind (fun _ => (reported_keeps (touch_keeps _)).bind (fun _ => Keeps.pure _))
    have unchanged := kept later answer after rest rfl
    rw [unchanged]
    refine ⟨config,fun previous done => ?_⟩
    subst answer
    rcases bind_cases rest with ⟨_,wrong,_⟩ | ⟨_,_,_,rest⟩
    · cases wrong
    rcases bind_cases rest with ⟨_,wrong,_⟩ | ⟨_,_,_,rest⟩
    · cases wrong
    injection (pure_run rest).1 with shape
    rw [shape]
    exact saved rfl
  | error e =>
    change (if e.notFound then _ else _ : FileStep SambaError Previous) later = _ at rest
    split at rest
    next missing =>
      obtain ⟨rfl,rfl⟩ := pure_run rest
      refine ⟨config,fun previous done => ?_⟩
      injection done with shape
      rw [← shape]
      exact absent e rfl missing
    next =>
      obtain ⟨rfl,rfl⟩ := fromExcept_run rest
      exact ⟨config,nofun⟩

theorem writeAtomically_keeps (before : Option String) (previous : Previous) (path : ConfigPath) (text : String) :
    Keeps (Held before previous) (writeAtomically path text) := by
  have saves : ∀ files later : Files, later.saved = files.saved → Held before previous files → Held before previous later :=
    fun files later same held => by
      cases previous with
      | absent => exact held
      | saved => exact ⟨held.1,same.trans held.2⟩
  refine (Keeps.fromExcept _).bind (fun temp => ?_)
  refine (reported_keeps (Keeps.operation (fun files _ _ held worked => ?_) (fun files damage held => ?_))).bind (fun _ => ?_)
  · cases worked
    exact saves files _ rfl held
  · exact saves files _ rfl held
  refine (reported_keeps (Keeps.operation (fun files _ _ held worked => ?_) (fun files damage held => ?_))).bind (fun _ => ?_)
  · cases worked
    exact saves files _ rfl held
  · exact saves files _ rfl held
  refine (reported_keeps (touch_keeps _)).bind (fun _ => ?_)
  refine (reported_keeps (Keeps.operation (fun files _ _ held worked => ?_) (fun files damage held => ?_))).bind
    (fun _ => syncParent_keeps _ path)
  · split at worked
    next =>
      cases worked
      exact saves files _ rfl held
    next => cases worked
  · refine saves files _ ?_ held
    change (if _ then _ else _ : Files).saved = _
    split <;> rfl

theorem reported_ok {words : String} {step : FileStep IoError Unit}
    (run : reported words step world = (.ok (),after)) : step world = (.ok (),after) := by
  rcases named_cases run with ⟨_,_,ran⟩ | ⟨_,wrong,_⟩
  · exact ran
  · cases wrong

theorem writeAtomically_ok {text : String}
    (run : writeAtomically path text world = (.ok (),after)) : after.store.config = some text := by
  obtain ⟨temp,_,_,run⟩ := bind_ok run
  obtain ⟨_,_,_,run⟩ := bind_ok run
  obtain ⟨_,written,writing,run⟩ := bind_ok run
  obtain ⟨_,synced,syncing,run⟩ := bind_ok run
  obtain ⟨_,_,moving,run⟩ := bind_ok run
  have wrote := operation_ok (reported_ok writing)
  have unchanged := reported_keeps (touch_keeps (fun files => files = written.store)) _ _ _ syncing rfl
  have renamed := operation_ok (reported_ok moving)
  rw [syncParent_store run]
  split at renamed
  next =>
    injection renamed with pair
    injection wrote with content
    rw [← (Prod.mk.inj pair).2,unchanged,← (Prod.mk.inj content).2]
    rfl
  next => cases renamed

theorem restore_ok {previous : Previous} {before : Option String}
    (held : Held before previous world.store) (run : restore path previous world = (.ok (),after)) :
    after.store.config = before := by
  cases previous with
  | absent =>
    obtain ⟨found,middle,ran,rest⟩ := bind_ok run
    obtain ⟨removed,same,removing⟩ := caught_run ran
    cases same
    change before = none at held
    cases found with
    | ok =>
      rw [syncParent_store rest,held]
      have gone := operation_ok removing
      split at gone
      next =>
        injection gone with pair
        rw [← (Prod.mk.inj pair).2]
      next => cases gone
    | error e =>
      change (if e.notFound then _ else _ : FileStep SambaError Unit) middle = _ at rest
      split at rest
      next missing =>
        rw [(pure_run rest).2,held]
        rcases operation_cases removing with ⟨_,wrong,_⟩ | ⟨_,_,refused,unchanged⟩ | ⟨damage,wrong,_⟩
        · cases wrong
        · rw [unchanged]
          split at refused
          next => cases refused
          next absent => exact Option.not_isSome_iff_eq_none.mp absent
        · injection wrong with same
          rw [same] at missing
          cases missing
      next => cases (fromExcept_run rest).1
  | saved backup =>
    obtain ⟨_,middle,moving,rest⟩ := bind_ok run
    rw [syncParent_store rest]
    have back := operation_ok (reported_ok moving)
    split at back
    next =>
      injection back with pair
      rw [← (Prod.mk.inj pair).2]
      exact held.2
    next => cases back

theorem rolledBack_spec {α : Type} {previous : Previous} {rejection : String} {before : Option String}
    {answer : Except SambaError α} (held : Held before previous world.store)
    (run : rolledBack previous path rejection world = (answer,after)) :
    ∃ e, answer = .error e ∧ (e.isRollbackFailed = false → after.store.config = before) := by
  rcases bind_cases run with ⟨e,_,ran⟩ | ⟨found,middle,ran,rest⟩
  · obtain ⟨_,wrong,_⟩ := caught_run ran
    cases wrong
  obtain ⟨answered,same,restoring⟩ := caught_run ran
  cases same
  cases found with
  | ok =>
    obtain ⟨rfl,rfl⟩ := fromExcept_run rest
    exact ⟨_,rfl,fun _ => restore_ok held restoring⟩
  | error failure =>
    obtain ⟨rfl,rfl⟩ := fromExcept_run rest
    exact ⟨_,rfl,nofun⟩

theorem undone_cases {α β : Type} {previous : Previous} {before : Option String}
    {step : FileStep SambaError α} {next : α → FileStep SambaError β}
    {answer : Except SambaError β} (kept : Keeps (Held before previous) step) (held : Held before previous world.store)
    (run : (orElse step (fun e => rolledBack previous path e.message) >>= next) world = (answer,after)) :
    (∃ value middle, step world = (.ok value,middle) ∧ Held before previous middle.store ∧
        next value middle = (answer,after)) ∨
      ∃ e, answer = .error e ∧ (e.isRollbackFailed = false → after.store.config = before) := by
  rcases bind_cases run with ⟨e,rfl,ran⟩ | ⟨value,middle,ran,rest⟩
  · rcases orElse_cases ran with ⟨_,wrong,_⟩ | ⟨_,failed,stopped,undone⟩
    · cases wrong
    · obtain ⟨_,same,restored⟩ := rolledBack_spec (kept world _ failed stopped held) undone
      cases same
      exact .inr ⟨e,rfl,restored⟩
  · rcases orElse_cases ran with ⟨_,same,done⟩ | ⟨_,failed,stopped,undone⟩
    · cases same
      exact .inl ⟨value,middle,done,kept world _ middle done held,rest⟩
    · obtain ⟨_,wrong,_⟩ := rolledBack_spec (kept world _ failed stopped held) undone
      cases wrong

theorem discard_keeps (config : Option String) (previous : Previous) :
    Keeps (fun files => files.config = config) (discard previous) := by
  cases previous with
  | absent => exact Keeps.pure ()
  | saved backup =>
    refine (Keeps.caught (Keeps.operation (fun _ _ _ same worked => ?_) (fun files damage same => ?_))).bind
      (fun _ => Keeps.pure _)
    · split at worked
      next =>
        cases worked
        exact same
      next => cases worked
    · change (if _ then _ else _ : Files).config = _
      split <;> exact same

theorem discard_total (previous : Previous) (world after : World Damage Files) (e : SambaError) :
    discard previous world ≠ (.error e,after) := by
  intro run
  cases previous with
  | absent => cases (pure_run run).1
  | saved backup =>
    rcases bind_cases run with ⟨_,_,ran⟩ | ⟨_,_,_,rest⟩
    · obtain ⟨_,wrong,_⟩ := caught_run ran
      cases wrong
    · cases (pure_run rest).1

theorem missingShares_nil {sections : List Section} {offered : List String} (none : missingShares sections offered = []) :
    ∀ share ∈ sections, ∃ seen ∈ offered, eqIgnoreAsciiCase seen share.name = true := by
  intro share member
  have kept := List.filter_eq_nil_iff.mp none share.name (List.mem_map_of_mem member)
  rw [Bool.not_eq_true,Bool.not_eq_false',List.any_eq_true] at kept
  exact kept

theorem publish_cases {shares : List ShareSpec} {host : SambaHost} {before : World Damage Files}
    {answer : Except SambaError PublishOutcome} (run : publish path shares host before = (answer,after)) :
    (∃ outcome sections offered, answer = .ok outcome ∧ plan host shares = .ok sections ∧
        host.offeredShares (some (render sections)) = .ok offered ∧ missingShares sections offered = [] ∧
        after.store.config = some (render sections)) ∨
      ∃ e, answer = .error e ∧ (e.isRollbackFailed = false → after.store.config = before.store.config) := by
  rcases bind_cases run with ⟨e,rfl,ran⟩ | ⟨_,middle,ran,installed⟩
  · rw [(fromExcept_run ran).2]
    exact .inr ⟨e,rfl,fun _ => rfl⟩
  obtain ⟨_,rfl⟩ := fromExcept_run ran
  rcases bind_cases installed with ⟨e,rfl,ran⟩ | ⟨sections,middle,ran,drawn⟩
  · rw [(fromExcept_run ran).2]
    exact .inr ⟨e,rfl,fun _ => rfl⟩
  obtain ⟨planned,rfl⟩ := fromExcept_run ran
  rcases bind_cases drawn with ⟨e,rfl,ran⟩ | ⟨previous,taken,ran,put⟩
  · exact .inr ⟨e,rfl,fun _ => (take_spec ran).1⟩
  have held := (take_spec ran).2 previous rfl
  rcases undone_cases (writeAtomically_keeps _ previous path _) held put with ⟨_,written,writing,held,checked⟩ | failed
  swap
  · exact .inr failed
  have config := writeAtomically_ok writing
  rcases undone_cases (Keeps.observe _) held checked with ⟨_,_,valid,held,looked⟩ | failed
  swap
  · exact .inr failed
  obtain ⟨_,rfl⟩ := observe_run valid
  rcases undone_cases (Keeps.observe _) held looked with ⟨offered,listed,listing,held,compared⟩ | failed
  swap
  · exact .inr failed
  obtain ⟨seen,rfl⟩ := observe_run listing
  rw [config] at seen
  change (if missingShares sections offered ≠ [] then _ else _ : FileStep SambaError PublishOutcome) listed = _ at compared
  split at compared
  next => exact .inr (rolledBack_spec held compared)
  next complete =>
    rcases bind_cases compared with ⟨e,_,ran⟩ | ⟨_,tidied,ran,told⟩
    · exact absurd ran (discard_total previous listed after e)
    have config := discard_keeps _ previous listed _ tidied ran config
    rcases bind_cases told with ⟨e,_,ran⟩ | ⟨_,final,ran,ended⟩
    · cases ran
    cases ran
    obtain ⟨rfl,rfl⟩ := pure_run ended
    exact .inl ⟨_,sections,offered,rfl,planned.symm,seen.symm,not_not.mp complete,config⟩

/-- What a publish reports as published was listed by a client, and is what the file holds; whatever it
reports as failed, short of a failed rollback, leaves the file as it was.
-/
theorem publish_all_or_nothing (path : ConfigPath) (shares : List ShareSpec) (host : SambaHost)
    (before : World Damage Files) :
    (∀ outcome after, publish path shares host before = (.ok outcome,after) →
      ∃ sections offered, plan host shares = .ok sections ∧ host.offeredShares (some (render sections)) = .ok offered ∧
        (∀ share ∈ sections, ∃ seen ∈ offered, eqIgnoreAsciiCase seen share.name = true) ∧
        after.store.config = some (render sections)) ∧
      ∀ e after, publish path shares host before = (.error e,after) → e.isRollbackFailed = false →
        after.store.config = before.store.config := by
  refine ⟨fun outcome after run => ?_,fun e after run sound => ?_⟩
  · rcases publish_cases run with ⟨_,sections,offered,_,planned,listed,complete,config⟩ | ⟨_,wrong,_⟩
    · exact ⟨sections,offered,planned,listed,missingShares_nil complete,config⟩
    · cases wrong
  · rcases publish_cases run with ⟨_,_,_,wrong,_⟩ | ⟨_,same,unchanged⟩
    · cases wrong
    · cases same
      exact unchanged sound

end Depsis.Shares

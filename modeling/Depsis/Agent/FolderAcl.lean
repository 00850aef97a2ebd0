import Depsis.Agent.Operands
import Depsis.Agent.Seams
import Depsis.Foundation.PosixAcl
import Depsis.Foundation.Text

/-! One folder's ACL, written in up to three `setfacl` passes: the clear, the access
list and the default list. Whatever a pass is stopped at, the next application
starts from the clear.
-/
namespace Depsis.Agent

open Depsis.Foundation Depsis.Foundation.PosixAcl List

def SETFACL : String := "/usr/bin/setfacl"
def GETFACL : String := "/usr/bin/getfacl"
def MAX_ENTRIES : Nat := 32

structure AclEntry where
  gid : PosixId
  read : Bool
  write : Bool
  execute : Bool

inductive AclError where
  | notInstalled (program : String)
  | aclTypeNotPosix (path stderr : String)
  | timedOut (path stage : String) (budgetSecs elapsedSecs : Nat)
  | defaultAclFailed (path cause : String)
  | baseTripleChanged (path before after : String)
  | baseTripleUnreadable (path got : String)
  | duplicateGroup (gid : Nat)
  | tooManyEntries (count max : Nat)
  | escape (component : String)
  | path (error : SeamError)
  | command (message : String)

def isNotSupported (stderr : String) : Bool :=
  stderr.toList.tails.any "Operation not supported".toList.isPrefixOf

def permissions (entry : AclEntry) : String :=
  String.ofList [if entry.read then 'r' else '-',if entry.write then 'w' else '-',if entry.execute then 'x' else '-']

def spec (entries : List AclEntry) : String :=
  ",".intercalate (entries.map (fun entry => "g:" ++ entry.gid.value.repr ++ ":" ++ permissions entry))

def aclPlan (target : String) (entries : List AclEntry) (engineTraverse : Option Nat) :
    List (String × List String) :=
  let engine := engineTraverse.map (fun uid => "u:" ++ uid.repr ++ ":--x")
  let rendered := spec entries
  ("clear",["-b","--",target])::
    if !entries.isEmpty || engine.isSome then
      let access := match engine with
        | some extra => if rendered.isEmpty then extra else rendered ++ "," ++ extra
        | none => rendered
      ("access",["-m",access,"--",target])::
        if !entries.isEmpty then [("default",["-d","-m",rendered,"--",target])] else []
    else []

def firstDuplicate : List AclEntry → Option Nat
  | [] => none
  | entry::rest => if rest.any (fun other => other.gid = entry.gid) then some entry.gid.value else firstDuplicate rest

def checkEntries (entries : List AclEntry) : Except AclError Unit :=
  if MAX_ENTRIES < entries.length then .error (.tooManyEntries entries.length MAX_ENTRIES)
  else match firstDuplicate entries with
  | some gid => .error (.duplicateGroup gid)
  | none => .ok ()

def readPerms : List Char → Option Perms
  | [r,w,x] =>
    if (r = 'r' || r = '-') && (w = 'w' || w = '-') && (x = 'x' || x = '-') then
      some ⟨r = 'r',w = 'w',x = 'x'⟩
    else none
  | _ => none

def readId (digits : List Char) : Option Nat :=
  if digits.isEmpty || !digits.all Char.isDigit then none else some (Nat.ofDigitChars 10 digits 0)

def readEntry (text : List Char) : Option (Tag × Perms) :=
  match text.splitOn ':' with
  | [kind,id,perms] => (readId id).bind (fun id => (readPerms perms).bind (fun perms =>
      if kind = ['g'] then some (.group id,perms) else if kind = ['u'] then some (.user id,perms) else none))
  | _ => none

def readSpec (operand : String) : Option (List (Tag × Perms)) := (operand.toList.splitOn ',').mapM readEntry

/-- The part of `setfacl` the passes use; `none` is its usage error. -/
def setfacl (args : List String) (folder : Folder) : Option Folder :=
  match args with
  | ["-b","--",_] => some folder.clear
  | ["-m",operand,"--",_] => (readSpec operand).map folder.modify
  | ["-d","-m",operand,"--",_] => (readSpec operand).map folder.modifyDefault
  | _ => none

/-- What one `setfacl` meets: the clock around it, and a failure that may come after
the list was already written. -/
structure Execution where
  before : Nat
  after : Nat
  failure : Option SeamError
  applied : Bool

def Execution.run (execution : Execution) (args : List String) (folder : Folder) : Option SeamError × Folder :=
  match setfacl args folder with
  | none => (some (.command SETFACL 2 "usage"),folder)
  | some written =>
    match execution.failure with
    | none => (none,written)
    | some error => (some error,if execution.applied then written else folder)

def asSecs (nanoseconds : Nat) : Nat := nanoseconds / 1000000000

def passAnswer (budget after : Nat) (stage shown : String) : Option SeamError → Except AclError Unit
  | none => if budget ≤ after then .error (.timedOut shown stage (asSecs budget) (asSecs after)) else .ok ()
  | some (.command _ status stderr) =>
    if isNotSupported stderr then .error (.aclTypeNotPosix shown stderr)
    else if stage = "default" then
      .error (.defaultAclFailed shown ("setfacl exited " ++ toString status ++ ": " ++ stderr))
    else .error (.command ("setfacl " ++ stage ++ " pass on " ++ shown ++ " failed with status " ++
      toString status ++ ": " ++ stderr))
  | some other => if stage = "default" then .error (.defaultAclFailed shown other.message) else .error (.path other)

def runPass (budget : Nat) (stage : String) (args : List String) (shown : String) (execution : Execution)
    (folder : Folder) : Except AclError Unit × Folder :=
  if budget ≤ execution.before then
    (.error (.timedOut shown stage (asSecs budget) (asSecs execution.before)),folder)
  else (passAnswer budget execution.after stage shown (execution.run args folder).1,(execution.run args folder).2)

def runPasses (budget : Nat) (shown : String) (executions : Nat → Execution) :
    List (String × List String) → Nat → Folder → Except AclError Unit × Folder
  | [],_,folder => (.ok (),folder)
  | (stage,args)::rest,index,folder =>
    match runPass budget stage args shown (executions index) folder with
    | (.error error,left) => (.error error,left)
    | (.ok (),left) => runPasses budget shown executions rest (index + 1) left

structure Host where
  present : String → Bool
  sharesRoot : String
  openDir : List String → Option SeamError
  commandPath : Except SeamError String
  getfacl : Folder → String
  engineUid : Option Nat
  timeout : Nat

namespace Host

def ensureInstalled (host : Host) : Except AclError Unit :=
  if !host.present SETFACL then .error (.notInstalled SETFACL)
  else if !host.present GETFACL then .error (.notInstalled GETFACL)
  else .ok ()

def target (host : Host) (relative : List String) : Except AclError String :=
  relative.foldlM (fun path component =>
    if component = "" || component = "." || component = ".." || component.toList.contains '/' ||
        component.toList.contains '\\' then .error (.escape component)
    else .ok (path ++ (if path.toList.getLast? = some '/' then "" else "/") ++ component)) host.sharesRoot

def baseTriple (host : Host) (failure : Option SeamError) (shown : String) (folder : Folder) :
    Except AclError String :=
  match failure with
  | some (.command _ status stderr) =>
    if isNotSupported stderr then .error (.aclTypeNotPosix shown stderr)
    else .error (.command ("getfacl " ++ shown ++ " failed with status " ++ toString status ++ ": " ++ stderr))
  | some other => .error (.path other)
  | none =>
    let out := host.getfacl folder
    let lines := (Text.lines out.toList).map (fun line => Text.trim ((line.splitOn '#').headD []))
    let triple := lines.filter (fun line => "user::".toList.isPrefixOf line || "group::".toList.isPrefixOf line ||
      "other::".toList.isPrefixOf line)
    if triple.length ≠ 3 then .error (.baseTripleUnreadable shown (String.ofList (Text.trim out.toList)))
    else .ok (",".intercalate (triple.map String.ofList))

end Host

structure Meeting where
  readBefore : Option SeamError
  readAfter : Option SeamError
  executions : Nat → Execution

/-- `Applier::apply` on one folder of the share; an empty path is the share root. -/
def Host.apply (host : Host) (meeting : Meeting) (share : String) (path : List String) (entries : List AclEntry)
    (folder : Folder) : Except AclError Nat × Folder :=
  match checkEntries entries with
  | .error error => (.error error,folder)
  | .ok () =>
    match host.ensureInstalled with
    | .error error => (.error error,folder)
    | .ok () =>
      match host.openDir (share::path),host.target (share::path),host.commandPath with
      | some error,_,_ => (.error (.path error),folder)
      | none,.error error,_ => (.error error,folder)
      | none,.ok _,.error error => (.error (.path error),folder)
      | none,.ok shown,.ok aimed =>
        match host.baseTriple meeting.readBefore shown folder with
        | .error error => (.error error,folder)
        | .ok before =>
          let engineTraverse := if path.isEmpty then host.engineUid else none
          match runPasses host.timeout shown meeting.executions (aclPlan aimed entries engineTraverse) 0 folder with
          | (.error error,left) => (.error error,left)
          | (.ok (),left) =>
            match host.baseTriple meeting.readAfter shown left with
            | .error error => (.error error,left)
            | .ok after =>
              if before ≠ after then (.error (.baseTripleChanged shown before after),left)
              else (.ok entries.length,left)

def AclEntry.granted (entry : AclEntry) : Tag × Perms :=
  (.group entry.gid.value,⟨entry.read,entry.write,entry.execute⟩)

def traverse (uid : Nat) : Tag × Perms := (.user uid,⟨false,false,true⟩)

theorem digit_of_mem {number : Nat} {character : Char} (member : character ∈ Nat.toDigits 10 number) :
    character.isDigit = true :=
  Nat.isDigit_of_mem_toDigits (by decide) (by decide) member

theorem readId_digits (number : Nat) : readId (Nat.toDigits 10 number) = some number := by
  have digits : (Nat.toDigits 10 number).all Char.isDigit = true := all_eq_true.mpr (fun _ => digit_of_mem)
  have present : (Nat.toDigits 10 number).isEmpty = false := isEmpty_eq_false_iff.mpr Nat.toDigits_ne_nil
  rw [readId,digits,present]
  exact congrArg some (Nat.ofDigitChars_toDigits (by decide) (by decide))

theorem readPerms_rendered (read write execute : Bool) :
    readPerms [if read then 'r' else '-',if write then 'w' else '-',if execute then 'x' else '-'] =
      some ⟨read,write,execute⟩ := by
  cases read <;> cases write <;> cases execute <;> rfl

theorem readEntry_rendered {kind : Char} {number : Nat} {perms : List Char} {bits : Perms}
    (apart : kind ≠ ':') (plain : ':' ∉ perms) (readable : readPerms perms = some bits) :
    readEntry (kind :: ':' :: (Nat.toDigits 10 number ++ ':' :: perms)) =
      if kind = 'g' then some (.group number,bits) else if kind = 'u' then some (.user number,bits) else none := by
  have digits : ':' ∉ Nat.toDigits 10 number := fun member => by cases digit_of_mem member
  have split : (kind :: ':' :: (Nat.toDigits 10 number ++ ':' :: perms)).splitOn ':' =
      [[kind],Nat.toDigits 10 number,perms] := by
    change ([kind] ++ ':' :: (Nat.toDigits 10 number ++ ':' :: perms)).splitOn ':' = _
    rw [splitOn_append_cons_self_of_not_mem (by simpa using Ne.symm apart),
      splitOn_append_cons_self_of_not_mem digits,splitOn_eq_singleton plain]
  rw [readEntry,split]
  simp [readId_digits,readable]

def entryText (entry : AclEntry) : String := "g:" ++ entry.gid.value.repr ++ ":" ++ permissions entry

def engineText (uid : Nat) : String := "u:" ++ uid.repr ++ ":--x"

theorem entryText_chars (entry : AclEntry) : (entryText entry).toList =
    'g' :: ':' :: (Nat.toDigits 10 entry.gid.value ++ ':' ::
      [if entry.read then 'r' else '-',if entry.write then 'w' else '-',if entry.execute then 'x' else '-']) := by
  simp [entryText,permissions]

theorem engineText_chars (uid : Nat) : (engineText uid).toList =
    'u' :: ':' :: (Nat.toDigits 10 uid ++ ':' :: ['-','-','x']) := by
  simp [engineText]

theorem readEntry_entry (entry : AclEntry) : readEntry (entryText entry).toList = some entry.granted := by
  rw [entryText_chars,readEntry_rendered (by decide) (by grind) (readPerms_rendered _ _ _)]
  rfl

theorem readEntry_engine (uid : Nat) : readEntry (engineText uid).toList = some (traverse uid) := by
  have readable : readPerms ['-','-','x'] = some ⟨false,false,true⟩ := rfl
  rw [engineText_chars,readEntry_rendered (by decide) (by decide) readable]
  rfl

theorem comma_apart (number : Nat) : ',' ∉ Nat.toDigits 10 number := fun member => by cases digit_of_mem member

theorem entry_single (entry : AclEntry) : ',' ∉ (entryText entry).toList := by
  have digits := comma_apart entry.gid.value
  rw [entryText_chars]
  grind

theorem engine_single (uid : Nat) : ',' ∉ (engineText uid).toList := by
  have digits := comma_apart uid
  rw [engineText_chars]
  simp [digits]

theorem readSpec_intercalate {texts : List String} {entries : List (Tag × Perms)} (listed : texts ≠ [])
    (single : ∀ text ∈ texts, ',' ∉ text.toList)
    (readable : texts.mapM (fun text => readEntry text.toList) = some entries) :
    readSpec (",".intercalate texts) = some entries := by
  have split : (",".intercalate texts).toList.splitOn ',' = texts.map String.toList := by
    rw [String.toList_intercalate]
    exact splitOn_intercalate ',' (fun text member => by
      obtain ⟨word,inside,rfl⟩ := mem_map.mp member
      exact single word inside) (by simpa using listed)
  rw [readSpec,split,mapM_map]
  exact readable

theorem spec_texts (entries : List AclEntry) : spec entries = ",".intercalate (entries.map entryText) := rfl

theorem mapM_entries (entries : List AclEntry) (more : List (Tag × Perms)) (texts : List String)
    (rest : texts.mapM (fun text => readEntry text.toList) = some more) :
    (entries.map entryText++texts).mapM (fun text => readEntry text.toList) =
      some (entries.map AclEntry.granted++more) := by
  induction entries with
  | nil => exact rest
  | cons entry entries ih => simp [readEntry_entry,ih]

theorem readSpec_access {entries : List AclEntry} (engine : Option Nat) (some_text : entries ≠ [] ∨ engine.isSome = true) :
    readSpec (",".intercalate (entries.map entryText++engine.toList.map engineText)) =
      some (entries.map AclEntry.granted++engine.toList.map traverse) := by
  refine readSpec_intercalate ?_ (fun text member => ?_) (mapM_entries entries _ _ ?_)
  · cases engine <;> simp_all
  · rcases mem_append.mp member with listed | extra
    · obtain ⟨entry,-,rfl⟩ := mem_map.mp listed
      exact entry_single entry
    · obtain ⟨uid,-,rfl⟩ := mem_map.mp extra
      exact engine_single uid
  · cases engine with
    | none => rfl
    | some uid => simp [readEntry_engine]

def requested (entries : List AclEntry) (engine : Option Nat) (base : Triple) : Folder where
  access :=
    if entries.isEmpty && engine.isNone then .minimal base
    else (Acl.minimal base).modify (entries.map AclEntry.granted++engine.toList.map traverse)
  inherited := if entries.isEmpty then none else some ((Acl.minimal base).modify (entries.map AclEntry.granted))

theorem spec_present (entry : AclEntry) (entries : List AclEntry) : (spec (entry::entries)).isEmpty = false := by
  rw [Bool.eq_false_iff,ne_eq,String.isEmpty_iff]
  intro empty
  have chars := congrArg String.toList empty
  rw [spec_texts,map_cons] at chars
  cases rest : entries.map entryText with
  | nil | cons text texts => simp [rest,entryText_chars] at chars

theorem aclPlan_requested (target : String) (entries : List AclEntry) (engine : Option Nat) (folder : Folder) :
    (aclPlan target entries engine).foldlM (fun folder pass => setfacl pass.2 folder) folder =
      some (requested entries engine folder.access.base) := by
  cases entries with
  | nil =>
    cases engine with
    | none => rfl
    | some uid =>
      have readable := @readSpec_access [] (some uid) (.inr rfl)
      change readSpec (engineText uid) = some [traverse uid] at readable
      change (setfacl ["-m",engineText uid,"--",target] folder.clear).bind some = _
      simp only [setfacl,readable,Option.map_some,Option.bind_some]
      rfl
  | cons entry entries =>
    have inherited := @readSpec_access (entry::entries) none (.inl (by simp))
    rw [Option.toList_none,map_nil,append_nil,map_nil,append_nil,← spec_texts] at inherited
    cases engine with
    | none =>
      change ((setfacl ["-m",spec (entry::entries),"--",target] folder.clear).bind (fun folder =>
        (setfacl ["-d","-m",spec (entry::entries),"--",target] folder).bind some)) = _
      simp only [setfacl,inherited,Option.map_some,Option.bind_some,requested,Option.toList_none,map_nil,
        append_nil]
      rfl
    | some uid =>
      have readable := @readSpec_access (entry::entries) (some uid) (.inl (by simp))
      rw [Option.toList_some,map_singleton,map_singleton,
        String.intercalate_append_of_ne_nil (by simp) (by simp),String.intercalate_singleton,← spec_texts] at readable
      have plan : aclPlan target (entry::entries) (some uid) = [("clear",["-b","--",target]),
          ("access",["-m",spec (entry::entries) ++ "," ++ engineText uid,"--",target]),
          ("default",["-d","-m",spec (entry::entries),"--",target])] := by
        simp [aclPlan,spec_present,engineText]
      rw [plan]
      change ((setfacl ["-m",spec (entry::entries) ++ "," ++ engineText uid,"--",target] folder.clear).bind
        (fun folder => (setfacl ["-d","-m",spec (entry::entries),"--",target] folder).bind some)) = _
      simp only [setfacl,readable,inherited,Option.map_some,Option.bind_some]
      rfl

theorem setfacl_base {args : List String} {folder written : Folder} (ran : setfacl args folder = some written) :
    written.access.base = folder.access.base := by
  unfold setfacl at ran
  split at ran
  next => cases ran; rfl
  next =>
    obtain ⟨entries,-,rfl⟩ := Option.map_eq_some_iff.mp ran
    rfl
  next =>
    obtain ⟨entries,-,rfl⟩ := Option.map_eq_some_iff.mp ran
    rfl
  next => cases ran

theorem run_base (execution : Execution) (args : List String) (folder : Folder) :
    (execution.run args folder).2.access.base = folder.access.base := by
  unfold Execution.run
  split
  next => rfl
  next written ran =>
    split
    next => exact setfacl_base ran
    next =>
      split
      next => exact setfacl_base ran
      next => rfl

theorem runPass_base (budget : Nat) (stage : String) (args : List String) (shown : String)
    (execution : Execution) (folder : Folder) :
    (runPass budget stage args shown execution folder).2.access.base = folder.access.base := by
  unfold runPass
  split
  next => rfl
  next => exact run_base execution args folder

theorem passAnswer_ok {budget after : Nat} {stage shown : String} {outcome : Option SeamError}
    (answered : passAnswer budget after stage shown outcome = .ok ()) : outcome = none := by
  cases outcome with
  | none => rfl
  | some error =>
    exfalso
    cases error <;> simp only [passAnswer] at answered <;> split_ifs at answered

theorem runPass_ok {budget : Nat} {stage : String} {args : List String} {shown : String}
    {execution : Execution} {folder left : Folder}
    (ran : runPass budget stage args shown execution folder = (.ok (),left)) : setfacl args folder = some left := by
  unfold runPass at ran
  split at ran
  next => cases ran
  next =>
    obtain ⟨answered,rfl⟩ := Prod.mk.inj ran
    have succeeded := passAnswer_ok answered
    rw [Execution.run] at succeeded
    rw [Execution.run]
    cases applied : setfacl args folder with
    | none => simp [applied] at succeeded
    | some written =>
      cases failed : execution.failure with
      | none => rfl
      | some error => simp [applied,failed] at succeeded

theorem runPasses_base (budget : Nat) (shown : String) (executions : Nat → Execution)
    (passes : List (String × List String)) (index : Nat) (folder : Folder) :
    (runPasses budget shown executions passes index folder).2.access.base = folder.access.base := by
  induction passes generalizing index folder with
  | nil => rfl
  | cons pass rest ih =>
    obtain ⟨stage,args⟩ := pass
    have kept := runPass_base budget stage args shown (executions index) folder
    simp only [runPasses]
    split
    next error left ran => rw [ran] at kept; exact kept
    next left ran => rw [ran] at kept; exact (ih (index + 1) left).trans kept

theorem runPasses_ok {budget : Nat} {shown : String} {executions : Nat → Execution}
    {passes : List (String × List String)} {index : Nat} {folder left : Folder}
    (ran : runPasses budget shown executions passes index folder = (.ok (),left)) :
    passes.foldlM (fun folder pass => setfacl pass.2 folder) folder = some left := by
  induction passes generalizing index folder with
  | nil => cases ran; rfl
  | cons pass rest ih =>
    obtain ⟨stage,args⟩ := pass
    simp only [runPasses] at ran
    split at ran
    next => cases ran
    next middle first =>
      rw [foldlM_cons,runPass_ok first]
      exact ih ran

theorem apply_cases (host : Host) (meeting : Meeting) (share : String) (path : List String)
    (entries : List AclEntry) (folder : Folder) :
    (∃ error, host.apply meeting share path entries folder = (.error error,folder)) ∨
    checkEntries entries = .ok () ∧ ∃ shown aimed answer left,
      runPasses host.timeout shown meeting.executions
        (aclPlan aimed entries (if path.isEmpty then host.engineUid else none)) 0 folder = (answer,left) ∧
      (host.apply meeting share path entries folder).2 = left ∧
      ∀ count, (host.apply meeting share path entries folder).1 = .ok count → answer = .ok () := by
  unfold Host.apply
  cases checkEntries entries with
  | error error => exact .inl ⟨error,rfl⟩
  | ok =>
    cases host.ensureInstalled with
    | error error => exact .inl ⟨error,rfl⟩
    | ok =>
      cases host.openDir (share::path) with
      | some error => exact .inl ⟨.path error,rfl⟩
      | none =>
        cases host.target (share::path) with
        | error error => exact .inl ⟨error,rfl⟩
        | ok shown =>
          cases host.commandPath with
          | error error => exact .inl ⟨.path error,rfl⟩
          | ok aimed =>
            simp only
            cases host.baseTriple meeting.readBefore shown folder with
            | error error => exact .inl ⟨error,rfl⟩
            | ok before =>
              cases ran : runPasses host.timeout shown meeting.executions
                  (aclPlan aimed entries (if path.isEmpty then host.engineUid else none)) 0 folder with
              | mk answer left =>
                refine .inr ⟨trivial,shown,aimed,answer,left,ran,?_,fun count => ?_⟩
                · simp only
                  cases answer with
                  | error => rfl
                  | ok =>
                    simp only
                    split
                    next => rfl
                    next => split <;> rfl
                · simp only
                  cases answer with
                  | error => exact nofun
                  | ok => exact fun _ => rfl

theorem apply_ok {host : Host} {meeting : Meeting} {share : String} {path : List String}
    {entries : List AclEntry} {folder left : Folder} {count : Nat}
    (applied : host.apply meeting share path entries folder = (.ok count,left)) :
    checkEntries entries = .ok () ∧
      left = requested entries (if path.isEmpty then host.engineUid else none) folder.access.base := by
  rcases apply_cases host meeting share path entries folder with ⟨error,refused⟩ |
    ⟨checked,shown,aimed,answer,after,ran,same,passed⟩
  · rw [applied] at refused
    cases refused
  · rw [applied] at same passed
    cases passed count rfl
    subst same
    exact ⟨checked,Option.some.inj ((runPasses_ok ran).symm.trans (aclPlan_requested aimed _ _ _))⟩

theorem apply_base (host : Host) (meeting : Meeting) (share : String) (path : List String)
    (entries : List AclEntry) (folder : Folder) :
    (host.apply meeting share path entries folder).2.access.base = folder.access.base := by
  rcases apply_cases host meeting share path entries folder with ⟨error,refused⟩ |
    ⟨-,shown,aimed,answer,after,ran,same,-⟩
  · rw [refused]
  · have kept := runPasses_base host.timeout shown meeting.executions
      (aclPlan aimed entries (if path.isEmpty then host.engineUid else none)) 0 folder
    rw [ran] at kept
    exact (congrArg (fun folder : Folder => folder.access.base) same).trans kept

theorem apply_refused {host : Host} {meeting : Meeting} {share : String} {path : List String}
    {entries : List AclEntry} {folder : Folder} {error : AclError} (refused : checkEntries entries = .error error) :
    host.apply meeting share path entries folder = (.error error,folder) := by
  rw [Host.apply,refused]

def asked (entries : List AclEntry) (gid : Nat) : Option Perms :=
  (entries.find? (fun entry => entry.gid.value = gid)).map (fun entry => ⟨entry.read,entry.write,entry.execute⟩)

structure Exact (entries : List AclEntry) (engine : Option Nat) (before after : Folder) : Prop where
  groups : ∀ gid, after.access.named.lookup (.group gid) = asked entries gid
  users : ∀ uid, after.access.named.lookup (.user uid) = if engine = some uid then some ⟨false,false,true⟩ else none
  inheritedGroups : ∀ gid, after.inherited.bind (fun acl => acl.named.lookup (.group gid)) = asked entries gid
  inheritedUsers : ∀ uid, after.inherited.bind (fun acl => acl.named.lookup (.user uid)) = none
  unmasked : after.access.Unmasked
  inheritedUnmasked : ∀ acl, after.inherited = some acl → acl.Unmasked
  base : after.access.base = before.access.base

theorem firstDuplicate_none {entries : List AclEntry} (single : firstDuplicate entries = none) :
    (entries.map (fun entry => entry.gid.value)).Nodup := by
  induction entries with
  | nil => exact nodup_nil
  | cons entry rest ih =>
    rw [firstDuplicate] at single
    split at single
    next => cases single
    next alone =>
      rw [map_cons,nodup_cons]
      refine ⟨fun again => alone ?_,ih single⟩
      obtain ⟨other,member,same⟩ := mem_map.mp again
      refine any_eq_true.mpr ⟨other,member,decide_eq_true ?_⟩
      obtain ⟨⟨gid,_⟩,_,_,_⟩ := other
      obtain ⟨⟨own,_⟩,_,_,_⟩ := entry
      cases same
      rfl

theorem modify_lookup {base : Triple} {entries : List AclEntry} (engine : Option Nat)
    (single : firstDuplicate entries = none) (tag : Tag) :
    ((Acl.minimal base).modify (entries.map AclEntry.granted++engine.toList.map traverse)).named.lookup tag =
      match tag with
      | .group gid => asked entries gid
      | .user uid => if engine = some uid then some ⟨false,false,true⟩ else none := by
  have distinct : ((entries.map AclEntry.granted++engine.toList.map traverse).map Prod.fst).Nodup := by
    have groups : (entries.map (fun entry => Tag.group entry.gid.value)).Nodup := by
      have mapped := (firstDuplicate_none single).map (f := Tag.group) (fun _ _ same => Tag.group.inj same)
      rwa [map_map] at mapped
    rw [map_append,map_map,map_map]
    refine nodup_append.mpr ⟨groups,?_,fun group listed user extra same => ?_⟩
    · cases engine <;> simp
    · obtain ⟨entry,-,rfl⟩ := mem_map.mp listed
      obtain ⟨uid,-,rfl⟩ := mem_map.mp extra
      cases same
  refine (AList.lookup_fill_find distinct tag).trans ?_
  rw [find?_append,find?_map]
  cases tag with
  | group gid =>
    have none_left : (engine.toList.map traverse).find? (fun row => row.1 = Tag.group gid) = none := by
      cases engine <;> simp [traverse]
    rw [none_left,Option.or_none,Option.map_map]
    have same : ((fun row : Tag × Perms => decide (row.1 = Tag.group gid)) ∘ AclEntry.granted) =
        fun entry => decide (entry.gid.value = gid) := by
      funext entry
      simp [AclEntry.granted]
    rw [same]
    rfl
  | user uid =>
    have none_left : entries.find? ((fun row : Tag × Perms => decide (row.1 = Tag.user uid)) ∘ AclEntry.granted) =
        none := find?_eq_none.mpr (fun entry _ => by simp [AclEntry.granted])
    rw [none_left,Option.map_none,Option.none_or]
    cases engine with
    | none => rfl
    | some other =>
      by_cases same : other = uid
      all_goals simp [traverse,same]

theorem exact_requested {entries : List AclEntry} (engine : Option Nat) (folder : Folder)
    (checked : checkEntries entries = .ok ()) :
    Exact entries engine folder (requested entries engine folder.access.base) := by
  have single : firstDuplicate entries = none := by
    unfold checkEntries at checked
    split at checked
    next => cases checked
    next =>
      split at checked
      next => cases checked
      next single => exact single
  have access := @modify_lookup folder.access.base entries engine single
  have inherited := @modify_lookup folder.access.base entries none single
  rw [Option.toList_none,map_nil,append_nil] at inherited
  have own (tag : Tag) : (requested entries engine folder.access.base).access.named.lookup tag =
      ((Acl.minimal folder.access.base).modify
        (entries.map AclEntry.granted++engine.toList.map traverse)).named.lookup tag := by
    cases entries <;> cases engine <;> rfl
  have below (tag : Tag) : (requested entries engine folder.access.base).inherited.bind
      (fun acl => acl.named.lookup tag) =
        ((Acl.minimal folder.access.base).modify (entries.map AclEntry.granted)).named.lookup tag := by
    cases entries <;> rfl
  refine ⟨fun gid => (own _).trans (access (.group gid)),fun uid => (own _).trans (access (.user uid)),
    fun gid => (below _).trans (inherited (.group gid)),fun uid => (below _).trans (inherited (.user uid)),?_,?_,?_⟩
  · simp only [requested]
    split
    next => exact Acl.minimal_unmasked _
    next => exact Acl.modify_unmasked _ _
  · intro acl there
    simp only [requested] at there
    split at there <;> cases there
    exact Acl.modify_unmasked _ _
  · simp only [requested]
    split <;> rfl

/-- Applying a folder's ACL makes it exactly the requested one, a refused request
leaves it alone, and a second application after any partial one ends where an
undisturbed one would. -/
theorem apply_exact (host : Host) (meeting : Meeting) (share : String) (path : List String)
    (entries : List AclEntry) (folder : Folder) :
    (∀ error, checkEntries entries = .error error →
      host.apply meeting share path entries folder = (.error error,folder)) ∧
    (∀ count left, host.apply meeting share path entries folder = (.ok count,left) →
      Exact entries (if path.isEmpty then host.engineUid else none) folder left) ∧
    ∀ (retry : Host) (again undisturbed : Meeting) (count total : Nat) (final wanted : Folder),
      retry.engineUid = host.engineUid →
      retry.apply again share path entries (host.apply meeting share path entries folder).2 = (.ok count,final) →
      host.apply undisturbed share path entries folder = (.ok total,wanted) → final = wanted := by
  refine ⟨fun error refused => apply_refused refused,fun count left applied => ?_,?_⟩
  · obtain ⟨checked,rfl⟩ := apply_ok applied
    exact exact_requested _ folder checked
  · intro retry again undisturbed count total final wanted engine second whole
    obtain ⟨-,rfl⟩ := apply_ok second
    obtain ⟨-,rfl⟩ := apply_ok whole
    rw [apply_base,engine]

private def box : Host where
  present := fun _ => true
  sharesRoot := "/srv"
  openDir := fun _ => none
  commandPath := .ok "/proc/7/fd/9"
  getfacl := fun _ => "user::rwx\ngroup::r-x\nother::---\n"
  engineUid := some 999
  timeout := 30000000000

private def calm : Meeting := ⟨none,none,fun _ => ⟨0,0,none,false⟩⟩

private def interrupted : Meeting := ⟨none,none,fun index => ⟨0,0,if index = 1 then some (.io "killed") else none,true⟩⟩

private def team : AclEntry := ⟨⟨300001,by decide⟩,true,true,true⟩

private def stale : Folder :=
  ⟨⟨⟨⟨true,true,true⟩,⟨true,false,true⟩,⟨false,false,false⟩⟩,
    (∅ : Table Tag Perms).insert (.group 300009) ⟨true,true,true⟩,some ⟨true,false,true⟩⟩,none⟩

theorem apply_exact_interrupted : ∃ final wanted,
    box.apply calm "muhasebe" [] [team] (box.apply interrupted "muhasebe" [] [team] stale).2 = (.ok 1,final) ∧
    box.apply calm "muhasebe" [] [team] stale = (.ok 1,wanted) ∧ final = wanted ∧
    Exact [team] (some 999) stale wanted := by
  obtain ⟨final,second⟩ : ∃ final, box.apply calm "muhasebe" [] [team]
      (box.apply interrupted "muhasebe" [] [team] stale).2 = (.ok 1,final) := ⟨_,rfl⟩
  obtain ⟨wanted,whole⟩ : ∃ wanted, box.apply calm "muhasebe" [] [team] stale = (.ok 1,wanted) := ⟨_,rfl⟩
  refine ⟨final,wanted,second,whole,?_,?_⟩
  · exact (apply_exact box interrupted "muhasebe" [] [team] stale).2.2 box calm calm 1 1 final wanted rfl second whole
  · exact (apply_exact box calm "muhasebe" [] [team] stale).2.1 1 wanted whole

end Depsis.Agent

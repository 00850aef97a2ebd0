import Depsis.Files.Disk

/-! The sliced copies: `copy_file`, `copy_file_to_backup` and `restore_file_from_backup`
in the agent, and the loops that ask for one slice after another.
-/
namespace Depsis.Files

open Depsis.Foundation Depsis.Agent List AList

abbrev Octets := List UInt8

structure CopyTrees where
  live : Option (Disk Octets)
  backup : Option (Disk Octets)
  snapshots : String → String → Disk Octets

def STAGING_SUBDIR : String := "staging"

def MAX_COPY_SLICE : Nat := 67108864

inductive SliceAnswer where
  | copied (offset : Nat) (done : Bool)
  | conflict (reason : String)
  | notFound (reason : String)
  | refused (reason : String)
  | outOfSpace (reason : String)
  | failed (reason : String)

/-- Where a call fails, if it does; `full` tells a full disk from any other error. -/
inductive SliceFate where
  | through
  | refuses (error : SeamError)
  | copyFails (written : Nat) (full : Bool) (error : String)
  | ownerFails (error : SeamError)
  | syncFails (full : Bool) (error : String)
  | publishFails (error : SeamError)
  | directorySyncFails (error : SeamError)

structure SliceWords where
  staged : Nat → Nat → String
  space : String → String
  flush : String → String
  fsync : String → String
  missing : String → String
  taken : String → String

def openedBelow (tree : Disk Octets) (root folders : List String) : Except SeamError Unit :=
  match tree.openDir root with
  | some .notDirectory => .error (.notADirectory ("/".intercalate root))
  | some _ => .error (.notFound ("/".intercalate root))
  | none =>
    match tree.openDir (root ++ folders) with
    | some .notDirectory => .error (.notADirectory ("/".intercalate folders))
    | some _ => .error (.notFound ("/".intercalate folders))
    | none => .ok ()

def openedNode (tree : Disk Octets) (root path : List String) : Except SeamError (Node Octets) := do
  openedBelow tree root path.dropLast
  match tree.lookup (root ++ path) with
  | some node => return node
  | none => throw (.notFound ("/".intercalate path))

def openedAppend (tree : Disk Octets) (root path : List String) : Except SeamError (Disk Octets × Octets) := do
  openedBelow tree root path.dropLast
  match tree.lookup (root ++ path) with
  | some (.file content) => return (tree,content)
  | some .directory => throw (.pathEscape ("/".intercalate path ++ ": " ++ errnoText .isDirectory))
  | none => return (tree.insert (root ++ path) (.file []),[])

/-- `create_dir`, where a directory that is there already will do. -/
def madeDir (tree : Disk Octets) (root folders : List String) (name : String) : Except SeamError (Disk Octets) := do
  openedBelow tree root folders
  match tree.mkdir (root ++ folders ++ [name]) with
  | .ok made => return made
  | .error _ => return tree

def skeleton (tree : Disk Octets) (root : List String) : Disk Octets × Option SeamError :=
  match madeDir tree root [] STAGING_DIR with
  | .error error => (tree,some error)
  | .ok first =>
    match madeDir first root [STAGING_DIR] STAGING_SUBDIR with
    | .error error => (first,some error)
    | .ok second => (second,none)

def stagingPath (stagingName : String) : List String := [STAGING_DIR,STAGING_SUBDIR,stagingName]

def publishStaged (words : SliceWords) (fate : SliceFate) (tree : Disk Octets) (root : List String)
    (stagingName : String) (target : List String) (now : Nat) : Disk Octets × SliceAnswer :=
  match openedBelow tree root target.dropLast with
  | .error (.notFound what) => (tree,.notFound (words.missing what))
  | .error other => (tree,.failed other.message)
  | .ok () =>
    match fate,tree.rename (root ++ stagingPath stagingName) (root ++ target) with
    | .publishFails error,_ => (tree,.failed error.message)
    | _,.error .exists => (tree,.conflict (words.taken (target.getLastD "")))
    | _,.error .noEntry => (tree,.notFound (words.missing stagingName))
    | _,.error errno =>
      (tree,.failed (SeamError.io ("rename " ++ stagingName ++ " -> " ++ target.getLastD "" ++ ": " ++ errnoText errno)).message)
    | .directorySyncFails error,.ok moved => (moved,.failed error.message)
    | _,.ok moved => (moved,.copied now true)

def finishSlice (words : SliceWords) (fate : SliceFate) (tree : Disk Octets) (root : List String)
    (stagingName : String) (target : List String) (now : Nat) (owned : Bool) : Disk Octets × SliceAnswer :=
  match owned,fate with
  | true,.ownerFails error => (tree,.failed error.message)
  | _,.syncFails true error => (tree,.outOfSpace (words.flush error))
  | _,.syncFails false error => (tree,.failed (SeamError.io (words.fsync error)).message)
  | _,_ => publishStaged words fate tree root stagingName target now

/-- `io::copy` of one slice, and the end of the copy with the last one. -/
def appendSlice (words : SliceWords) (fate : SliceFate) (content : Octets) (opened : Disk Octets) (staged : Octets)
    (root : List String) (stagingName : String) (target : List String) (offset maxBytes : Nat) (owned : Bool) :
    Disk Octets × SliceAnswer :=
  let window := (content.drop offset).take (min maxBytes MAX_COPY_SLICE)
  match fate with
  | .copyFails written full error =>
    (opened.insert (root ++ stagingPath stagingName) (.file (staged ++ window.take written)),
      if full then .outOfSpace (words.space error)
      else .failed (SeamError.io ("copy slice into staging: " ++ error)).message)
  | _ =>
    let appended := opened.insert (root ++ stagingPath stagingName) (.file (staged ++ window))
    let now := offset + window.length
    if now < content.length then (appended,.copied now false)
    else finishSlice words fate appended root stagingName target now owned

def sliceInto (words : SliceWords) (fate : SliceFate) (source : Node Octets) (tree : Disk Octets) (root : List String)
    (stagingName : String) (target : List String) (offset maxBytes : Nat) (owned : Bool) : Disk Octets × SliceAnswer :=
  match skeleton tree root with
  | (made,some error) => (made,.failed error.message)
  | (made,none) =>
    match openedAppend made root (stagingPath stagingName) with
    | .error error => (made,.failed error.message)
    | .ok (opened,staged) =>
      -- The file is the authority, not the caller's number.
      if staged.length ≠ offset then (opened,.conflict (words.staged staged.length offset))
      else
        match source with
        | .directory => (opened,.failed (SeamError.io ("copy slice into staging: " ++ errnoText .isDirectory)).message)
        | .file content => appendSlice words fate content opened staged root stagingName target offset maxBytes owned

def openedSource (fate : SliceFate) (opened : Except SeamError (Node Octets)) (missing : String) (escapes : String) :
    SliceAnswer ⊕ Node Octets :=
  match fate,opened with
  | .refuses error,_ => .inl (.failed error.message)
  | _,.error (.notFound what) => .inl (.notFound (what ++ missing))
  | _,.error (.pathEscape what) => .inl (.refused (what ++ escapes))
  | _,.error other => .inl (.failed other.message)
  | _,.ok node => .inr node

def NO_SHARE_ROOT : String := "no share root is configured; storage is not set up"

def BACKUP_UNAVAILABLE : String := "yedek diski bağlı değil; kurulmamış ya da kilitli olabilir"

def copyWords (source : List String) : SliceWords where
  staged := fun held expected =>
    "the staged copy is " ++ toString held ++ " bytes, the caller expected " ++ toString expected
  space := fun error => "no space for the copy of " ++ "/".intercalate source ++ ": " ++ error
  flush := fun error => "no space to flush the copy: " ++ error
  fsync := fun error => "fsync copy before publish: " ++ error
  missing := fun what => what ++ ": no such entry"
  taken := fun what => what ++ ": something is already there"

def copyFile (trees : CopyTrees) (fate : SliceFate) (share : String) (snapshot : Option String)
    (source target : List String) (stagingName : String) (offset maxBytes : Nat) : CopyTrees × SliceAnswer :=
  match trees.live with
  | none => (trees,.refused NO_SHARE_ROOT)
  | some live =>
    if source = [] ∨ target = [] then
      (trees,.refused "a copy needs a source and a destination; the share root is not a file")
    else if touchesAgentState source || touchesAgentState target then
      (trees,.refused (STAGING_DIR ++ "/ is the agent's own tree; use the transfer operations"))
    else
      let opened :=
        match snapshot with
        | some name => openedNode (trees.snapshots share name) [] source
        | none => openedNode live [share] source
      match openedSource fate opened ": no such entry" ": refused by the path confinement" with
      | .inl answer => (trees,answer)
      | .inr node =>
        let (tree,answer) := sliceInto (copyWords source) fate node live [share] stagingName target offset maxBytes true
        ({trees with live := some tree},answer)

def backupWords (source : List String) : SliceWords where
  staged := fun held expected => "ara dosya " ++ toString held ++ " bayt, çağıran " ++ toString expected ++ " bekliyordu"
  space := fun error => "yedek diskinde " ++ "/".intercalate source ++ " için yer yok: " ++ error
  flush := fun error => "yedeği diske yazarken yer kalmadı: " ++ error
  fsync := fun error => "fsync copy before publish: " ++ error
  missing := fun what => what ++ ": yedekte hedef dizin yok"
  taken := fun what => what ++ ": yedekte zaten bir dosya var"

def copyFileToBackup (trees : CopyTrees) (fate : SliceFate) (share : String) (source target : List String)
    (stagingName : String) (offset maxBytes : Nat) : CopyTrees × SliceAnswer :=
  match trees.live,trees.backup with
  | none,_ => (trees,.refused NO_SHARE_ROOT)
  | _,none => (trees,.refused BACKUP_UNAVAILABLE)
  | some live,some backup =>
    if target = [] then (trees,.refused "boş hedef yolu yedek kökünün kendisidir")
    else if touchesAgentState source then
      (trees,.refused (STAGING_DIR ++ "/ ajanın kendi ağacı ve yedeklenmiyor"))
    else
      match openedSource fate (openedNode live [share] source) ": kaynakta yok" ": yol sınırı reddetti" with
      | .inl answer => (trees,answer)
      | .inr node =>
        let (tree,answer) := sliceInto (backupWords source) fate node backup [] stagingName target offset maxBytes false
        ({trees with backup := some tree},answer)

def restoreWords : SliceWords where
  staged := fun held expected => "ara dosya " ++ toString held ++ " bayt, çağıran " ++ toString expected ++ " bekliyordu"
  space := fun error => "geri getirilecek yer yok: " ++ error
  flush := fun error => "geri getirmeyi diske yazarken yer kalmadı: " ++ error
  fsync := fun error => "fsync restore before publish: " ++ error
  missing := fun what => what ++ ": hedef dizin yok"
  taken := fun what => what ++ ": bu adla bir dosya zaten var"

def restoreFileFromBackup (trees : CopyTrees) (fate : SliceFate) (source : List String) (share : String)
    (target : List String) (stagingName : String) (offset maxBytes : Nat) : CopyTrees × SliceAnswer :=
  match trees.live,trees.backup with
  | none,_ => (trees,.refused NO_SHARE_ROOT)
  | _,none => (trees,.refused BACKUP_UNAVAILABLE)
  | some live,some backup =>
    if target = [] then (trees,.refused "boş hedef yolu paylaşımın kökünün kendisidir")
    else if touchesAgentState target then (trees,.refused (STAGING_DIR ++ "/ ajanın kendi ağacı"))
    else
      match openedSource fate (openedNode backup [] source) ": yedekte yok" ": yol sınırı reddetti" with
      | .inl answer => (trees,answer)
      | .inr node =>
        let (tree,answer) := sliceInto restoreWords fate node live [share] stagingName target offset maxBytes true
        ({trees with live := some tree},answer)

def Published (before after : Option (Node Octets)) (content : Octets) : Prop :=
  after = before ∨ (before = none ∧ after = some (.file content))

def Staged (tree : Disk Octets) (staging : List String) (content : Octets) (offset : Nat) : Prop :=
  offset = 0 ∨ (tree.lookup staging = some (.file (content.take offset)) ∧ offset ≤ content.length)

section Lookups

variable {tree made opened : Disk Octets} {root folders path target : List String} {name stagingName : String}

private theorem madeDir_elsewhere (ran : madeDir tree root folders name = .ok made)
    (other : path ≠ root ++ folders ++ [name]) : made.lookup path = tree.lookup path := by
  unfold madeDir at ran
  cases reached : openedBelow tree root folders with
  | error error => rw [reached] at ran; cases ran
  | ok _ =>
    rw [reached] at ran
    simp only [FileTree.mkdir,bind,Except.bind] at ran
    split at ran
    next created answered =>
      split at answered <;> cases answered
      cases ran
      rw [lookup_insert_eq,if_neg other]
    next => cases ran; rfl

theorem skeleton_elsewhere (outside : path ≠ [STAGING_DIR]) (apart : path ≠ [STAGING_DIR,STAGING_SUBDIR]) :
    (skeleton tree root).1.lookup (root ++ path) = tree.lookup (root ++ path) := by
  unfold skeleton
  cases one : madeDir tree root [] STAGING_DIR with
  | error error => rfl
  | ok first =>
    have before := @madeDir_elsewhere tree first root [] (root ++ path) STAGING_DIR one (by simpa using outside)
    cases two : madeDir first root [STAGING_DIR] STAGING_SUBDIR with
    | error error => simpa only [two] using before
    | ok second => simpa only [two] using (madeDir_elsewhere two (by simpa using apart)).trans before

theorem openedAppend_ok {staged : Octets} (ran : openedAppend tree root path = .ok (opened,staged)) :
    opened.lookup (root ++ path) = some (.file staged) ∧
      (∀ other, other ≠ root ++ path → opened.lookup other = tree.lookup other) ∧
      (∀ held, tree.lookup (root ++ path) = some (.file held) → staged = held) := by
  unfold openedAppend at ran
  cases reached : openedBelow tree root path.dropLast with
  | error error => rw [reached] at ran; cases ran
  | ok _ =>
    rw [reached] at ran
    simp only [bind,Except.bind] at ran
    split at ran
    next content found =>
      cases ran
      exact ⟨found,fun _ _ => rfl,fun held same => by rw [found] at same; cases same; rfl⟩
    next => cases ran
    next absent =>
      cases ran
      refine ⟨lookup_insert _,fun other different => ?_,fun held same => ?_⟩
      · rw [lookup_insert_eq,if_neg different]
      · rw [absent] at same
        cases same

variable {words : SliceWords} {fate : SliceFate} {now : Nat} {content : Octets}

theorem publishStaged_spec (staged : tree.lookup (root ++ stagingPath stagingName) = some (.file content)) :
    Published (tree.lookup (root ++ target))
        ((publishStaged words fate tree root stagingName target now).1.lookup (root ++ target)) content ∧
      (∀ offset done, (publishStaged words fate tree root stagingName target now).2 = .copied offset done →
        done = true ∧ offset = now ∧
        (publishStaged words fate tree root stagingName target now).1.lookup (root ++ target) = some (.file content)) := by
  unfold publishStaged
  cases reached : openedBelow tree root target.dropLast with
  | error error => cases error <;> exact ⟨.inl rfl,nofun⟩
  | ok _ =>
    simp only
    cases renamed : tree.rename (root ++ stagingPath stagingName) (root ++ target) with
    | error errno => cases errno <;> cases fate <;> exact ⟨.inl rfl,nofun⟩
    | ok moved =>
      have free : tree.lookup (root ++ target) = none ∧
          moved = FileTree.relocate tree (root ++ stagingPath stagingName) (root ++ target) := by
        unfold FileTree.rename at renamed
        split_ifs at renamed with missing taken inside
        cases renamed
        exact ⟨by simpa using taken,rfl⟩
      have there : moved.lookup (root ++ target) = some (.file content) := by
        rw [free.2,FileTree.lookup_renamed (by rw [staged]; rfl),staged]
      cases fate with
      | publishFails error => exact ⟨.inl rfl,nofun⟩
      | directorySyncFails error => exact ⟨.inr ⟨free.1,there⟩,nofun⟩
      | _ => exact ⟨.inr ⟨free.1,there⟩,fun offset done same => by cases same; exact ⟨rfl,rfl,there⟩⟩

theorem finishSlice_spec {owned : Bool} (staged : tree.lookup (root ++ stagingPath stagingName) = some (.file content)) :
    Published (tree.lookup (root ++ target))
        ((finishSlice words fate tree root stagingName target now owned).1.lookup (root ++ target)) content ∧
      (∀ offset done, (finishSlice words fate tree root stagingName target now owned).2 = .copied offset done →
        done = true ∧ offset = now ∧
        (finishSlice words fate tree root stagingName target now owned).1.lookup (root ++ target) = some (.file content)) := by
  unfold finishSlice
  split
  · exact ⟨.inl rfl,nofun⟩
  · exact ⟨.inl rfl,nofun⟩
  · exact ⟨.inl rfl,nofun⟩
  · exact publishStaged_spec staged

end Lookups

private theorem take_window (content : Octets) (offset size : Nat) :
    content.take offset ++ (content.drop offset).take size =
      content.take (offset + ((content.drop offset).take size).length) := by
  rw [take_add,length_take,← take_eq_take_min]

/-- A call leaves its destination alone or publishes the whole content there, and its
answer tells how much of it is staged.
-/
structure Faithful (before : Disk Octets) (root target : List String) (stagingName : String) (content : Octets)
    (offset maxBytes : Nat) (result : Disk Octets × SliceAnswer) : Prop where
  published : Published (before.lookup (root ++ target)) (result.1.lookup (root ++ target)) content
  finished : ∀ now, result.2 = .copied now true →
    now = content.length ∧ result.1.lookup (root ++ target) = some (.file content)
  onward : ∀ now, result.2 = .copied now false → Staged result.1 (root ++ stagingPath stagingName) content now ∧
    (0 < maxBytes → offset < now ∧ now ≤ content.length)

section Slices

variable {words : SliceWords} {fate : SliceFate} {content : Octets} {tree : Disk Octets} {root target : List String}
variable {stagingName : String} {offset maxBytes : Nat} {owned : Bool}

private theorem target_apart (outside : touchesAgentState target = false) {other : List String}
    (inside : other.head? = some STAGING_DIR) : root ++ target ≠ root ++ other := by
  intro same
  rw [append_cancel_left same] at outside
  simp [touchesAgentState,inside] at outside

theorem appendSlice_spec {opened : Disk Octets} (outside : touchesAgentState target = false)
    (short : offset ≤ content.length) :
    Faithful opened root target stagingName content offset maxBytes
      (appendSlice words fate content opened (content.take offset) root stagingName target offset maxBytes owned) := by
  have untouched (text : Octets) : (opened.insert (root ++ stagingPath stagingName) (.file text)).lookup
      (root ++ target) = opened.lookup (root ++ target) := by
    rw [lookup_insert_eq,if_neg (target_apart outside rfl)]
  unfold appendSlice
  extract_lets window appended now
  have grown : content.take offset ++ window = content.take (offset + window.length) := take_window content offset _
  split
  next written full error =>
    refine ⟨.inl (untouched _),fun now same => ?_,fun now same => ?_⟩
    all_goals cases full <;> cases same
  next =>
    have front : appended = opened.insert (root ++ stagingPath stagingName) (.file (content.take now)) := by
      simp only [appended,now,grown]
    rw [front]
    split_ifs with more
    · refine ⟨.inl (untouched _),nofun,fun later same => ?_⟩
      cases same
      refine ⟨.inr ⟨lookup_insert _,more.le⟩,fun positive => ⟨?_,more.le⟩⟩
      have room : 0 < min maxBytes MAX_COPY_SLICE := lt_min positive (by decide)
      have sized : window.length = min (min maxBytes MAX_COPY_SLICE) (content.length - offset) := by
        simp only [window,length_take,length_drop]
      simp only [now] at more ⊢
      omega
    · have whole : content.take now = content := take_of_length_le (not_lt.mp more)
      have exactly : now = content.length := by
        have inside : window.length ≤ content.length - offset := by
          simp only [window,length_take,length_drop]
          omega
        simp only [now] at more ⊢
        omega
      rw [whole,exactly]
      have ended := @finishSlice_spec (opened.insert (root ++ stagingPath stagingName) (.file content)) root target
        stagingName words fate content.length content owned (lookup_insert _)
      rw [untouched] at ended
      refine ⟨ended.1,fun now answered => (ended.2 now true answered).2,fun now answered => ?_⟩
      cases (ended.2 now false answered).1

theorem sliceInto_spec {source : Node Octets} (held : ∀ found, source = .file found → found = content)
    (outside : touchesAgentState target = false)
    (prior : Staged tree (root ++ stagingPath stagingName) content offset) :
    Faithful tree root target stagingName content offset maxBytes
      (sliceInto words fate source tree root stagingName target offset maxBytes owned) := by
  have made : (skeleton tree root).1.lookup (root ++ target) = tree.lookup (root ++ target) :=
    skeleton_elsewhere (fun same => target_apart outside rfl (congrArg (root ++ ·) same))
      (fun same => target_apart outside rfl (congrArg (root ++ ·) same))
  have kept : (skeleton tree root).1.lookup (root ++ stagingPath stagingName) =
      tree.lookup (root ++ stagingPath stagingName) := skeleton_elsewhere nofun nofun
  unfold sliceInto
  split
  next error built =>
    rw [built] at made
    exact ⟨.inl made,nofun,nofun⟩
  next base built =>
    rw [built] at made kept
    split
    next => exact ⟨.inl made,nofun,nofun⟩
    next opened staged ran =>
      obtain ⟨-,elsewhere,front⟩ := openedAppend_ok ran
      have same : opened.lookup (root ++ target) = tree.lookup (root ++ target) :=
        (elsewhere _ (target_apart outside rfl)).trans made
      split_ifs with differs
      · exact ⟨.inl same,nofun,nofun⟩
      · have begun : staged = content.take offset ∧ offset ≤ content.length := by
          rcases prior with rfl | ⟨stored,short⟩
          · exact ⟨length_eq_zero_iff.mp (not_not.mp differs),Nat.zero_le _⟩
          · exact ⟨front _ (kept.trans stored),short⟩
        cases source with
        | directory => exact ⟨.inl same,nofun,nofun⟩
        | file found =>
          rw [held found rfl]
          have appended := @appendSlice_spec words fate content root target stagingName offset maxBytes owned opened
            outside begun.2
          rw [begun.1]
          exact ⟨same ▸ appended.published,appended.finished,appended.onward⟩

end Slices

inductive SliceError where
  | outOfSpace (reason : String)
  | occupied (path : String)
  | refused (reason : String)
  | answered (status : String)
  | stalled (offset : Nat)
  | unfinished
  | unavailable

def SliceAnswer.status : SliceAnswer → String
  | .copied _ _ => "copied"
  | .conflict _ => "conflict"
  | .notFound _ => "not_found"
  | .refused _ => "refused"
  | .outOfSpace _ => "out_of_space"
  | .failed _ => "failed"

/-- How a loop goes on after an answer: with the next offset, or not at all. A copy
without bytes is one whose source has gone.
-/
abbrev SliceNext := Nat ⊕ Except SliceError (Option Nat)

def expectCopied : SliceAnswer → SliceNext
  | .copied offset done => if done then .inr (.ok (some offset)) else .inl offset
  | .refused reason => .inr (.error (.refused reason))
  | .failed reason => .inr (.error (.refused reason))
  | answer => .inr (.error (.answered answer.status))

/-- What happens around one call: others at work before it, where it fails, and whether
its reply, or the caller, is lost.
-/
structure SliceEvent where
  interfere : CopyTrees → CopyTrees
  fate : SliceFate
  lost : Bool

structure SliceRun where
  calls : List (CopyTrees × CopyTrees)
  ended : Option (Except SliceError (Option Nat))
  trees : CopyTrees

def slices (call : SliceFate → Nat → CopyTrees → CopyTrees × SliceAnswer) (next : Nat → SliceAnswer → SliceNext)
    (events : Nat → SliceEvent) : Nat → Nat → Nat → CopyTrees → SliceRun
  | 0,_,_,trees => ⟨[],none,trees⟩
  | left + 1,count,offset,trees =>
    let before := (events count).interfere trees
    let (after,answer) := call (events count).fate offset before
    if (events count).lost then ⟨[(before,after)],some (.error .unavailable),after⟩
    else
      match next offset answer with
      | .inr ended => ⟨[(before,after)],some ended,after⟩
      | .inl onward =>
        let rest := slices call next events left (count + 1) onward after
        {rest with calls := (before,after)::rest.calls}

def streamNext (share : String) (target : List String) (offset : Nat) : SliceAnswer → SliceNext
  | .outOfSpace reason => .inr (.error (.outOfSpace reason))
  | .conflict _ => .inr (.error (.occupied (share ++ "/" ++ "/".intercalate target)))
  | .copied now done =>
    if done then .inr (.ok (some now)) else if now ≤ offset then .inr (.error (.stalled offset)) else .inl now
  | answer => .inr (.error (.answered answer.status))

def MAX_SLICES : Nat := 1000000

def streamUpTo (cap size : Nat) (share : String) (snapshot : Option String) (source target : List String)
    (stagingName : String) (events : Nat → SliceEvent) (trees : CopyTrees) : SliceRun :=
  let run := slices (fun fate offset before => copyFile before fate share snapshot source target stagingName offset size)
    (streamNext share target) events cap 0 0 trees
  {run with ended := some (run.ended.getD (.error .unfinished))}

def stream : Nat → String → Option String → List String → List String → String → (Nat → SliceEvent) → CopyTrees →
    SliceRun :=
  streamUpTo MAX_SLICES

def FILES : String := "Dosyalar"

def tempPath (share : String) (parts : List String) (temp : String) : List String :=
  FILES::share::parts.dropLast ++ [temp]

def copyOneNext (_ : Nat) : SliceAnswer → SliceNext
  | .notFound _ => .inr (.ok none)
  | .outOfSpace reason => .inr (.error (.outOfSpace reason))
  | answer => expectCopied answer

def copyOneSlices (size : Nat) (share : String) (parts : List String) (temp stagingName : String)
    (events : Nat → SliceEvent) (steps : Nat) (trees : CopyTrees) : SliceRun :=
  slices (fun fate offset before =>
      copyFileToBackup before fate share parts (tempPath share parts temp) stagingName offset size)
    copyOneNext events steps 0 0 trees

def restoreNext (_ : Nat) : SliceAnswer → SliceNext
  | .refused reason => .inr (.error (.refused reason))
  | .failed reason => .inr (.error (.refused reason))
  | .notFound reason => .inr (.error (.refused reason))
  | .conflict reason => .inr (.error (.refused reason))
  | .outOfSpace reason => .inr (.error (.refused reason))
  | answer => expectCopied answer

def restoreSlices (size : Nat) (source : List String) (share : String) (target : List String) (stagingName : String)
    (events : Nat → SliceEvent) (steps : Nat) (trees : CopyTrees) : SliceRun :=
  slices (fun fate offset before => restoreFileFromBackup before fate source share target stagingName offset size)
    restoreNext events steps 0 0 trees

inductive CopyJob where
  | stream (share : String) (snapshot : Option String) (source target : List String)
  | copyOne (share : String) (parts : List String) (temp : String)
  | restore (source : List String) (share : String) (target : List String)

namespace CopyJob

def run (job : CopyJob) (size : Nat) (stagingName : String) (events : Nat → SliceEvent) (steps : Nat)
    (trees : CopyTrees) : SliceRun :=
  match job with
  | .stream share snapshot source target => Files.stream size share snapshot source target stagingName events trees
  | .copyOne share parts temp => copyOneSlices size share parts temp stagingName events steps trees
  | .restore source share target => restoreSlices size source share target stagingName events steps trees

def opens (job : CopyJob) (trees : CopyTrees) : Except SeamError (Node Octets) :=
  match job,trees.live,trees.backup with
  | .stream share (some name) source _,_,_ => openedNode (trees.snapshots share name) [] source
  | .stream share none source _,some live,_ => openedNode live [share] source
  | .copyOne share parts _,some live,_ => openedNode live [share] parts
  | .restore source _ _,_,some backup => openedNode backup [] source
  | _,_,_ => .error (.notFound "")

def home (job : CopyJob) (trees : CopyTrees) : Option (Disk Octets) :=
  match job with
  | .copyOne .. => trees.backup
  | _ => trees.live

def root : CopyJob → List String
  | .stream share _ _ _ => [share]
  | .copyOne .. => []
  | .restore _ share _ => [share]

def target : CopyJob → List String
  | .stream _ _ _ target => target
  | .copyOne share parts temp => tempPath share parts temp
  | .restore _ _ target => target

def entry (job : CopyJob) (trees : CopyTrees) (path : List String) : Option (Node Octets) :=
  (job.home trees).bind (fun tree => tree.lookup (job.root ++ path))

def call (job : CopyJob) (size : Nat) (stagingName : String) (fate : SliceFate) (offset : Nat) (trees : CopyTrees) :
    CopyTrees × SliceAnswer :=
  match job with
  | .stream share snapshot source target => copyFile trees fate share snapshot source target stagingName offset size
  | .copyOne share parts temp =>
    copyFileToBackup trees fate share parts (tempPath share parts temp) stagingName offset size
  | .restore source share target => restoreFileFromBackup trees fate source share target stagingName offset size

def Ready (job : CopyJob) (stagingName : String) (content : Octets) (trees : CopyTrees) (offset : Nat) : Prop :=
  offset = 0 ∨ (job.entry trees (stagingPath stagingName) = some (.file (content.take offset)) ∧ offset ≤ content.length)

structure Carries (job : CopyJob) (size : Nat) (stagingName : String) (content : Octets) (offset : Nat)
    (before : CopyTrees) (result : CopyTrees × SliceAnswer) : Prop where
  published : Published (job.entry before job.target) (job.entry result.1 job.target) content
  finished : ∀ now, result.2 = .copied now true →
    now = content.length ∧ job.entry result.1 job.target = some (.file content)
  onward : ∀ now, result.2 = .copied now false →
    job.Ready stagingName content result.1 now ∧ (0 < size → offset < now ∧ now ≤ content.length)

variable {job : CopyJob} {size offset : Nat} {stagingName : String} {content : Octets} {trees : CopyTrees}

private theorem carries_idle {answer : SliceAnswer} (other : ∀ now done, answer ≠ .copied now done) :
    job.Carries size stagingName content offset trees (trees,answer) :=
  ⟨.inl rfl,fun now same => absurd same (other now true),fun now same => absurd same (other now false)⟩

private theorem carries_home {tree made : Disk Octets} {after : CopyTrees} {answer : SliceAnswer}
    (was : job.home trees = some tree) (becomes : job.home after = some made)
    (faithful : Faithful tree job.root job.target stagingName content offset size (made,answer)) :
    job.Carries size stagingName content offset trees (after,answer) := by
  have before (path : List String) : job.entry trees path = tree.lookup (job.root ++ path) := by rw [entry,was]; rfl
  have later (path : List String) : job.entry after path = made.lookup (job.root ++ path) := by rw [entry,becomes]; rfl
  refine ⟨?_,fun now same => ?_,fun now same => ?_⟩
  · rw [before,later]
    exact faithful.published
  · rw [later]
    exact faithful.finished now same
  · rw [Ready,later]
    exact faithful.onward now same

private theorem ready_home {tree : Disk Octets} (was : job.home trees = some tree)
    (ready : job.Ready stagingName content trees offset) :
    Staged tree (job.root ++ stagingPath stagingName) content offset := by
  rw [Ready,entry,was] at ready
  exact ready

private theorem openedSource_idle {fate : SliceFate} {opened : Except SeamError (Node Octets)} {missing escapes : String}
    {answer : SliceAnswer} (refused : openedSource fate opened missing escapes = .inl answer) :
    ∀ now done, answer ≠ .copied now done := by
  intro now done same
  unfold openedSource at refused
  split at refused <;> (rw [same] at refused; cases refused)

private theorem openedSource_ok {fate : SliceFate} {opened : Except SeamError (Node Octets)} {missing escapes : String}
    {node : Node Octets} (found : openedSource fate opened missing escapes = .inr node) : opened = .ok node := by
  unfold openedSource at found
  split at found
  · cases found
  · cases found
  · cases found
  · cases found
  · cases found
    rfl

theorem call_carries {fate : SliceFate} (held : ∀ found, job.opens trees = .ok (.file found) → found = content)
    (ready : job.Ready stagingName content trees offset) :
    job.Carries size stagingName content offset trees (job.call size stagingName fate offset trees) := by
  cases job with
  | stream share snapshot source target =>
    simp only [call,copyFile]
    split
    next => exact carries_idle (by rintro _ _ ⟨⟩)
    next live here =>
      split_ifs with bare own
      · exact carries_idle (by rintro _ _ ⟨⟩)
      · exact carries_idle (by rintro _ _ ⟨⟩)
      · split
        next answer refused => exact carries_idle (openedSource_idle refused)
        next node found =>
          have outside : touchesAgentState target = false := by simpa using (Bool.or_eq_false_iff.mp (by simpa using own)).2
          refine carries_home here rfl (sliceInto_spec (fun content' same => held content' ?_) outside (ready_home here ready))
          have opened := openedSource_ok found
          rw [same] at opened
          cases snapshot with
          | none => simpa only [opens,here] using opened
          | some name => exact opened
  | copyOne share parts temp =>
    simp only [call,copyFileToBackup]
    split
    next => exact carries_idle (by rintro _ _ ⟨⟩)
    next => exact carries_idle (by rintro _ _ ⟨⟩)
    next live backup here there =>
      split_ifs with bare own
      · exact carries_idle (by rintro _ _ ⟨⟩)
      · exact carries_idle (by rintro _ _ ⟨⟩)
      · split
        next answer refused => exact carries_idle (openedSource_idle refused)
        next node found =>
          refine carries_home there rfl (sliceInto_spec (fun content' same => held content' ?_) rfl (ready_home there ready))
          have opened := openedSource_ok found
          rw [same] at opened
          simpa only [opens,here] using opened
  | restore source share target =>
    simp only [call,restoreFileFromBackup]
    split
    next => exact carries_idle (by rintro _ _ ⟨⟩)
    next => exact carries_idle (by rintro _ _ ⟨⟩)
    next live backup here there =>
      split_ifs with bare own
      · exact carries_idle (by rintro _ _ ⟨⟩)
      · exact carries_idle (by rintro _ _ ⟨⟩)
      · split
        next answer refused => exact carries_idle (openedSource_idle refused)
        next node found =>
          have outside : touchesAgentState target = false := by simpa using own
          refine carries_home here rfl (sliceInto_spec (fun content' same => held content' ?_) outside (ready_home here ready))
          have opened := openedSource_ok found
          rw [same] at opened
          simpa only [opens,there] using opened

def Still (job : CopyJob) (content : Octets) (run : SliceRun) : Prop :=
  ∀ call ∈ run.calls, ∀ found, job.opens call.1 = .ok (.file found) → found = content

instance (job : CopyJob) (content : Octets) (run : SliceRun) : Decidable (job.Still content run) :=
  decidable_of_iff (run.calls.all (fun call =>
      match job.opens call.1 with
      | .ok (.file found) => decide (found = content)
      | _ => true) = true) (by
    refine all_eq_true.trans (forall₂_congr (fun call _ => ?_))
    split
    next found opened => simp [opened,eq_comm]
    next other => exact iff_of_true rfl (fun found opened => (other found opened).elim))

def Undisturbed (job : CopyJob) (stagingName : String) (events : Nat → SliceEvent) : Prop :=
  ∀ count trees, job.entry ((events count).interfere trees) (stagingPath stagingName) =
    job.entry trees (stagingPath stagingName)

structure Exact (job : CopyJob) (content : Octets) (run : SliceRun) : Prop where
  published : ∀ call ∈ run.calls, Published (job.entry call.1 job.target) (job.entry call.2 job.target) content
  whole : ∀ bytes, run.ended = some (.ok (some bytes)) →
    bytes = content.length ∧ job.entry run.trees job.target = some (.file content)

variable {next : Nat → SliceAnswer → SliceNext} {events : Nat → SliceEvent}

def Heeds (next : Nat → SliceAnswer → SliceNext) : Prop :=
  (∀ offset answer now, next offset answer = .inl now → answer = .copied now false) ∧
    ∀ offset answer bytes, next offset answer = .inr (.ok (some bytes)) → answer = .copied bytes true

theorem slices_exact (heeds : Heeds next) (undisturbed : job.Undisturbed stagingName events) (left count : Nat)
    (ready : job.Ready stagingName content trees offset)
    (still : job.Still content (slices (job.call size stagingName) next events left count offset trees)) :
    job.Exact content (slices (job.call size stagingName) next events left count offset trees) ∧
      (0 < size → content.length < offset + left →
        (slices (job.call size stagingName) next events left count offset trees).ended.isSome) := by
  induction left generalizing count offset trees with
  | zero =>
    refine ⟨⟨fun call listed => absurd listed not_mem_nil,nofun⟩,fun _ room => ?_⟩
    rcases ready with rfl | ⟨-,short⟩
    · simp at room
    · simp at room
      omega
  | succ left ih =>
    have begun : job.Ready stagingName content ((events count).interfere trees) offset := by
      rwa [Ready,undisturbed]
    simp only [slices] at still ⊢
    obtain ⟨⟨after,answer⟩,called⟩ : ∃ result, job.call size stagingName (events count).fate offset
      ((events count).interfere trees) = result := ⟨_,rfl⟩
    rw [called] at still ⊢
    have carried (held : ∀ found, job.opens ((events count).interfere trees) = .ok (.file found) → found = content) :
        job.Carries size stagingName content offset ((events count).interfere trees) (after,answer) :=
      called ▸ call_carries held begun
    simp only at still ⊢
    split at still
    next lost =>
      rw [if_pos lost]
      have told := carried (still _ mem_cons_self)
      refine ⟨⟨fun call listed => ?_,nofun⟩,fun _ _ => rfl⟩
      rw [mem_singleton.mp listed]
      exact told.published
    next kept =>
      rw [if_neg kept]
      split at still
      next ended verdict =>
        have told := carried (still _ mem_cons_self)
        simp only
        refine ⟨⟨fun call listed => ?_,fun bytes same => ?_⟩,fun _ _ => rfl⟩
        · rw [mem_singleton.mp listed]
          exact told.published
        · cases same
          exact told.finished bytes (heeds.2 offset answer bytes verdict)
      next onward verdict =>
        have told := carried (still _ mem_cons_self)
        simp only
        obtain ⟨later,grown⟩ := told.onward onward (heeds.1 offset answer onward verdict)
        obtain ⟨held,ends⟩ := ih (count + 1) later (fun call listed => still call (mem_cons_of_mem _ listed))
        refine ⟨⟨fun call listed => ?_,held.whole⟩,fun positive room => ends positive ?_⟩
        · rcases mem_cons.mp listed with rfl | rest
          · exact told.published
          · exact held.published call rest
        · have more := (grown positive).1
          omega

theorem streamNext_heeds (share : String) (target : List String) : Heeds (streamNext share target) := by
  constructor
  · intro offset answer now verdict
    unfold streamNext at verdict
    split at verdict
    next => cases verdict
    next => cases verdict
    next reached done =>
      split_ifs at verdict with last stuck
      cases verdict
      rw [Bool.eq_false_iff.mpr last]
    next => cases verdict
  · intro offset answer bytes verdict
    unfold streamNext at verdict
    split at verdict
    next => cases verdict
    next => cases verdict
    next reached done =>
      split_ifs at verdict with last stuck
      · cases verdict
        rw [last]
      · cases verdict
    next => cases verdict

private theorem expectCopied_heeds : Heeds (fun _ => expectCopied) := by
  constructor
  · intro offset answer now verdict
    cases answer with
    | copied reached done => cases done <;> cases verdict; rfl
    | _ => cases verdict
  · intro offset answer bytes verdict
    cases answer with
    | copied reached done => cases done <;> cases verdict; rfl
    | _ => cases verdict

theorem copyOneNext_heeds : Heeds copyOneNext := by
  refine ⟨fun offset answer now verdict => ?_,fun offset answer bytes verdict => ?_⟩
  · cases answer <;> first | exact expectCopied_heeds.1 offset _ now verdict | cases verdict
  · cases answer <;> first | exact expectCopied_heeds.2 offset _ bytes verdict | cases verdict

theorem restoreNext_heeds : Heeds restoreNext := by
  refine ⟨fun offset answer now verdict => ?_,fun offset answer bytes verdict => ?_⟩
  · cases answer <;> first | exact expectCopied_heeds.1 offset _ now verdict | cases verdict
  · cases answer <;> first | exact expectCopied_heeds.2 offset _ bytes verdict | cases verdict

structure Delivery where
  stagingName : String
  events : Nat → SliceEvent

def redelivered (job : CopyJob) (size steps : Nat) : List Delivery → CopyTrees → List SliceRun
  | [],_ => []
  | delivery::rest,trees =>
    let run := job.run size delivery.stagingName delivery.events steps trees
    run::redelivered job size steps rest run.trees

/-- `stream` gives up after a million slices; the other loops go on as long as slices come. -/
def Bounded (job : CopyJob) (size steps : Nat) (content : Octets) : Prop :=
  match job with
  | .stream .. => True
  | _ => 0 < size ∧ content.length < steps

private theorem ended_whole {ended : Option (Except SliceError (Option Nat))} {bytes : Nat}
    (same : some (ended.getD (.error .unfinished)) = some (.ok (some bytes))) : ended = some (.ok (some bytes)) := by
  cases ended with
  | none => cases same
  | some verdict => exact same

private theorem streamUpTo_exact {share : String} {snapshot : Option String} {source target : List String}
    (cap : Nat)
    (still : Still (.stream share snapshot source target) content
      (streamUpTo cap size share snapshot source target stagingName events trees))
    (undisturbed : Undisturbed (.stream share snapshot source target) stagingName events) :
    Exact (.stream share snapshot source target) content
      (streamUpTo cap size share snapshot source target stagingName events trees) := by
  have ran := @slices_exact (.stream share snapshot source target) size 0 stagingName content trees _
    events (streamNext_heeds share target) undisturbed cap 0 (.inl rfl) still
  exact ⟨ran.1.published,fun bytes ended => ran.1.whole bytes (ended_whole ended)⟩

private theorem run_exact (size steps : Nat) (delivery : Delivery) (trees : CopyTrees)
    (still : job.Still content (job.run size delivery.stagingName delivery.events steps trees))
    (undisturbed : job.Undisturbed delivery.stagingName delivery.events) :
    job.Exact content (job.run size delivery.stagingName delivery.events steps trees) ∧
      (job.Bounded size steps content → (job.run size delivery.stagingName delivery.events steps trees).ended.isSome) := by
  cases job with
  | stream share snapshot source target =>
    exact ⟨streamUpTo_exact MAX_SLICES still undisturbed,fun _ => rfl⟩
  | copyOne share parts temp =>
    have ran := @slices_exact (.copyOne share parts temp) size 0 delivery.stagingName content trees _
      delivery.events copyOneNext_heeds undisturbed steps 0 (.inl rfl) still
    exact ⟨ran.1,fun bounded => ran.2 bounded.1 (by simpa using bounded.2)⟩
  | restore source share target =>
    have ran := @slices_exact (.restore source share target) size 0 delivery.stagingName content trees _
      delivery.events restoreNext_heeds undisturbed steps 0 (.inl rfl) still
    exact ⟨ran.1,fun bounded => ran.2 bounded.1 (by simpa using bounded.2)⟩

/-- Delivered however often, a sliced copy ends, never publishes over an entry, and
publishes nothing but the source, byte for byte.
-/
theorem sliced_copy_exact (job : CopyJob) (size steps : Nat) (content : Octets) (deliveries : List Delivery)
    (trees : CopyTrees) (still : ∀ run ∈ job.redelivered size steps deliveries trees, job.Still content run)
    (undisturbed : ∀ delivery ∈ deliveries, job.Undisturbed delivery.stagingName delivery.events) :
    ∀ run ∈ job.redelivered size steps deliveries trees,
      job.Exact content run ∧ (job.Bounded size steps content → run.ended.isSome) := by
  induction deliveries generalizing trees with
  | nil => exact fun run listed => absurd listed not_mem_nil
  | cons delivery rest ih =>
    intro run listed
    rcases mem_cons.mp listed with rfl | later
    · exact run_exact size steps delivery trees (still _ mem_cons_self) (undisturbed delivery mem_cons_self)
    · exact ih _ (fun other member => still other (mem_cons_of_mem _ member))
        (fun other member => undisturbed other (mem_cons_of_mem _ member)) run later

private def kept : CopyTrees where
  live := some (AList.insert ["s"] .directory ∅)
  backup := some (AList.insert ["d"] .directory (AList.insert ["d","a"] (.file [1,2,3]) ∅))
  snapshots := fun _ _ => ∅

private def quietly (_ : Nat) : SliceEvent := ⟨id,.through,false⟩

theorem sliced_copy_exact_restored :
    Exact (.restore ["d","a"] "s" ["b"]) [1,2,3] (run (.restore ["d","a"] "s" ["b"]) 2 "t.copy" quietly 5 kept) ∧
      (Bounded (.restore ["d","a"] "s" ["b"]) 2 5 [1,2,3] →
        (run (.restore ["d","a"] "s" ["b"]) 2 "t.copy" quietly 5 kept).ended.isSome) :=
  sliced_copy_exact (.restore ["d","a"] "s" ["b"]) 2 5 [1,2,3] [⟨"t.copy",quietly⟩] kept (by decide +kernel)
    (fun delivery listed => by
      rw [mem_singleton.mp listed]
      exact fun _ _ => rfl) _ mem_cons_self

end CopyJob

end Depsis.Files

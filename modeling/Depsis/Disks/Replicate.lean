import Depsis.Agent.Operands
import Depsis.Agent.Seams
import Depsis.Foundation.Components

/-! Replication onto a second dataset of the appliance, and what is refused before anything
is spawned: `zfs recv -F` destroys whatever is at the target.
-/
namespace Depsis.Disks.Replicate

open Depsis.Agent Depsis.Foundation Depsis.Foundation.Components

inductive DatasetNameError where
  | empty
  | tooLong (len max : Nat)
  | leadingDash
  | containsNul
  | containsDotDot
  | illegalChar (character : Char)

def datasetCharacter (character : Char) : Bool :=
  character.isAlphanum || [ '/', '_', '-', '.', ':'].contains character

def datasetRefusal (raw : String) : Option DatasetNameError :=
  if raw = "" then some .empty
  else if 255 < raw.utf8ByteSize then some (.tooLong raw.utf8ByteSize 255)
  else if raw.toList.head? = some '-' then some .leadingDash
  else if raw.toList.contains '\x00' then some .containsNul
  else if (raw.toList.splitOn '/').any (fun part => part = [] || part = [ '.'] || part = [ '.', '.']) then some .containsDotDot
  else (raw.toList.find? (fun character => !datasetCharacter character)).map .illegalChar

structure DatasetName where
  text : String
  valid : datasetRefusal text = none

inductive Refusal where
  | sameDataset
  | nested
  | targetIsShareRoot
  | targetInsideShares
deriving DecidableEq

def Refusal.reason : Refusal → String
  | .sameDataset => "the source and the target are the same dataset"
  | .nested => "the source and the target contain one another"
  | .targetIsShareRoot =>
    "the target is the dataset DEPSIS serves shares from; receiving onto it would destroy every share"
  | .targetInsideShares => "the target is inside the share tree; receiving onto it would destroy files"

def within (inner outer : String) : Bool := inner == outer || (outer ++ "/").toList.isPrefixOf inner.toList

def check (source target : String) (shareRootDataset : Option String) : Except Refusal Unit :=
  if source = target then .error .sameDataset
  else if within target source || within source target then .error .nested
  else
    match shareRootDataset with
    | some shares =>
      if target = shares then .error .targetIsShareRoot
      else if within target shares then .error .targetInsideShares
      else .ok ()
    | none => .ok ()

def sendArgv (sourceSnapshot : String) : Option String → List String
  | some base => ["send","-p","-i",base,sourceSnapshot]
  | none => ["send","-p",sourceSnapshot]

def recvArgv (target : String) : List String := ["recv","-F","-u",target]

def contains (said words : String) : Bool := said.toList.tails.any (fun rest => words.toList.isPrefixOf rest)

def incrementalRejected (error : SeamError) : Bool :=
  contains error.message "most recent snapshot" || contains error.message "incremental source"

structure ReplicateDataset where
  source : DatasetName
  snapshot : SafeComponent
  target : DatasetName
  base : Option SafeComponent

inductive Response where
  | refused (reason : String)
  | replicated (detail : String) (base : Option String)

def replicateDataset (shareDataset : Except SeamError (Option String))
    (runPiped : List String → List String → Except SeamError String) (request : ReplicateDataset) :
    Except SeamError Response × List (List String × List String) :=
  match shareDataset with
  | .error error => (.error error,[])
  | .ok shares =>
    match check request.source.text request.target.text shares with
    | .error refusal => (.ok (.refused refusal.reason),[])
    | .ok () =>
      let full := request.source.text ++ "@" ++ request.snapshot.text
      let base := request.base.map (fun base => request.source.text ++ "@" ++ base.text)
      let send := sendArgv full base
      let recv := recvArgv request.target.text
      match runPiped send recv with
      | .ok detail => (.ok (.replicated detail base),[(send,recv)])
      | .error error =>
        if incrementalRejected error then
          (.ok (.refused "the target does not hold the base snapshot; a full send is needed"),[(send,recv)])
        else (.error error,[(send,recv)])

variable {source target : String} {shares : Option String}

theorem within_iff (inner outer : String) : within inner outer = true ↔ Within '/' inner.toList outer.toList := by
  rw [Foundation.Components.within_iff,within,Bool.or_eq_true,beq_iff_eq,List.isPrefixOf_iff_prefix,String.toList_append]
  rw [String.toList_inj]
  rfl

/-- What `zfs recv -F` onto the target leaves alone: the source, the shares' dataset and every
dataset of a share below it, and whatever contains one of them. -/
def Spares (source target : String) (shares : Option String) : Prop :=
  Apart '/' target.toList source.toList ∧
    ∀ share, shares = some share → ∀ dataset, Within '/' dataset share.toList → Apart '/' target.toList dataset

/-- Nothing is spawned that was not checked, and nothing at all while it is unknown where the shares are. -/
theorem spawned_checked {shareDataset : Except SeamError (Option String)}
    {runPiped : List String → List String → Except SeamError String} {request : ReplicateDataset}
    {send recv : List String} (spawned : (send,recv) ∈ (replicateDataset shareDataset runPiped request).2) :
    recv = recvArgv request.target.text ∧
      ∃ shares, shareDataset = .ok shares ∧ check request.source.text request.target.text shares = .ok () := by
  unfold replicateDataset at spawned
  split at spawned
  · cases spawned
  · next shares =>
    split at spawned
    · cases spawned
    · next checked =>
      refine ⟨?_,shares,rfl,checked⟩
      simp only at spawned
      split at spawned
      · cases List.mem_singleton.mp spawned
        rfl
      · split at spawned
        all_goals
          cases List.mem_singleton.mp spawned
          rfl

theorem check_ok_iff : check source target shares = .ok () ↔
    Apart '/' target.toList source.toList ∧ ∀ share, shares = some share → ¬Within '/' target.toList share.toList := by
  have same : source = target → Within '/' target.toList source.toList := fun same => same ▸ Within.refl _ _
  unfold check
  split
  · next equal => simp [Apart,same equal]
  · split
    · next nested =>
      rw [Bool.or_eq_true,within_iff,within_iff] at nested
      rcases nested with inside | inside <;> simp [Apart,inside]
    · next apart =>
      rw [Bool.or_eq_true,within_iff,within_iff,not_or] at apart
      cases shares with
      | none => simp [Apart,apart]
      | some share =>
        simp only
        split
        · next root => simp [root,Within.refl]
        · split
          · next inside =>
            rw [within_iff] at inside
            simp [inside]
          · next outside =>
            rw [within_iff] at outside
            simp [Apart,apart,outside]

/-- Exactly the targets that spare the source and the shares are accepted, but for a target that
has the shares' dataset strictly below it and nothing to do with the source. -/
theorem check_spares : (check source target shares = .ok () ↔ Spares source target shares) ↔
    ∀ share, shares = some share → Within '/' share.toList target.toList → share ≠ target →
      ¬Apart '/' target.toList source.toList := by
  rw [check_ok_iff]
  constructor
  · intro exact share is above below other
    have outside : ∀ root, shares = some root → ¬Within '/' target.toList root.toList := by
      intro root named inside
      rw [is,Option.some.injEq] at named
      exact below (String.toList_inj.mp (above.antisymm (named ▸ inside)))
    exact ((exact.mp ⟨other,outside⟩).2 share is share.toList (Within.refl _ _)).2 above
  · intro condition
    constructor
    · rintro ⟨other,outside⟩
      refine ⟨other,fun share is dataset inside => ?_⟩
      have apart : Apart '/' target.toList share.toList := by
        refine ⟨outside share is,fun above => ?_⟩
        by_cases same : share = target
        · exact outside share is (same ▸ Within.refl _ _)
        · exact condition share is above same other
      exact apart.below inside
    · rintro ⟨other,spared⟩
      exact ⟨other,fun share is => (spared share is share.toList (Within.refl _ _)).1⟩

/-- The pool that holds the shares is taken as a target. -/
theorem pool_not_spared : check "backup/old" "tank" (some "tank/depsis") = .ok () ∧
    ¬Spares "backup/old" "tank" (some "tank/depsis") := by
  refine ⟨by decide +kernel,fun spares => (spares.2 _ rfl _ (Within.refl _ _)).2 ?_⟩
  rw [← within_iff]
  decide +kernel

end Depsis.Disks.Replicate

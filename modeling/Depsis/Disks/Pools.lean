import Depsis.Agent.Operands
import Depsis.Disks.Inventory

/-! The plan of a new pool. It sees only the flattened inventory; what it knows of
the hardware comes back through the place each row stands for.
-/
namespace Depsis.Disks

open Depsis.Agent List

inductive PoolTopology where
  | single | mirror | raidz1 | raidz2
deriving DecidableEq

namespace PoolTopology

def keyword : PoolTopology → Option String
  | .single => none
  | .mirror => some "mirror"
  | .raidz1 => some "raidz1"
  | .raidz2 => some "raidz2"

def name : PoolTopology → String
  | .single => "single"
  | .mirror => "mirror"
  | .raidz1 => "raidz1"
  | .raidz2 => "raidz2"

def minimumDisks : PoolTopology → Nat
  | .single => 1
  | .mirror => 2
  | .raidz1 => 3
  | .raidz2 => 4

def maximumDisks : PoolTopology → Option Nat
  | .single => some 1
  | _ => none

end PoolTopology

structure DiskRef where
  byId : SafeComponent
  wwn : String

def MAX_POOL_DISKS : Nat := 24
def BY_ID_DIR : String := "/dev/disk/by-id"

inductive PoolPlanError where
  | tooFewDisks (topology : String) (minimum given : Nat)
  | tooManyDisks (topology : String) (maximum given : Nat)
  | tooManyForOneCall (given : Nat)
  | duplicate (byId : String)
  | unknown (byId : String)
  | wwnMismatch (byId expected : String) (found : Option String)
  | systemDisk (byId : String)
  | notBlank (byId holds : String)
  | mounted (byId : String)
  | removable (byId : String)
  | poolMember (byId pool : String)

def find (inventory : List DiskInfo) (byId : String) : Option DiskInfo :=
  inventory.find? (fun disk => disk.byId = some byId)

def checkDisks (inventory : List DiskInfo) : List DiskRef → List String → Except PoolPlanError Unit
  | [],_ => .ok ()
  | disk::rest,seen =>
    let byId := disk.byId.text
    if seen.contains byId then .error (.duplicate byId)
    else match find inventory byId with
    | none => .error (.unknown byId)
    | some found =>
      if found.wwn ≠ some disk.wwn then .error (.wwnMismatch byId disk.wwn found.wwn)
      else if found.holdsSystem then .error (.systemDisk byId)
      else if found.mounted then .error (.mounted byId)
      else if !found.holds.isEmpty then .error (.notBlank byId (", ".intercalate found.holds))
      else if found.removable then .error (.removable byId)
      else checkDisks inventory rest (seen++[byId])

def devicePath (byId : SafeComponent) : String := BY_ID_DIR ++ "/" ++ byId.text

def createArgv (pool : String) (topology : PoolTopology) (disks : List DiskRef) : List String :=
  ["create","-O","acltype=posixacl","-O","xattr=sa","-O","relatime=on","-o","ashift=12","-m","none",pool] ++
    topology.keyword.toList ++ disks.map (fun disk => devicePath disk.byId)

def plan (pool : String) (topology : PoolTopology) (disks : List DiskRef) (inventory : List DiskInfo) :
    Except PoolPlanError (List String) :=
  if MAX_POOL_DISKS < disks.length then .error (.tooManyForOneCall disks.length)
  else if disks.length < topology.minimumDisks then
    .error (.tooFewDisks topology.name topology.minimumDisks disks.length)
  else match topology.maximumDisks.filter (fun maximum => maximum < disks.length) with
  | some maximum => .error (.tooManyDisks topology.name maximum disks.length)
  | none =>
    match checkDisks inventory disks [] with
    | .error error => .error error
    | .ok () => .ok (createArgv pool topology disks)

structure Fit (found : DiskInfo) (wwn : String) : Prop where
  wwn : found.wwn = some wwn
  system : found.holdsSystem = false
  mounted : found.mounted = false
  holds : found.holds = []
  removable : found.removable = false

theorem checkDisks_ok {inventory : List DiskInfo} {disks : List DiskRef} {seen : List String}
    (checked : checkDisks inventory disks seen = .ok ()) :
    (disks.map (fun disk => disk.byId.text)).Nodup ∧
      ∀ disk ∈ disks, disk.byId.text ∉ seen ∧ ∃ found, find inventory disk.byId.text = some found ∧
        Fit found disk.wwn := by
  induction disks generalizing seen with
  | nil => exact ⟨nodup_nil,fun disk none => absurd none not_mem_nil⟩
  | cons disk rest ih =>
    rw [checkDisks] at checked
    split at checked
    next => cases checked
    next unseen =>
      split at checked
      next => cases checked
      next found named =>
        split at checked
        next => cases checked
        next wwn =>
          split at checked
          next => cases checked
          next safe =>
            split at checked
            next => cases checked
            next unmounted =>
              split at checked
              next => cases checked
              next blank =>
                split at checked
                next => cases checked
                next fixed =>
                  obtain ⟨distinct,every⟩ := ih checked
                  have fit : Fit found disk.wwn := ⟨not_not.mp wwn,by simpa using safe,by simpa using unmounted,
                    by simpa using blank,by simpa using fixed⟩
                  refine ⟨?_,fun other member => ?_⟩
                  · rw [map_cons,nodup_cons]
                    refine ⟨fun again => ?_,distinct⟩
                    obtain ⟨other,member,same⟩ := mem_map.mp again
                    exact (every other member).1 (by simp [same])
                  · rcases mem_cons.mp member with rfl | later
                    · exact ⟨by simpa using unseen,found,named,fit⟩
                    · obtain ⟨apart,found⟩ := every other later
                      exact ⟨fun before => apart (mem_append_left _ before),found⟩

theorem plan_ok {pool : String} {topology : PoolTopology} {disks : List DiskRef} {inventory : List DiskInfo}
    {argv : List String} (planned : plan pool topology disks inventory = .ok argv) :
    argv = createArgv pool topology disks ∧ checkDisks inventory disks [] = .ok () ∧
      topology.minimumDisks ≤ disks.length ∧ disks.length ≤ MAX_POOL_DISKS ∧
      ∀ maximum, topology.maximumDisks = some maximum → disks.length ≤ maximum := by
  unfold plan at planned
  split at planned
  next => cases planned
  next bounded =>
    split at planned
    next => cases planned
    next enough =>
      split at planned
      next => cases planned
      next admitted =>
        split at planned <;> cases planned
        next checked =>
          refine ⟨rfl,checked,by omega,by omega,fun maximum bound => ?_⟩
          simpa [bound] using admitted

def Bare (under : List Columns) : Prop :=
  ∀ columns ∈ under, columns.points = [] ∧ columns.points.any SYSTEM_MOUNTS.contains = false ∧
    clean columns.fstype = none

/-- Hardware a pool may take: a bare disk, or a bare leaf partition of one, that is
still what was confirmed and cannot be unplugged. -/
inductive Blank (blockdevices : List Node) (wwn : String) : Device → Prop where
  | disk {index : Nat} {node : Node} (there : blockdevices[index]? = some node)
      (kind : node.columns.kind = some "disk") (bare : Bare node.subtree)
      (confirmed : clean node.columns.wwn = some wwn) (fixed : node.columns.rm.getD false = false) :
      Blank blockdevices wwn ⟨index,none⟩
  | part {index position : Nat} {node part : Node} (there : blockdevices[index]? = some node)
      (kind : node.columns.kind = some "disk") (inside : node.children[position]? = some part)
      (cut : part.columns.kind = some "part") (leaf : part.children = []) (bare : Bare part.subtree)
      (confirmed : (clean part.columns.wwn).or (clean node.columns.wwn) = some wwn)
      (fixed : node.columns.rm.getD false = false) : Blank blockdevices wwn ⟨index,some position⟩

theorem bare_convert {node : Node} {wwn : String} (fit : Fit (convert node) wwn) : Bare node.subtree := by
  intro columns inside
  have mounted := fit.mounted
  rw [convert_mounted,any_eq_false] at mounted
  have empty : columns.points = [] := by simpa using mounted columns inside
  refine ⟨empty,by simp [empty],?_⟩
  by_contra signed
  obtain ⟨signature,present⟩ := Option.ne_none_iff_exists'.mp signed
  have listed := (mem_convert_holds node signature).mpr (.inr ⟨columns,inside,present⟩)
  rw [fit.holds] at listed
  cases listed

theorem blank_of_fit {blockdevices : List Node} {device : Device} {info : DiskInfo} {wwn : String}
    (stands : Stands blockdevices device info) (fit : Fit info wwn) : Blank blockdevices wwn device := by
  cases stands with
  | disk there kind => exact .disk there kind (bare_convert fit) fit.wwn fit.removable
  | @part index position node part there kind system inside offered =>
    simp only [dataPartition,Bool.and_eq_true,decide_eq_true_eq,Columns.noteMounts_eq] at offered
    obtain ⟨⟨⟨⟨cut,leaf⟩,unmounted⟩,-⟩,-⟩ := offered
    have alone : part.children = [] := isEmpty_iff.mp leaf
    refine .part there kind inside cut alone (fun columns inside => ?_) fit.wwn fit.removable
    have own : columns = part.columns := by
      obtain ⟨own,children⟩ := part
      change children = [] at alone
      subst alone
      simpa [Node.subtree,subtrees,Node.columns] using inside
    subst own
    have empty : part.columns.points = [] := by simpa using unmounted
    refine ⟨empty,by simp [empty],?_⟩
    simpa [partitionInfo] using fit.holds

def deviceOf (blockdevices : List Node) (byId : SafeComponent) : Option Device :=
  (locate blockdevices byId.text).map Prod.fst

def ShareDisk (blockdevices : List Node) (first second : DiskRef) : Prop :=
  ∃ disk one other, deviceOf blockdevices first.byId = some ⟨disk,some one⟩ ∧
    deviceOf blockdevices second.byId = some ⟨disk,some other⟩

structure PoolSafe (blockdevices : List Node) (topology : PoolTopology) (disks : List DiskRef)
    (argv : List String) : Prop where
  blank : ∀ disk ∈ disks, ∃ device, deviceOf blockdevices disk.byId = some device ∧
    Blank blockdevices disk.wwn device
  exact : argv.filter (fun word => word.toList.head? = some '/') = disks.map (fun disk => devicePath disk.byId)
  once : (disks.map (fun disk => devicePath disk.byId)).Nodup
  unforced : "-f" ∉ argv
  enough : topology.minimumDisks ≤ disks.length
  admitted : ∀ maximum, topology.maximumDisks = some maximum → disks.length ≤ maximum
  apart : topology ≠ .single →
    (disks.map (fun disk => (deviceOf blockdevices disk.byId).map Device.disk)).Nodup

theorem devicePath_injective {first second : SafeComponent} (same : devicePath first = devicePath second) :
    first = second := by
  apply SafeComponent.text_injective
  apply String.toList_inj.mp
  simpa [devicePath,← String.toList_inj] using same

theorem devicePath_head (byId : SafeComponent) : (devicePath byId).toList.head? = some '/' := by
  simp [devicePath,BY_ID_DIR]

theorem createArgv_paths (pool : SafeComponent) (topology : PoolTopology) (disks : List DiskRef) :
    (createArgv pool.text topology disks).filter (fun word => word.toList.head? = some '/') =
      disks.map (fun disk => devicePath disk.byId) := by
  have named : pool.text.toList.head? ≠ some '/' := fun slash => pool.no_slash (mem_of_head? slash)
  have word : topology.keyword.toList.filter (fun word => word.toList.head? = some '/') = [] := by
    cases topology <;> rfl
  have paths : (disks.map (fun disk => devicePath disk.byId)).filter (fun word => word.toList.head? = some '/') =
      disks.map (fun disk => devicePath disk.byId) := by
    refine filter_eq_self.mpr (fun path member => ?_)
    obtain ⟨disk,-,rfl⟩ := mem_map.mp member
    simpa using devicePath_head disk.byId
  rw [createArgv,filter_append,filter_append,word,paths]
  simp [named]

theorem createArgv_unforced (pool : SafeComponent) (topology : PoolTopology) (disks : List DiskRef) :
    "-f" ∉ createArgv pool.text topology disks := by
  intro member
  rcases mem_append.mp member with front | path
  · rcases mem_append.mp front with option | word
    · simp only [mem_cons,not_mem_nil,or_false] at option
      rcases option with same | same | same | same | same | same | same | same | same | same | same | same <;>
        first
        | exact absurd same (by decide)
        | exact pool.no_dash (by rw [← same]; rfl)
    · cases topology <;> simp [PoolTopology.keyword] at word
  · obtain ⟨disk,-,same⟩ := mem_map.mp path
    have head := devicePath_head disk.byId
    rw [same] at head
    cases head

theorem share_disk {blockdevices : List Node} {first second : DiskRef} {here there : Device}
    {left right : DiskInfo} (distinct : first.byId.text ≠ second.byId.text)
    (one : locate blockdevices first.byId.text = some (here,left))
    (other : locate blockdevices second.byId.text = some (there,right))
    (fit : Fit left first.wwn) (also : Fit right second.wwn) (same : here.disk = there.disk) :
    ShareDisk blockdevices first second := by
  obtain ⟨stands,named⟩ := stands_of_located one
  obtain ⟨standing,called⟩ := stands_of_located other
  cases stands with
  | @disk index node place =>
    cases standing with
    | disk again =>
      cases same
      cases place.symm.trans again
      exact absurd (Option.some.inj (named.symm.trans called)) distinct
    | part again _ system =>
      cases same
      cases place.symm.trans again
      cases system.symm.trans fit.system
  | @part index position node part place _ system =>
    cases standing with
    | disk again =>
      cases same
      cases place.symm.trans again
      cases system.symm.trans also.system
    | @part _ another _ _ again =>
      cases same
      exact ⟨index,position,another,by rw [deviceOf,one]; rfl,by rw [deviceOf,other]; rfl⟩

/-- A pool that is planned never takes the system, occupied or unplugged hardware; its
redundancy is real exactly when it is not built of two partitions of one disk. -/
theorem pool_safe_iff {blockdevices : List Node} {inventory : List DiskInfo} {truncated : Bool}
    {pool : SafeComponent} {topology : PoolTopology} {disks : List DiskRef} {argv : List String}
    (parsed : parse blockdevices = .ok (inventory,truncated))
    (planned : plan pool.text topology disks inventory = .ok argv) :
    PoolSafe blockdevices topology disks argv ↔
      topology = .single ∨ disks.Pairwise (fun first second => ¬ShareDisk blockdevices first second) := by
  obtain ⟨rfl,checked,enough,-,admitted⟩ := plan_ok planned
  obtain ⟨distinct,every⟩ := checkDisks_ok checked
  have located (disk : DiskRef) (member : disk ∈ disks) : ∃ device info,
      locate blockdevices disk.byId.text = some (device,info) ∧ Fit info disk.wwn := by
    obtain ⟨-,found,named,fit⟩ := every disk member
    obtain ⟨device,there⟩ := locate_of_found parsed named
    exact ⟨device,found,there,fit⟩
  constructor
  · intro safe
    refine or_iff_not_imp_left.mpr (fun redundant => ?_)
    refine (pairwise_map.mp (safe.apart redundant)).imp (fun different ⟨disk,one,other,here,there⟩ => ?_)
    exact different (by rw [here,there]; rfl)
  · intro condition
    refine ⟨fun disk member => ?_,createArgv_paths pool topology disks,?_,createArgv_unforced pool topology disks,
      enough,admitted,fun redundant => ?_⟩
    · obtain ⟨device,info,there,fit⟩ := located disk member
      exact ⟨device,by rw [deviceOf,there]; rfl,blank_of_fit (stands_of_located there).1 fit⟩
    · rw [nodup_iff_pairwise_ne,pairwise_map] at distinct ⊢
      exact distinct.imp (fun different same => different (congrArg SafeComponent.text (devicePath_injective same)))
    · have spread := condition.resolve_left redundant
      rw [nodup_iff_pairwise_ne,pairwise_map] at distinct ⊢
      refine (distinct.and spread).imp_of_mem (fun {first second} left right ⟨different,apart⟩ same => apart ?_)
      obtain ⟨here,info,one,fit⟩ := located first left
      obtain ⟨there,other,two,also⟩ := located second right
      refine share_disk different one two fit also ?_
      simpa [deviceOf,one,two] using same

private def unnamed : Columns :=
  ⟨none,none,none,none,none,none,none,none,none,none,none,none,none,none⟩

private def blankDisk (kname idLink wwn : String) : Node :=
  ⟨{unnamed with kname := some kname, kind := some "disk", wwn := some wwn, idLink := some idLink},[]⟩

private def blankPart (idLink : String) : Node :=
  ⟨{unnamed with kind := some "part", size := some 500000000000, wwn := some "0x5", idLink := some idLink},[]⟩

private def rootPart : Node :=
  ⟨{unnamed with kind := some "part", fstype := some "ext4", mountpoints := some [some "/"]},[]⟩

private def systemDisk : Node :=
  ⟨{unnamed with kind := some "disk", wwn := some "0x5", pttype := some "gpt", idLink := some "ata-S"},[rootPart,blankPart "ata-S-part2",blankPart "ata-S-part3"]⟩

private def tank : SafeComponent := ⟨"tank",by decide⟩

private def mirrored : List DiskRef := [⟨⟨"ata-A",by decide⟩,"0xA"⟩,⟨⟨"ata-B",by decide⟩,"0xB"⟩]

private def twoDisks : List Node := [systemDisk,blankDisk "sdb" "ata-A" "0xA",blankDisk "sdc" "ata-B" "0xB"]

theorem pool_safe_mirror : ∃ argv, PoolSafe twoDisks .mirror mirrored argv := by
  obtain ⟨inventory,truncated,parsed⟩ : ∃ inventory truncated, parse twoDisks = .ok (inventory,truncated) := ⟨_,_,rfl⟩
  obtain ⟨argv,planned⟩ : ∃ argv, plan tank.text .mirror mirrored inventory = .ok argv := by
    cases parsed
    exact ⟨_,rfl⟩
  refine ⟨argv,(pool_safe_iff parsed planned).mpr (.inr ?_)⟩
  refine pairwise_pair.mpr (fun ⟨disk,one,other,here,there⟩ => ?_)
  cases here

/-- Two partitions of the disk the box boots from pass for a mirror. -/
theorem pool_unsafe_on_one_disk : ¬∀ (blockdevices : List Node) (inventory : List DiskInfo) (truncated : Bool)
    (pool : SafeComponent) (topology : PoolTopology) (disks : List DiskRef) (argv : List String),
    parse blockdevices = .ok (inventory,truncated) → plan pool.text topology disks inventory = .ok argv →
    PoolSafe blockdevices topology disks argv := by
  intro always
  have safe := always [systemDisk] _ _ tank .mirror
    [⟨⟨"ata-S-part2",by decide⟩,"0x5"⟩,⟨⟨"ata-S-part3",by decide⟩,"0x5"⟩] _ rfl rfl
  exact absurd (safe.apart (by decide)) (by decide)

end Depsis.Disks

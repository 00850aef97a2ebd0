import Depsis.Foundation.Text

/-! What `lsblk` reports, folded into one row for each disk and for each data
partition of the system disk.
-/
namespace Depsis.Disks

open Depsis.Foundation List

structure Columns where
  kname : Option String
  kind : Option String
  size : Option Nat
  model : Option String
  serial : Option String
  wwn : Option String
  rota : Option Bool
  rm : Option Bool
  tran : Option String
  fstype : Option String
  pttype : Option String
  mountpoint : Option String
  mountpoints : Option (List (Option String))
  idLink : Option String

inductive Node where
  | mk (columns : Columns) (children : List Node)

namespace Node

def columns : Node → Columns
  | ⟨columns,_⟩ => columns

def children : Node → List Node
  | ⟨_,children⟩ => children

end Node

structure DiskInfo where
  byId : Option String
  kname : String
  sizeBytes : Nat
  model : Option String
  serial : Option String
  wwn : Option String
  rotational : Bool
  removable : Bool
  transport : Option String
  holds : List String
  mounted : Bool
  holdsSystem : Bool

def MAX_DISKS : Nat := 256
def MIN_DATA_PARTITION : Nat := 8 * 1024 * 1024 * 1024
def SYSTEM_MOUNTS : List String := ["/","/boot","/boot/efi","/efi"]

def clean (value : Option String) : Option String :=
  match value.map (fun text => Text.trim text.toList) with
  | none => none
  | some [] => none
  | some text => some (String.ofList text)

structure Contents where
  holds : List String
  mounted : Bool
  system : Bool

namespace Columns

/-- The mount points of `note_mounts`: the plural column where there is one. -/
def points (columns : Columns) : List String :=
  match columns.mountpoints with
  | some list => list.filterMap clean
  | none => (clean columns.mountpoint).toList

def noteMounts (columns : Columns) (contents : Contents) : Contents :=
  columns.points.foldl (fun contents point =>
    {contents with mounted := true, system := contents.system || SYSTEM_MOUNTS.contains point}) contents

def noteFstype (columns : Columns) (contents : Contents) : Contents :=
  match clean columns.fstype with
  | none => contents
  | some fstype =>
    if contents.holds.contains fstype then contents else {contents with holds := contents.holds++[fstype]}

end Columns

mutual

def collect : Node → Contents → Contents
  | ⟨columns,children⟩,contents =>
    columns.noteMounts (columns.noteFstype (collectChildren children contents))

def collectChildren : List Node → Contents → Contents
  | [],contents => contents
  | child::rest,contents =>
    collectChildren rest (collect child (child.columns.noteMounts (child.columns.noteFstype contents)))

end

def dedup : List String → List String
  | [] => []
  | [only] => [only]
  | first::second::rest => if first = second then dedup (second::rest) else first::dedup (second::rest)

def convert (node : Node) : DiskInfo :=
  let contents := collect node ⟨(clean node.columns.pttype).toList,false,false⟩
  { byId := clean node.columns.idLink
    kname := (clean node.columns.kname).getD "?"
    sizeBytes := node.columns.size.getD 0
    model := clean node.columns.model
    serial := clean node.columns.serial
    wwn := clean node.columns.wwn
    rotational := node.columns.rota.getD false
    removable := node.columns.rm.getD false
    transport := clean node.columns.tran
    holds := dedup contents.holds
    mounted := contents.mounted
    holdsSystem := contents.system }

def dataPartition (part : Node) : Bool :=
  part.columns.kind = some "part" && part.children.isEmpty &&
    !(part.columns.noteMounts ⟨[],false,false⟩).mounted &&
    MIN_DATA_PARTITION ≤ part.columns.size.getD 0 &&
    (clean part.columns.fstype = none || clean part.columns.fstype = some "zfs_member")

def partitionInfo (disk part : Node) : DiskInfo where
  byId := clean part.columns.idLink
  kname := (clean part.columns.kname).getD "?"
  sizeBytes := part.columns.size.getD 0
  model := clean disk.columns.model
  serial := clean disk.columns.serial
  wwn := (clean part.columns.wwn).or (clean disk.columns.wwn)
  rotational := disk.columns.rota.getD false
  removable := disk.columns.rm.getD false
  transport := clean disk.columns.tran
  holds := (clean part.columns.fstype).toList
  mounted := false
  holdsSystem := false

def dataPartitions (disk : Node) : List DiskInfo :=
  (disk.children.filter dataPartition).map (partitionInfo disk)

def pushParts : List DiskInfo → List DiskInfo → Bool → List DiskInfo × Bool
  | [],disks,truncated => (disks,truncated)
  | part::rest,disks,truncated =>
    if MAX_DISKS ≤ disks.length then (disks,true) else pushParts rest (disks++[part]) truncated

def parseFrom : List Node → List DiskInfo → Bool → Except String (List DiskInfo × Bool)
  | [],disks,truncated => .ok (disks,truncated)
  | node::rest,disks,truncated =>
    if node.columns.kind = some "part" then
      .error "lsblk returned a flat list: a partition appears at the top level, so no disk's                  content can be read from it"
    else if node.columns.kind ≠ some "disk" then parseFrom rest disks truncated
    else if MAX_DISKS ≤ disks.length then .ok (disks,true)
    else if (convert node).holdsSystem then
      let (pushed,cut) := pushParts (dataPartitions node) (disks++[convert node]) truncated
      parseFrom rest pushed cut
    else parseFrom rest (disks++[convert node]) truncated

/-- `parse`, from the devices `serde_json` reads out of the text. -/
def parse (blockdevices : List Node) : Except String (List DiskInfo × Bool) := parseFrom blockdevices [] false

mutual

def Node.subtree : Node → List Columns
  | ⟨columns,children⟩ => columns::subtrees children

def subtrees : List Node → List Columns
  | [] => []
  | child::rest => child.subtree++subtrees rest

end

theorem columns_mem_subtree (node : Node) : node.columns ∈ node.subtree := by
  obtain ⟨columns,children⟩ := node
  exact mem_cons_self

namespace Columns

variable {columns : Columns} {contents : Contents}

theorem noteMounts_eq : columns.noteMounts contents =
    { holds := contents.holds
      mounted := contents.mounted || !columns.points.isEmpty
      system := contents.system || columns.points.any SYSTEM_MOUNTS.contains } := by
  unfold noteMounts
  induction columns.points generalizing contents with
  | nil => simp
  | cons point rest ih =>
    rw [foldl_cons,ih]
    simp [Bool.or_assoc]

theorem noteFstype_mounted : (columns.noteFstype contents).mounted = contents.mounted := by
  unfold noteFstype
  split
  next => rfl
  next => split <;> rfl

theorem noteFstype_system : (columns.noteFstype contents).system = contents.system := by
  unfold noteFstype
  split
  next => rfl
  next => split <;> rfl

theorem mem_noteFstype {signature : String} : signature ∈ (columns.noteFstype contents).holds ↔
    signature ∈ contents.holds ∨ clean columns.fstype = some signature := by
  unfold noteFstype
  split
  next absent => simp [absent]
  next fstype present =>
    simp only [present,Option.some.injEq]
    split
    next listed =>
      refine ⟨Or.inl,fun either => either.elim id (fun same => ?_)⟩
      exact same ▸ contains_iff_mem.mp listed
    next => simp [eq_comm]

end Columns

structure Gathers (under : List Columns) (before after : Contents) : Prop where
  mounted : after.mounted = (before.mounted || under.any (fun columns => !columns.points.isEmpty))
  system : after.system = (before.system || under.any (fun columns => columns.points.any SYSTEM_MOUNTS.contains))
  holds : ∀ signature, signature ∈ after.holds ↔
    signature ∈ before.holds ∨ ∃ columns ∈ under, clean columns.fstype = some signature

namespace Gathers

variable {first second : List Columns} {before middle after : Contents}

theorem trans (here : Gathers first before middle) (later : Gathers second middle after) :
    Gathers (first++second) before after := by
  constructor
  · rw [later.mounted,here.mounted,any_append,Bool.or_assoc]
  · rw [later.system,here.system,any_append,Bool.or_assoc]
  · intro signature
    rw [later.holds,here.holds]
    simp [or_assoc,or_and_right,exists_or]

theorem congr (gathers : Gathers first before after) (same : ∀ columns, columns ∈ first ↔ columns ∈ second) :
    Gathers second before after := by
  have any (test : Columns → Bool) : first.any test = second.any test := by
    rw [Bool.eq_iff_iff]
    simp [same]
  refine ⟨(any _) ▸ gathers.mounted,(any _) ▸ gathers.system,fun signature => ?_⟩
  rw [gathers.holds]
  simp [same]

theorem one (columns : Columns) (contents : Contents) :
    Gathers [columns] contents (columns.noteMounts (columns.noteFstype contents)) := by
  constructor <;> simp [Columns.noteMounts_eq,Columns.noteFstype_mounted,Columns.noteFstype_system,
    Columns.mem_noteFstype]

end Gathers

mutual

theorem collect_gathers : (node : Node) → (contents : Contents) →
    Gathers node.subtree contents (collect node contents)
  | ⟨columns,children⟩,contents => by
    have below := (collectChildren_gathers children contents).trans (.one columns _)
    exact below.congr (fun other => by simp [Node.subtree,or_comm])

theorem collectChildren_gathers : (children : List Node) → (contents : Contents) →
    Gathers (subtrees children) contents (collectChildren children contents)
  | [],contents => ⟨by simp [collectChildren,subtrees],by simp [collectChildren,subtrees],
      fun signature => by simp [collectChildren,subtrees]⟩
  | child::rest,contents => by
    have here := (Gathers.one child.columns contents).trans (collect_gathers child _)
    have whole := here.trans (collectChildren_gathers rest _)
    refine whole.congr (fun other => ?_)
    have own := columns_mem_subtree child
    simp only [subtrees,mem_append,mem_singleton]
    constructor
    · rintro ((rfl | inside) | later)
      · exact .inl own
      · exact .inl inside
      · exact .inr later
    · rintro (inside | later)
      · exact .inl (.inr inside)
      · exact .inr later

end

theorem mem_dedup {name : String} (names : List String) : name ∈ dedup names ↔ name ∈ names := by
  induction names using dedup.induct with
  | case1 => rfl
  | case2 => rfl
  | case3 first rest ih => simp [dedup,ih]
  | case4 first second rest different ih => simp [dedup,different,ih]

theorem convert_mounted (node : Node) : (convert node).mounted =
    node.subtree.any (fun columns => !columns.points.isEmpty) := by
  have gathers := collect_gathers node ⟨(clean node.columns.pttype).toList,false,false⟩
  exact gathers.mounted.trans (Bool.false_or _)

theorem convert_holdsSystem (node : Node) : (convert node).holdsSystem =
    node.subtree.any (fun columns => columns.points.any SYSTEM_MOUNTS.contains) := by
  have gathers := collect_gathers node ⟨(clean node.columns.pttype).toList,false,false⟩
  exact gathers.system.trans (Bool.false_or _)

theorem mem_convert_holds (node : Node) (signature : String) : signature ∈ (convert node).holds ↔
    clean node.columns.pttype = some signature ∨
      ∃ columns ∈ node.subtree, clean columns.fstype = some signature := by
  have gathers := collect_gathers node ⟨(clean node.columns.pttype).toList,false,false⟩
  rw [convert,mem_dedup,gathers.holds]
  simp

/-- The flags of a disk are those of its whole `lsblk` tree, at whatever depth. -/
theorem convert_exact (node : Node) :
    ((convert node).mounted = true ↔ ∃ columns ∈ node.subtree, columns.points ≠ []) ∧
    ((convert node).holdsSystem = true ↔ ∃ columns ∈ node.subtree, ∃ point ∈ columns.points, point ∈ SYSTEM_MOUNTS) ∧
    ∀ signature, signature ∈ (convert node).holds ↔
      clean node.columns.pttype = some signature ∨ ∃ columns ∈ node.subtree, clean columns.fstype = some signature := by
  refine ⟨?_,?_,mem_convert_holds node⟩
  · simp [convert_mounted]
  · simp [convert_holdsSystem]

structure Device where
  disk : Nat
  partition : Option Nat

def reportsOf (disk : Node) (index : Nat) : List (Device × DiskInfo) :=
  (⟨index,none⟩,convert disk)::
    if (convert disk).holdsSystem then
      (disk.children.zipIdx.filter (fun part => dataPartition part.1)).map
        (fun part => (⟨index,some part.2⟩,partitionInfo disk part.1))
    else []

/-- Every row an unbounded `parse` would give, with its place. -/
def reported (blockdevices : List Node) (start : Nat) : List (Device × DiskInfo) :=
  match blockdevices with
  | [] => []
  | node::rest =>
    (if node.columns.kind = some "disk" then reportsOf node start else []) ++ reported rest (start + 1)

theorem reportsOf_rows (disk : Node) (index : Nat) : (reportsOf disk index).map Prod.snd =
    convert disk::if (convert disk).holdsSystem then dataPartitions disk else [] := by
  rw [reportsOf,map_cons]
  congr 1
  split
  next =>
    rw [map_map,dataPartitions]
    conv_rhs => rw [← zipIdx_map_fst 0 disk.children,filter_map,map_map]
    rfl
  next => rfl

theorem pushParts_spec (parts disks : List DiskInfo) (truncated : Bool) :
    (∃ cut, (pushParts parts disks truncated).1 = disks++parts.take cut) ∧
      ((pushParts parts disks truncated).1 = disks++parts ∨
        MAX_DISKS ≤ (pushParts parts disks truncated).1.length) := by
  induction parts generalizing disks with
  | nil => exact ⟨⟨0,by simp [pushParts]⟩,.inl (by simp [pushParts])⟩
  | cons part rest ih =>
    rw [pushParts]
    split
    next full => exact ⟨⟨0,by simp⟩,.inr full⟩
    next =>
      obtain ⟨⟨cut,taken⟩,whole⟩ := ih (disks++[part])
      refine ⟨⟨cut+1,by simp [taken]⟩,whole.imp_left (fun same => by simp [same])⟩

theorem parseFrom_full {nodes : List Node} {disks inventory : List DiskInfo} {truncated cut : Bool}
    (full : MAX_DISKS ≤ disks.length) (parsed : parseFrom nodes disks truncated = .ok (inventory,cut)) :
    inventory = disks := by
  induction nodes with
  | nil => cases parsed; rfl
  | cons node rest ih =>
    rw [parseFrom] at parsed
    split at parsed
    next => cases parsed
    next =>
      split at parsed
      next => exact ih parsed
      next =>
        cases parsed
        rfl

theorem parseFrom_prefix {nodes : List Node} {disks inventory : List DiskInfo} {truncated cut : Bool}
    (start : Nat) (parsed : parseFrom nodes disks truncated = .ok (inventory,cut)) :
    inventory <+: disks++(reported nodes start).map Prod.snd := by
  induction nodes generalizing disks truncated start with
  | nil =>
    cases parsed
    simp [reported]
  | cons node rest ih =>
    rw [parseFrom] at parsed
    rw [reported]
    split at parsed
    next => cases parsed
    next =>
      split at parsed
      next other =>
        rw [if_neg other,nil_append]
        exact ih _ parsed
      next disk =>
        rw [if_pos (not_not.mp disk),map_append,reportsOf_rows]
        split at parsed
        next =>
          cases parsed
          exact prefix_append _ _
        next =>
          split at parsed
          next system =>
            rw [if_pos system]
            obtain ⟨⟨taken,pushed⟩,whole | full⟩ :=
              pushParts_spec (dataPartitions node) (disks++[convert node]) truncated
            · have rest := ih (start+1) parsed
              rw [whole] at rest
              simpa using rest
            · rw [parseFrom_full full parsed,pushed]
              have kept := List.take_prefix taken (dataPartitions node)
              simpa using kept.trans (prefix_append _ _)
          next safe =>
            rw [if_neg safe]
            simpa using ih (start+1) parsed

def locate (blockdevices : List Node) (byId : String) : Option (Device × DiskInfo) :=
  (reported blockdevices 0).find? (fun row => row.2.byId = some byId)

theorem locate_of_found {blockdevices : List Node} {inventory : List DiskInfo} {truncated : Bool} {byId : String}
    {found : DiskInfo} (parsed : parse blockdevices = .ok (inventory,truncated))
    (named : inventory.find? (fun disk => disk.byId = some byId) = some found) :
    ∃ device, locate blockdevices byId = some (device,found) := by
  obtain ⟨later,whole⟩ := parseFrom_prefix 0 parsed
  rw [nil_append] at whole
  have first : ((reported blockdevices 0).map Prod.snd).find? (fun disk => disk.byId = some byId) = some found := by
    rw [← whole,find?_append,named]
    rfl
  rw [find?_map] at first
  obtain ⟨⟨device,info⟩,located,same⟩ := Option.map_eq_some_iff.mp first
  cases same
  exact ⟨device,located⟩

inductive Stands (blockdevices : List Node) : Device → DiskInfo → Prop where
  | disk {index : Nat} {node : Node} (there : blockdevices[index]? = some node)
      (kind : node.columns.kind = some "disk") : Stands blockdevices ⟨index,none⟩ (convert node)
  | part {index position : Nat} {node part : Node} (there : blockdevices[index]? = some node)
      (kind : node.columns.kind = some "disk") (system : (convert node).holdsSystem = true)
      (inside : node.children[position]? = some part) (offered : dataPartition part = true) :
      Stands blockdevices ⟨index,some position⟩ (partitionInfo node part)

theorem stands_of_reported {blockdevices : List Node} {device : Device} {info : DiskInfo}
    (member : (device,info) ∈ reported blockdevices 0) : Stands blockdevices device info := by
  suffices every : ∀ nodes start, (∀ offset node, nodes[offset]? = some node →
      blockdevices[start+offset]? = some node) → (device,info) ∈ reported nodes start →
      Stands blockdevices device info from
    every blockdevices 0 (fun offset node there => by rwa [Nat.zero_add]) member
  intro nodes
  induction nodes with
  | nil => exact fun _ _ none => absurd none not_mem_nil
  | cons node rest ih =>
    intro start inside listed
    rw [reported,mem_append] at listed
    rcases listed with here | later
    · split at here
      next kind =>
        have there := inside 0 node rfl
        rcases mem_cons.mp here with same | part
        · cases same
          exact .disk there kind
        · split at part
          next system =>
            obtain ⟨⟨part,position⟩,row,same⟩ := mem_map.mp part
            cases same
            obtain ⟨child,offered⟩ := mem_filter.mp row
            exact .part there kind system (mem_zipIdx_iff_getElem?.mp child) offered
          next => cases part
      next => cases here
    · refine ih (start+1) (fun offset node there => ?_) later
      have found := inside (offset+1) node (by simpa using there)
      rwa [Nat.add_assoc,Nat.add_comm 1]

theorem stands_of_located {blockdevices : List Node} {byId : String} {device : Device} {info : DiskInfo}
    (located : locate blockdevices byId = some (device,info)) :
    Stands blockdevices device info ∧ info.byId = some byId :=
  ⟨stands_of_reported (mem_of_find?_eq_some located),by simpa using find?_some located⟩

end Depsis.Disks

import Depsis.Disks.Pools

/-! The wipe of one disk: which imported pool uses it, decided on the text
`zpool list -vHP` prints.
-/
namespace Depsis.Disks

open Depsis.Agent Depsis.Foundation Depsis.Foundation.Text List Bool

structure PoolMember where
  pool : String
  device : List Char

def firstField (line : List Char) : Option (List Char) :=
  ((line.splitOn '\t').map trim).find? (fun field => !field.isEmpty)

def membersFrom : List (List Char) → Option String → List PoolMember
  | [],_ => []
  | line::rest,pool =>
    match firstField line with
    | none => membersFrom rest pool
    | some first =>
      if first.head? = some '/' then ⟨pool.getD "?",first⟩::membersFrom rest pool
      else if line.head? = some '\t' || line.head? = some ' ' then membersFrom rest pool
      else membersFrom rest (if first.any whitespace then none else some (String.ofList first))

def parsePoolMembers (out : List Char) : List PoolMember := membersFrom (lines out) none

def numeral (digits : List Char) : Bool := !digits.isEmpty && digits.all Char.isDigit

def sameDevice (path device : List Char) : Bool :=
  path = device ||
    match stripPrefix device path with
    | none => false
    | some rest =>
      rest.isEmpty ||
        numeral (((stripPrefix "-part".toList rest).or (stripPrefix ['p'] rest)).getD rest)

def byIdPath (byId : String) : List Char := (BY_ID_DIR ++ "/" ++ byId).toList

def knamePath (kname : String) : List Char := ("/dev/" ++ kname).toList

def poolUsing (disk : DiskInfo) (members : List PoolMember) : Option String :=
  (members.find? (fun member =>
    disk.byId.any (fun byId => sameDevice member.device (byIdPath byId)) ||
      sameDevice member.device (knamePath disk.kname))).map PoolMember.pool

def wipePlan (disk : DiskRef) (inventory : List DiskInfo) (members : List PoolMember) :
    Except PoolPlanError Unit :=
  let byId := disk.byId.text
  match find inventory byId with
  | none => .error (.unknown byId)
  | some found =>
    if found.wwn ≠ some disk.wwn then .error (.wwnMismatch byId disk.wwn found.wwn)
    else if found.holdsSystem then .error (.systemDisk byId)
    else if found.mounted then .error (.mounted byId)
    else match poolUsing found members with
    | some pool => .error (.poolMember byId pool)
    | none => .ok ()

structure ListRow where
  indent : List Char
  name : List Char
  fields : List (List Char)
  blank : ∀ character ∈ indent, character = '\t' ∨ character = ' '
  named : name ≠ []
  trimmed : trim name = name
  plain : '\t' ∉ name ∧ '\n' ∉ name
  single : ∀ field ∈ fields, '\n' ∉ field

structure ListedPool where
  heading : ListRow
  rows : List ListRow
  named : heading.name.head? ≠ some '/'

theorem trim_cons_space (text : List Char) : trim (' '::text) = trim text := by
  rw [trim,trimStart,dropWhile_cons_of_pos (by decide)]
  rfl

theorem firstField_blank {character : Char} {line : List Char} (blank : character = '\t' ∨ character = ' ') :
    firstField (character::line) = firstField line := by
  unfold firstField
  rw [splitOn_cons_eq_if_modifyHead]
  rcases blank with rfl | rfl
  · simp [trim,trimStart,trimEnd]
  · cases fields : line.splitOn '\t' with
    | nil => exact absurd fields (splitOn_ne_nil _ _)
    | cons first rest => simp [trim_cons_space]

theorem firstField_indent {indent line : List Char}
    (blank : ∀ character ∈ indent, character = '\t' ∨ character = ' ') :
    firstField (indent++line) = firstField line := by
  induction indent with
  | nil => rfl
  | cons character rest ih =>
    rw [cons_append,firstField_blank (blank character mem_cons_self)]
    exact ih (fun other later => blank other (mem_cons_of_mem _ later))

theorem firstField_name {name tail : List Char} (named : name ≠ []) (trimmed : trim name = name)
    (plain : '\t' ∉ name) (separated : tail = [] ∨ ∃ rest, tail = '\t'::rest) :
    firstField (name++tail) = some name := by
  have present : (!name.isEmpty) = true := by simpa using named
  rcases separated with rfl | ⟨rest,rfl⟩
  · rw [firstField,append_nil,splitOn_eq_singleton plain]
    simp [trimmed,present]
  · rw [firstField,splitOn_append_cons_self_of_not_mem plain]
    simp [trimmed,present]

namespace ListRow

def render (row : ListRow) : List Char := row.indent++row.name++row.fields.flatMap (fun field => '\t'::field)

/-- With `-P` a device, and only a device, is given by its full path. -/
def device (row : ListRow) : Bool := row.name.head? = some '/'

theorem name_last (row : ListRow) : row.name.getLast? ≠ some '\r' := by
  intro ends
  rw [← row.trimmed] at ends
  exact absurd (trim_last ends) (by decide)

theorem stripReturn_render (row : ListRow) : ∃ tail, stripReturn row.render = row.indent++row.name++tail ∧
    (tail = [] ∨ ∃ rest, tail = '\t'::rest) := by
  rw [stripReturn,render]
  cases row.fields with
  | nil =>
    refine ⟨[],?_,.inl rfl⟩
    rw [flatMap_nil,append_nil,if_neg]
    rw [getLast?_append_of_ne_nil _ row.named]
    exact row.name_last
  | cons first rest =>
    obtain ⟨more,fields⟩ : ∃ more, (first::rest).flatMap (fun field => '\t'::field) = '\t'::more := ⟨_,rfl⟩
    rw [fields]
    split
    next ends =>
      cases more with
      | nil => simp at ends
      | cons character more =>
        refine ⟨'\t'::(character::more).dropLast,?_,.inr ⟨_,rfl⟩⟩
        rw [dropLast_append_of_ne_nil (by simp)]
        rfl
    next => exact ⟨_,rfl,.inr ⟨more,rfl⟩⟩

theorem firstField_render (row : ListRow) : firstField (stripReturn row.render) = some row.name := by
  obtain ⟨tail,same,separated⟩ := row.stripReturn_render
  rw [same,append_assoc,firstField_indent row.blank]
  exact firstField_name row.named row.trimmed row.plain.1 separated

end ListRow

def listing (pools : List ListedPool) : List Char :=
  (pools.flatMap (fun pool => pool.heading::pool.rows)).flatMap (fun row => row.render++['\n'])

def vdevs (pools : List ListedPool) : List (List Char) :=
  pools.flatMap (fun pool => (pool.rows.filter ListRow.device).map ListRow.name)

theorem membersFrom_devices (rows : List ListRow) (pool : Option String) :
    (membersFrom (rows.map (fun row => stripReturn row.render)) pool).map PoolMember.device =
      (rows.filter ListRow.device).map ListRow.name := by
  induction rows generalizing pool with
  | nil => rfl
  | cons row rest ih =>
    rw [map_cons,membersFrom,row.firstField_render]
    simp only
    split
    next slash =>
      rw [filter_cons_of_pos (by simpa [ListRow.device] using slash)]
      simp [ih]
    next other =>
      rw [filter_cons_of_neg (by simpa [ListRow.device] using other)]
      split <;> exact ih _

theorem render_single (row : ListRow) : '\n' ∉ row.render := by
  intro member
  simp only [ListRow.render,mem_append,mem_flatMap] at member
  rcases member with (indent | name) | ⟨field,listed,inside⟩
  · rcases row.blank _ indent with same | same <;> cases same
  · exact row.plain.2 name
  · rcases mem_cons.mp inside with same | inside
    · cases same
    · exact row.single field listed inside

theorem parsePoolMembers_listing (pools : List ListedPool) :
    (parsePoolMembers (listing pools)).map PoolMember.device = vdevs pools := by
  have rendered := @lines_unlines ((pools.flatMap (fun pool => pool.heading::pool.rows)).map ListRow.render)
    (fun text member => by
      obtain ⟨row,-,rfl⟩ := mem_map.mp member
      exact render_single row)
  rw [flatMap_map,map_map] at rendered
  rw [parsePoolMembers,listing,rendered]
  refine (membersFrom_devices _ none).trans ?_
  rw [vdevs,filter_flatMap,map_flatMap]
  refine flatMap_congr (fun pool _ => ?_)
  rw [filter_cons_of_neg (by simpa [ListRow.device] using pool.named)]

def separator (kname : String) : List Char := if kname.toList.getLast?.any Char.isDigit then ['p'] else []

def otherSeparator (kname : String) : List Char := if kname.toList.getLast?.any Char.isDigit then [] else ['p']

inductive Names (disk : DiskInfo) (path : List Char) : Prop where
  | link {byId : String} (linked : disk.byId = some byId) (whole : path = byIdPath byId)
  | linkPart {byId : String} {digits : List Char} (linked : disk.byId = some byId)
      (numbered : numeral digits = true) (part : path = byIdPath byId++"-part".toList++digits)
  | kernel (whole : path = knamePath disk.kname)
  | kernelPart {digits : List Char} (numbered : numeral digits = true)
      (part : path = knamePath disk.kname++separator disk.kname++digits)

/-- A path that only looks like a partition of the disk: its name, and digits after it
in a way the kernel and udev do not write partitions. -/
inductive Resembles (disk : DiskInfo) (path : List Char) : Prop where
  | link {byId : String} {digits : List Char} (linked : disk.byId = some byId)
      (numbered : numeral digits = true) (tail : path = byIdPath byId++digits ∨ path = byIdPath byId++['p']++digits)
  | kernel {digits : List Char} (numbered : numeral digits = true)
      (tail : path = knamePath disk.kname++"-part".toList++digits ∨
        path = knamePath disk.kname++otherSeparator disk.kname++digits)

theorem numeral_cons {digits : List Char} (numbered : numeral digits = true) :
    ∃ first rest, digits = first::rest ∧ first.isDigit = true := by
  cases digits with
  | nil => cases numbered
  | cons first rest => exact ⟨first,rest,rfl,by simp_all [numeral]⟩

theorem sameDevice_iff {path device : List Char} : sameDevice path device = true ↔
    path = device ∨ ∃ digits, numeral digits = true ∧ (path = device++"-part".toList++digits ∨
      path = device++['p']++digits ∨ path = device++digits) := by
  rw [sameDevice,or_eq_true,decide_eq_true_eq]
  constructor
  · rintro (same | matched)
    · exact .inl same
    · split at matched
      next => cases matched
      next rest stripped =>
        rw [stripPrefix_some] at stripped
        subst stripped
        rw [or_eq_true,List.isEmpty_iff] at matched
        rcases matched with empty | numbered
        · exact .inl (by rw [empty,append_nil])
        · refine .inr ?_
          cases part : stripPrefix "-part".toList rest with
          | some digits =>
            rw [part] at numbered
            refine ⟨digits,numbered,.inl ?_⟩
            rw [stripPrefix_some.mp part,append_assoc]
          | none =>
            rw [part] at numbered
            cases letter : stripPrefix ['p'] rest with
            | some digits =>
              rw [letter] at numbered
              refine ⟨digits,numbered,.inr (.inl ?_)⟩
              rw [stripPrefix_some.mp letter,append_assoc]
            | none =>
              rw [letter] at numbered
              exact ⟨rest,numbered,.inr (.inr rfl)⟩
  · refine Or.imp_right ?_
    rintro ⟨digits,numbered,part | part | part⟩
    · rw [stripPrefix_some.mpr (part.trans (append_assoc _ _ _))]
      simp [stripPrefix,numbered]
    · rw [stripPrefix_some.mpr (part.trans (append_assoc _ _ _))]
      simp [stripPrefix,numbered]
    · rw [stripPrefix_some.mpr part]
      obtain ⟨first,rest,rfl,digit⟩ := numeral_cons numbered
      have dash : ('-' : Char) ≠ first := by rintro rfl; cases digit
      have letter : ('p' : Char) ≠ first := by rintro rfl; cases digit
      simp [stripPrefix,dash,letter,numbered]

theorem kernel_suffix {kname : String} {digits path : List Char} :
    (path = knamePath kname++['p']++digits ∨ path = knamePath kname++digits) ↔
      path = knamePath kname++separator kname++digits ∨ path = knamePath kname++otherSeparator kname++digits := by
  by_cases last : kname.toList.getLast?.any Char.isDigit = true
  · simp [separator,otherSeparator,last]
  · simp only [separator,otherSeparator,last,false_eq_true,if_false,append_nil]
    exact or_comm

theorem matches_iff {disk : DiskInfo} {path : List Char} :
    (disk.byId.any (fun byId => sameDevice path (byIdPath byId)) || sameDevice path (knamePath disk.kname)) = true ↔
      Names disk path ∨ Resembles disk path := by
  rw [or_eq_true,Option.any_eq_true,sameDevice_iff]
  constructor
  · rintro (⟨byId,linked,matched⟩ | whole | ⟨digits,numbered,part | tail⟩)
    · rcases sameDevice_iff.mp matched with whole | ⟨digits,numbered,part | tail⟩
      · exact .inl (.link linked whole)
      · exact .inl (.linkPart linked numbered part)
      · exact .inr (.link linked numbered tail.symm)
    · exact .inl (.kernel whole)
    · exact .inr (.kernel numbered (.inl part))
    · rcases kernel_suffix.mp tail with own | other
      · exact .inl (.kernelPart numbered own)
      · exact .inr (.kernel numbered (.inr other))
  · rintro (named | resembling)
    · cases named with
      | link linked whole => exact .inl ⟨_,linked,sameDevice_iff.mpr (.inl whole)⟩
      | linkPart linked numbered part =>
        exact .inl ⟨_,linked,sameDevice_iff.mpr (.inr ⟨_,numbered,.inl part⟩)⟩
      | kernel whole => exact .inr (.inl whole)
      | kernelPart numbered part => exact .inr (.inr ⟨_,numbered,.inr (kernel_suffix.mpr (.inl part))⟩)
    · cases resembling with
      | link linked numbered tail =>
        exact .inl ⟨_,linked,sameDevice_iff.mpr (.inr ⟨_,numbered,.inr tail.symm⟩)⟩
      | kernel numbered tail =>
        rcases tail with part | other
        · exact .inr (.inr ⟨_,numbered,.inl part⟩)
        · exact .inr (.inr ⟨_,numbered,.inr (kernel_suffix.mpr (.inr other))⟩)

theorem poolUsing_none {disk : DiskInfo} {members : List PoolMember} (unused : poolUsing disk members = none) :
    ∀ path ∈ members.map PoolMember.device, ¬(Names disk path ∨ Resembles disk path) := by
  intro path member either
  obtain ⟨listed,inside,rfl⟩ := mem_map.mp member
  exact find?_eq_none.mp (Option.map_eq_none_iff.mp unused) listed inside (matches_iff.mpr either)

theorem poolUsing_some {disk : DiskInfo} {members : List PoolMember} {pool : String}
    (used : poolUsing disk members = some pool) :
    ∃ path ∈ members.map PoolMember.device, Names disk path ∨ Resembles disk path := by
  obtain ⟨member,found,-⟩ := Option.map_eq_some_iff.mp used
  have matched := find?_some found
  exact ⟨_,mem_map_of_mem (mem_of_find?_eq_some found),matches_iff.mp matched⟩

def under (blockdevices : List Node) (device : Device) : List Columns :=
  match blockdevices[device.disk]?,device.partition with
  | none,_ => []
  | some node,none => node.subtree
  | some node,some position => ((node.children[position]?).map Node.subtree).getD []

structure WipeSafe (blockdevices : List Node) (disk : DiskRef) (found : DiskInfo) (pools : List ListedPool)
    (answer : Except PoolPlanError Unit) : Prop where
  spared : answer = .ok () → ∀ path ∈ vdevs pools, ¬Names found path
  unmounted : answer = .ok () → ∃ device, deviceOf blockdevices disk.byId = some device ∧
    ∀ columns ∈ under blockdevices device, columns.points = []
  system : answer = .ok () → found.holdsSystem = false
  confirmed : answer = .ok () → found.wwn = some disk.wwn
  member : ∀ byId pool, answer = .error (.poolMember byId pool) → ∃ path ∈ vdevs pools, Names found path

theorem unmounted_under {blockdevices : List Node} {device : Device} {info : DiskInfo}
    (stands : Stands blockdevices device info) (unmounted : info.mounted = false) :
    ∀ columns ∈ under blockdevices device, columns.points = [] := by
  intro columns inside
  cases stands with
  | disk there =>
    simp only [under,there] at inside
    rw [convert_mounted,any_eq_false] at unmounted
    simpa using unmounted columns inside
  | @part index position node part there kind system place offered =>
    simp only [under,there,place,Option.map_some,Option.getD_some] at inside
    obtain ⟨own,children⟩ := part
    simp only [dataPartition,and_eq_true,decide_eq_true_eq,Columns.noteMounts_eq,List.isEmpty_iff] at offered
    obtain ⟨⟨⟨⟨-,alone⟩,empty⟩,-⟩,-⟩ := offered
    change children = [] at alone
    subst alone
    obtain rfl : columns = own := by simpa [Node.subtree,subtrees] using inside
    simpa [Node.columns] using empty

theorem wipePlan_passes {disk : DiskRef} {inventory : List DiskInfo} {members : List PoolMember}
    {found : DiskInfo} {answer : Except PoolPlanError Unit} (entry : find inventory disk.byId.text = some found)
    (answered : wipePlan disk inventory members = answer)
    (late : answer = .ok () ∨ ∃ byId pool, answer = .error (.poolMember byId pool)) :
    found.wwn = some disk.wwn ∧ found.holdsSystem = false ∧ found.mounted = false ∧
      (answer = .ok () ↔ poolUsing found members = none) := by
  simp only [wipePlan,entry] at answered
  split at answered
  next => subst answered; simp at late
  next wwn =>
    split at answered
    next => subst answered; simp at late
    next system =>
      split at answered
      next => subst answered; simp at late
      next unmounted =>
        refine ⟨not_not.mp wwn,by simpa using system,by simpa using unmounted,?_⟩
        split at answered
        next used => subst answered; simp [used]
        next unused => subst answered; simp [unused]

/-- A wipe that is let through never touches a device of an imported pool; a refusal
names a real one exactly when no other device's name only resembles this disk's. -/
theorem wipe_safe_iff {blockdevices : List Node} {inventory : List DiskInfo} {truncated : Bool}
    {disk : DiskRef} {found : DiskInfo} {pools : List ListedPool}
    (parsed : parse blockdevices = .ok (inventory,truncated))
    (entry : find inventory disk.byId.text = some found) :
    WipeSafe blockdevices disk found pools (wipePlan disk inventory (parsePoolMembers (listing pools))) ↔
      (found.wwn = some disk.wwn → found.holdsSystem = false → found.mounted = false →
        (∃ path ∈ vdevs pools, Resembles found path) → ∃ path ∈ vdevs pools, Names found path) := by
  have devices := parsePoolMembers_listing pools
  generalize parsePoolMembers (listing pools) = members at devices
  constructor
  · intro safe wwn system unmounted ⟨path,listed,resembling⟩
    cases used : poolUsing found members with
    | none => exact absurd (.inr resembling) (poolUsing_none used path (devices ▸ listed))
    | some pool =>
      refine safe.member disk.byId.text pool ?_
      simp [wipePlan,entry,wwn,system,unmounted,used]
  · intro condition
    obtain ⟨device,located⟩ := locate_of_found parsed entry
    refine ⟨fun passed path listed named => ?_,fun passed => ?_,fun passed => ?_,fun passed => ?_,
      fun byId pool refused => ?_⟩
    · obtain ⟨-,-,-,unused⟩ := wipePlan_passes entry passed (.inl rfl)
      exact poolUsing_none (unused.mp rfl) path (devices ▸ listed) (.inl named)
    · obtain ⟨-,-,unmounted,-⟩ := wipePlan_passes entry passed (.inl rfl)
      refine ⟨device,?_,unmounted_under (stands_of_located located).1 unmounted⟩
      rw [deviceOf,located]
      rfl
    · exact (wipePlan_passes entry passed (.inl rfl)).2.1
    · exact (wipePlan_passes entry passed (.inl rfl)).1
    · obtain ⟨wwn,system,unmounted,used⟩ := wipePlan_passes entry refused (.inr ⟨byId,pool,rfl⟩)
      obtain ⟨user,member⟩ := Option.ne_none_iff_exists'.mp (fun none => by cases used.mpr none)
      obtain ⟨path,listed,named | resembling⟩ := poolUsing_some member
      · exact ⟨path,devices ▸ listed,named⟩
      · exact condition wwn system unmounted ⟨path,devices ▸ listed,resembling⟩

private def namespaceDisk : Node :=
  ⟨⟨some "nvme0n1",some "disk",none,none,none,some "0xA",none,none,none,none,none,none,none,some "nvme-A"⟩,[]⟩

private def tankRow : ListRow :=
  ⟨[],"tank".toList,["1.8T".toList],by simp,by decide,by decide,by decide,by decide⟩

private def partRow : ListRow :=
  ⟨['\t'],"/dev/disk/by-id/nvme-B-part1".toList,["ONLINE".toList],by simp,by decide,by decide,by decide,by decide⟩

private def tenthRow : ListRow :=
  ⟨['\t'],"/dev/nvme0n10".toList,["ONLINE".toList],by simp,by decide,by decide,by decide,by decide⟩

private def nvmeA : DiskRef := ⟨⟨"nvme-A",by decide⟩,"0xA"⟩

theorem wipe_safe_unused : ∃ inventory truncated found,
    parse [namespaceDisk] = .ok (inventory,truncated) ∧ find inventory nvmeA.byId.text = some found ∧
      WipeSafe [namespaceDisk] nvmeA found [⟨tankRow,[partRow],by decide⟩]
        (wipePlan nvmeA inventory (parsePoolMembers (listing [⟨tankRow,[partRow],by decide⟩]))) := by
  refine ⟨_,_,_,rfl,rfl,(wipe_safe_iff rfl rfl).mpr (fun _ _ _ ⟨path,listed,resembling⟩ => ?_)⟩
  obtain rfl : path = "/dev/disk/by-id/nvme-B-part1".toList := mem_singleton.mp listed
  exact absurd (matches_iff.mpr (.inr resembling)) (by decide)

/-- A pool on the tenth namespace of a controller keeps the first from being wiped. -/
theorem wipe_refused_for_another : ¬∀ (blockdevices : List Node) (inventory : List DiskInfo) (truncated : Bool)
    (disk : DiskRef) (found : DiskInfo) (pools : List ListedPool),
    parse blockdevices = .ok (inventory,truncated) → find inventory disk.byId.text = some found →
    WipeSafe blockdevices disk found pools (wipePlan disk inventory (parsePoolMembers (listing pools))) := by
  intro always
  have safe := always [namespaceDisk] _ _ nvmeA _ [⟨tankRow,[tenthRow],by decide⟩] rfl rfl
  obtain ⟨path,listed,named⟩ := safe.member "nvme-A" "tank" rfl
  obtain rfl : path = "/dev/nvme0n10".toList := mem_singleton.mp listed
  cases named with
  | link linked whole =>
    cases linked
    exact absurd whole (by decide)
  | linkPart linked _ part =>
    cases linked
    cases (congrArg (fun path => path[5]?) part : some 'n' = some 'd')
  | kernel whole => exact absurd whole (by decide)
  | kernelPart _ part => cases (congrArg (fun path => path[12]?) part : some '0' = some 'p')

end Depsis.Disks

import Depsis.Apps.InstallsKept

/-! The steps of installs and removes, one after another: each request's calls keep what runs and what
is recorded together, and so does every run.
-/
namespace Depsis.Apps

open Depsis.Foundation List AList Option Machine

variable {shipped : List Definition} {state next final : State} {event : Event} {request record offset : Nat}
variable {definition : Definition} {id slug role : String} {row : Instance} {fate : Fate} {used : List Nat}

theorem mem_ownersOf {owner : Nat} (member : owner ∈ state.ownersOf slug) :
    state.pods.lookup slug = some owner ∨ ∃ role, state.containers.lookup (slug,role) = some owner := by
  rcases mem_append.mp member with pod | container
  · exact .inl (mem_toList.mp pod)
  · obtain ⟨⟨⟨name,role⟩,whose⟩,there,rfl⟩ := mem_map.mp container
    obtain ⟨listed,same⟩ := mem_filter.mp there
    obtain rfl : name = slug := by simpa using same
    exact .inr ⟨role,mem_rows.mp listed⟩

theorem pod_owner {owner : Nat} (found : state.pods.lookup slug = some owner) : owner ∈ state.ownersOf slug :=
  mem_append_left _ (mem_toList.mpr found)

theorem container_owner {owner : Nat} (found : state.containers.lookup (slug,role) = some owner) :
    owner ∈ state.ownersOf slug := by
  apply mem_append_right
  exact mem_map.mpr ⟨((slug,role),owner),mem_filter.mpr ⟨mem_rows.mpr found,by simp⟩,rfl⟩

theorem ownerOf_ownersOf {owner : Nat} (member : owner ∈ state.ownerOf slug role) : owner ∈ state.ownersOf slug :=
  container_owner (mem_toList.mp member)

theorem clear_idle (clear : state.clear slug record = true) {other second : Nat} {theirs : Definition} {phase : Phase}
    (asked : state.requests.lookup other = some (.build theirs second phase)) : theirs.slug ≠ slug := by
  intro same
  have here : state.building slug = true := any_iff.mpr ⟨other,_,asked,decide_eq_true same⟩
  simp [State.clear,here] at clear

theorem clear_record (clear : state.clear slug record = true) (stored : state.instances.lookup id = some row)
    (same : row.slug = slug) : row.id = record := by
  have every := all_iff.mp (Bool.and_eq_true_iff.mp clear).2 id row stored
  simpa [same] using every

structure Less (state : State) (slug : String) (pods : Table String Nat) (containers : Table (String × String) Nat) : Prop where
  podsLess : ∀ name owner, pods.lookup name = some owner → state.pods.lookup name = some owner
  containersLess : ∀ name owner, containers.lookup name = some owner → state.containers.lookup name = some owner
  podsElse : ∀ name, name ≠ slug → pods.lookup name = state.pods.lookup name
  containersElse : ∀ name role, name ≠ slug → containers.lookup (name,role) = state.containers.lookup (name,role)

theorem less_container (state : State) (slug role : String) :
    Less state slug state.pods (state.containers.erase (slug,role)) := by
  constructor
  · exact fun _ _ found => found
  · intro name owner found
    obtain ⟨-,found⟩ := lookup_erase_some found
    exact found
  · exact fun _ _ => rfl
  · intro name other different
    rw [lookup_erase_eq,if_neg (fun same => different (congrArg Prod.fst same))]

theorem less_pod (state : State) (slug : String) :
    Less state slug (state.pods.erase slug) (state.containers.retain (fun name _ => name.1 ≠ slug)) := by
  constructor
  · intro name owner found
    obtain ⟨-,found⟩ := lookup_erase_some found
    exact found
  · intro name owner found
    rw [lookup_retain] at found
    exact (filter_eq_some_iff.mp found).1
  · intro name different
    rw [lookup_erase_eq,if_neg different]
  · intro name other different
    rw [lookup_retain]
    cases state.containers.lookup (name,other) with
    | none => rfl
    | some owner => simp [Option.filter,different]

theorem removePod_empty (state : State) (slug : String) : Empty (state.removePod slug) slug := by
  constructor
  · exact lookup_erase _ _
  · intro role
    change (state.containers.retain _).lookup (slug,role) = none
    rw [lookup_retain]
    cases state.containers.lookup (slug,role) with
    | none => rfl
    | some owner => simp [Option.filter]

namespace Sane

variable (sane : Sane shipped state)

include sane

theorem owner_row {owner : Nat} (member : owner ∈ state.ownersOf slug) :
    ∃ id row, state.instances.lookup id = some row ∧ row.slug = slug ∧ row.id = owner := by
  rcases mem_ownersOf member with pod | ⟨role,container⟩
  · exact sane.pods slug owner pod
  · exact sane.containers slug role owner container

variable {containers : Table (String × String) Nat}

theorem undoes {pods : Table String Nat} {owners : List Nat} {phase : Phase}
    (asked : state.requests.lookup request = some (.build definition record phase))
    (neutral : ∀ next, Made next definition phase) (less : Less state definition.slug pods containers)
    (whose : ∀ owner ∈ owners, owner ∈ state.ownersOf definition.slug) :
    Sane shipped { state with pods := pods, containers := containers, undone := state.undone ++ owners.map (·,record) } := by
  obtain ⟨row,stored,same,named⟩ := sane.building_row asked
  refine sane.removed (fun other theirs second later found slug next => ?_) less.podsLess less.containersLess less.podsElse
    less.containersElse sane.begun (fun _ member => member) (fun other theirs second later found => ?_) (fun entry member => ?_)
    (fun id row' there slug _ quiet => ?_)
  · obtain ⟨rfl,rfl⟩ := sane.one_build asked found slug.symm
    cases asked.symm.trans found
    exact neutral next
  · exact (sane.allowed other _ found).2.2.1
  · rcases mem_append.mp member with old | new
    · exact sane.undone entry old
    · obtain ⟨owner,among,rfl⟩ := mem_map.mp new
      obtain ⟨id,row',there,slug,rfl⟩ := sane.owner_row (whose owner among)
      have key := sane.slugs _ _ _ _ there stored (slug.trans named.symm)
      rw [key] at there
      cases there.symm.trans stored
      exact same
  · have key := sane.slugs _ _ _ _ there stored (slug.trans named.symm)
    rw [key] at there
    cases there.symm.trans stored
    exact absurd (same ▸ asked) (quiet request definition phase)

theorem taken {pods : Table String Nat} {owners : List Nat}
    (read : Read state definition record) (known : state.known.lookup definition.id = some definition)
    (clear : state.clear definition.slug record = true)
    (less : Less state definition.slug pods containers)
    (whose : ∀ owner ∈ owners, owner ∈ state.ownersOf definition.slug)
    (untouched : owners = [] → pods.lookup definition.slug = state.pods.lookup definition.slug ∧ ∀ role, containers.lookup (definition.slug,role) = state.containers.lookup (definition.slug,role)) :
    Sane shipped { state with pods := pods, containers := containers, begun := state.begun ++ owners } := by
  have mine : ∀ owner ∈ owners, owner = record := by
    intro owner member
    obtain ⟨id,row,stored,slug,rfl⟩ := sane.owner_row (whose owner member)
    exact clear_record clear stored slug
  refine sane.removed (fun other theirs second later found slug => absurd slug (clear_idle clear found)) less.podsLess less.containersLess
    less.podsElse less.containersElse (fun second member => ?_) (fun _ member => mem_append_left _ member)
    (fun other theirs second later found member => ?_) sane.undone (fun id row there slug fresh _ => ?_)
  · rcases mem_append.mp member with old | new
    · exact sane.begun second old
    · exact mine second new ▸ read.1
  · rcases mem_append.mp member with old | new
    · exact (sane.allowed other _ found).2.2.1 old
    · obtain ⟨row,stored,same,named⟩ := sane.building_row found
      have key := read.2 _ row stored (same.trans (mine second new))
      rw [key] at stored
      exact clear_idle clear found (named.symm.trans (sane.row_definition known stored).2)
  · have none : owners = [] := by
      refine eq_nil_iff_forall_not_mem.mpr (fun owner member => fresh (mem_append_right _ ?_))
      have same : row.id = owner := (clear_record clear there slug).trans (mine owner member).symm
      exact same ▸ member
    exact untouched none

theorem grows {pods : Table String Nat} {volumes : List (String × String × Nat)}
    {phase later : Phase} (asked : state.requests.lookup request = some (.build definition record phase))
    (podsNew : ∀ slug owner, pods.lookup slug = some owner →
      state.pods.lookup slug = some owner ∨ slug = definition.slug ∧ owner = record)
    (containersNew : ∀ slug role owner, containers.lookup (slug,role) = some owner →
      state.containers.lookup (slug,role) = some owner ∨ slug = definition.slug ∧ owner = record)
    (podsMore : ∀ slug, (state.pods.lookup slug).isSome → (pods.lookup slug).isSome)
    (containersMore : ∀ name, (state.containers.lookup name).isSome → (containers.lookup name).isSome)
    (made : Made { state with pods := pods, containers := containers, volumes := volumes } definition later) :
    Sane shipped ({ state with pods := pods, containers := containers, volumes := volumes }.continues request
      (.build definition record later)) := by
  have rests : Sane shipped (state.continues request (.build definition record (.undo []))) :=
    sane.phases asked (show Made state definition (.undo []) from trivial)
  have there : (state.continues request (.build definition record (.undo []))).requests.lookup request =
      some (.build definition record (.undo [])) := lookup_insert _
  have grown := @creates _ _ _ _ _ rests pods containers volumes _ there (fun _ => trivial) podsNew containersNew podsMore containersMore
  exact @phased _ { state with pods := pods, containers := containers, volumes := volumes } request record definition
    state.requests _ later grown made

theorem builds_pod (asked : state.requests.lookup request = some (.build definition record .pod)) :
    Sane shipped (state.build request definition record fate .pod) := by
  have idles : ∀ rest, Sane shipped (state.continues request (.build definition record (.undo rest))) :=
    fun rest => sane.phases asked (show Made state definition (.undo rest) from trivial)
  have fresh := (sane.allowed request _ asked).2.2.2
  have made : state.createPod definition.slug record = some { state with pods := state.pods.insert definition.slug record } := by
    unfold State.createPod
    rw [fresh.1]
    rfl
  have next : ∀ later, Made { state with pods := state.pods.insert definition.slug record } definition later →
      Sane shipped ({ state with pods := state.pods.insert definition.slug record }.continues request
        (.build definition record later)) := by
    intro later there
    refine sane.grows asked (fun slug owner found => ?_) (fun _ _ _ found => .inl found) (fun slug held => ?_)
      (fun _ held => held) there
    · rcases lookup_insert_cases found with ⟨here,is⟩ | ⟨-,found⟩
      · exact .inr ⟨here,is⟩
      · exact .inl found
    · rw [lookup_insert_eq]
      split
      next => rfl
      next => exact held
  unfold State.build
  rw [made]
  cases fate with
  | answers =>
    refine next (.pull definition.containers) ⟨[],rfl,?_,fun container member => by cases member⟩
    exact congrArg Option.isSome (lookup_insert _)
  | fails => exact idles _
  | fallsSilent => exact next (.undo definition.containers) trivial

theorem builds_container {first : Container} {rest : List Container}
    (asked : state.requests.lookup request = some (.build definition record (.container first rest))) :
    Sane shipped (state.build request definition record fate (.container first rest)) := by
  have idles : ∀ rest, Sane shipped (state.continues request (.build definition record (.undo rest))) :=
    fun rest => sane.phases asked (show Made state definition (.undo rest) from trivial)
  obtain ⟨done,split,pod,there⟩ := (sane.allowed request _ asked).2.2.2
  have shown : state.build request definition record fate (.container first rest) =
      (state.attempt fate (state.createContainer definition.slug record first)).1.continues request
        (.build definition record (if (state.attempt fate (state.createContainer definition.slug record first)).2
          then .pull rest else .undo definition.containers)) := rfl
  rw [shown]
  cases made : state.createContainer definition.slug record first with
  | none => cases fate <;> exact idles _
  | some grown =>
    unfold State.createContainer at made
    obtain ⟨-,made⟩ := of_unless made
    cases made
    have next : ∀ later, Made { state with
        containers := state.containers.insert (definition.slug,first.role) record
        volumes := state.volumes ++ (List.range first.volumes).map (fun index => (definition.slug,first.role,index)) } definition later →
        Sane shipped ({ state with
          containers := state.containers.insert (definition.slug,first.role) record
          volumes := state.volumes ++ (List.range first.volumes).map (fun index => (definition.slug,first.role,index)) }.continues
            request (.build definition record later)) := by
      intro later whole
      refine sane.grows asked (fun _ _ found => .inl found) (fun slug role owner found => ?_) (fun _ held => held)
        (fun name held => ?_) whole
      · rcases lookup_insert_cases found with ⟨here,is⟩ | ⟨-,found⟩
        · exact .inr ⟨congrArg Prod.fst here,is⟩
        · exact .inl found
      · rw [lookup_insert_eq]
        split
        next => rfl
        next => exact held
    cases fate with
    | fails => exact idles _
    | fallsSilent => exact next (.undo definition.containers) trivial
    | answers =>
      refine next (.pull rest) ⟨done++[first],by simp [split],pod,fun container member => ?_⟩
      change ((state.containers.insert (definition.slug,first.role) record).lookup (definition.slug,container.role)).isSome
      rw [lookup_insert_eq]
      split
      next => rfl
      next different =>
        rcases mem_append.mp member with old | new
        · exact there container old
        · cases mem_singleton.mp new
          exact absurd rfl different

theorem builds_pull {rest : List Container}
    (asked : state.requests.lookup request = some (.build definition record (.pull rest))) :
    Sane shipped (state.build request definition record fate (.pull rest)) := by
  obtain ⟨done,split,there⟩ := (sane.allowed request _ asked).2.2.2
  cases rest with
  | nil =>
    have whole : Whole state definition.slug definition.containers := by simpa [split] using there
    refine sane.turn (fun _ => lookup_erase_eq _ _ _) (fun theirs second later found => .inr ?_)
      nofun (fun _ same => by cases same)
    cases asked.symm.trans found
    exact whole
  | cons first rest =>
    have shown : state.build request definition record fate (.pull (first::rest)) = state.continues request
        (.build definition record (if fate = .answers then .container first rest else .undo definition.containers)) := rfl
    rw [shown]
    split
    next => exact sane.phases asked (show Made state definition (.container first rest) from ⟨done,split,there⟩)
    next => exact sane.phases asked (show Made state definition (.undo definition.containers) from trivial)

theorem rolls_back {phase : Phase} (asked : state.requests.lookup request = some (.build definition record phase))
    (spared : (Request.build definition record phase).spares shipped state fate = true)
    (later : (∃ rest, phase = .undo rest) ∨ phase = .undoPod ∨ phase = .undoRow) :
    Sane shipped (state.build request definition record fate phase) := by
  rcases later with ⟨rest,rfl⟩ | rfl | rfl
  · cases rest with
    | nil => exact sane.phases asked (show Made state definition .undoPod from trivial)
    | cons first rest =>
      have went : fate = .answers := by simpa [Request.spares] using spared
      subst went
      have kept := sane.undoes asked (fun _ => trivial) (less_container state definition.slug first.role)
        (fun _ member => ownerOf_ownersOf (member : _ ∈ state.ownerOf definition.slug first.role))
      exact kept.phases asked (show Made _ definition (.undo rest) from trivial)
  · have went : fate = .answers := by simpa [Request.spares] using spared
    subst went
    have kept := sane.undoes asked (fun _ => trivial) (less_pod state definition.slug) (fun _ member => member)
    exact kept.phases asked (show Made _ definition .undoRow from removePod_empty state definition.slug)
  · obtain ⟨known,⟨row,stored,same⟩,-,empty⟩ := sane.allowed request _ asked
    refine sane.deletes (fun other found => ⟨empty,(sane.row_definition known found).2⟩)
      (fun other second theirs phase found also => ?_) _ (fun entry member => ?_) (fun theirs second phase found => ?_)
    · cases stored.symm.trans found
      rw [same] at also
      exact (sane.alone _ _ _ _ _ _ _ asked also).symm
    · rcases mem_append.mp member with old | new
      · exact sane.undone entry old
      · rw [stored] at new
        cases mem_singleton.mp new
        exact same
    · cases asked.symm.trans found
      exact ⟨row,stored,same⟩

theorem builds {phase : Phase} (asked : state.requests.lookup request = some (.build definition record phase))
    (spared : (Request.build definition record phase).spares shipped state fate = true) :
    Sane shipped (state.build request definition record fate phase) := by
  cases phase with
  | pod => exact sane.builds_pod asked
  | pull rest => exact sane.builds_pull asked
  | container first rest => exact sane.builds_container asked
  | undo rest => exact sane.rolls_back asked spared (.inl ⟨rest,rfl⟩)
  | undoPod => exact sane.rolls_back asked spared (.inr (.inl rfl))
  | undoRow => exact sane.rolls_back asked spared (.inr (.inr rfl))

theorem reserves_port (asked : state.requests.lookup request = some (.reserve definition used offset))
    (spared : (Request.reserve definition used offset).spares shipped state fate = true) :
    Sane shipped (state.reserve request definition used offset fate) := by
  have quiet : ∀ owner record phase, state.requests.lookup request ≠ some (.build owner record phase) :=
    fun _ _ _ found => by cases asked.symm.trans found
  have again : Sane shipped (state.continues request (.reserve definition used (offset+1))) :=
    sane.continues quiet nofun (sane.allowed request _ asked)
  unfold State.reserve
  split
  next => exact sane.ends quiet
  next here =>
    split
    next => exact again
    next free =>
      split
      next => exact sane.ends quiet
      next missing =>
        split
        next => exact again
        next unused =>
          simp only [Bool.or_eq_true,decide_eq_true_eq,not_or,ne_eq,not_not] at free
          have apart : PORT_BASE + offset ∉ used := by simpa using free.1
          have inserts : state.inserts definition used offset fate = true := by
            simp [State.inserts,apart,free.2,unused,Nat.lt_of_not_le here,not_isSome_iff_eq_none.mp missing]
          have resolves : state.resolve shipped definition.id = some definition := by
            simpa [Request.spares,inserts] using spared
          refine sane.reserves quiet resolves (not_isSome_iff_eq_none.mp missing) (fun id row stored => ?_)
          have differs := mt (fun held => any_iff.mpr ⟨id,row,stored,held⟩) unused
          simpa [not_or] using differs

theorem takes {removed : State} {owners : List Nat} {following asked : Request}
    (found : state.requests.lookup request = some asked) (plain : ∀ definition record phase, asked ≠ .build definition record phase)
    (also : ∀ definition record phase, following ≠ .build definition record phase)
    (same : removed.requests = state.requests) (kept : Sane shipped { removed with begun := state.begun ++ owners })
    (allowed : Allowed ({ removed with begun := state.begun ++ owners }.continues request following) following) :
    Sane shipped (state.takes request fate removed owners following) := by
  have quiet : ∀ owner record phase, state.requests.lookup request ≠ some (.build owner record phase) :=
    fun _ _ _ there => plain _ _ _ (Option.some.inj (found.symm.trans there))
  cases fate with
  | answers => exact kept.continues (fun _ _ _ there => quiet _ _ _ (same ▸ there)) also allowed
  | fails => exact sane.ends quiet
  | fallsSilent => exact kept.ends (fun _ _ _ there => quiet _ _ _ (same ▸ there))

theorem takes_container {first : Container} {rest : List Container}
    (asked : state.requests.lookup request = some (.take definition record (first::rest)))
    (clear : state.clear definition.slug record = true) :
    Sane shipped (state.go request fate (.take definition record (first::rest))) := by
  obtain ⟨known,read⟩ := sane.allowed request _ asked
  have kept := sane.taken read known clear (less_container state definition.slug first.role)
    (fun _ member => ownerOf_ownersOf (member : _ ∈ state.ownerOf definition.slug first.role)) (fun none => ⟨rfl,fun role => ?_⟩)
  · exact sane.takes asked nofun nofun rfl kept ⟨known,read⟩
  · rw [lookup_erase_eq]
    split
    next here =>
      rw [here]
      exact (toList_eq_nil_iff.mp none).symm
    next => rfl

theorem takes_pod (asked : state.requests.lookup request = some (.takePod definition record))
    (clear : state.clear definition.slug record = true) :
    Sane shipped (state.go request fate (.takePod definition record)) := by
  obtain ⟨known,read⟩ := sane.allowed request _ asked
  have kept := sane.taken read known clear (less_pod state definition.slug)
    (fun _ member => (member : _ ∈ state.ownersOf definition.slug)) (fun none => ?_)
  · refine sane.takes asked nofun nofun rfl kept
      ⟨known,read,fun row stored same => removePod_empty state definition.slug,fun other owner phase found => ?_⟩
    have found : (state.requests.insert request (.takeRow definition record)).lookup other = some (.build owner record phase) := found
    rw [lookup_insert_eq] at found
    split at found
    next => cases found
    next =>
      obtain ⟨row,stored,same,named⟩ := sane.building_row found
      have key := read.2 _ row stored same
      rw [key] at stored
      exact clear_idle clear found (named.symm.trans (sane.row_definition known stored).2)
  · have nothing : Empty state definition.slug := by
      constructor
      · refine eq_none_iff_forall_not_mem.mpr (fun owner found => ?_)
        cases none ▸ pod_owner found
      · refine fun role => eq_none_iff_forall_not_mem.mpr (fun owner found => ?_)
        cases none ▸ container_owner found
    constructor
    · exact (removePod_empty state definition.slug).1.trans nothing.1.symm
    · intro role
      rw [nothing.2 role]
      exact (removePod_empty state definition.slug).2 role

theorem takes_row (asked : state.requests.lookup request = some (.takeRow definition record))
    (clear : state.clear definition.slug record = true) :
    Sane shipped (state.go request fate (.takeRow definition record)) := by
  obtain ⟨known,-,empty,idle⟩ := sane.allowed request _ asked
  have same : ∀ row, state.instances.lookup definition.id = some row → row.slug = definition.slug ∧ row.id = record := by
    intro row stored
    have slug := (sane.row_definition known stored).2
    exact ⟨slug,clear_record clear stored slug⟩
  refine sane.deletes (fun row stored => ⟨empty row stored (same row stored).2,(same row stored).1⟩)
    (fun row other owner phase stored found => ?_) state.undone sane.undone (fun _ _ _ found => ?_)
  · exact absurd ((same row stored).2 ▸ found) (idle other owner phase)
  · cases asked.symm.trans found

theorem goes {asked : Request} (found : state.requests.lookup request = some asked)
    (spared : asked.spares shipped state fate = true) : Sane shipped (state.go request fate asked) := by
  have held := sane.allowed request asked found
  have quiet : (∀ definition record phase, asked ≠ .build definition record phase) →
      ∀ definition record phase, state.requests.lookup request ≠ some (.build definition record phase) :=
    fun plain _ _ _ there => plain _ _ _ (Option.some.inj (found.symm.trans there))
  cases asked with
  | install definition =>
    exact sane.continues (quiet nofun) nofun held
  | reserve definition used offset => exact sane.reserves_port found spared
  | build definition record phase => exact sane.builds found spared
  | remove definition =>
    simp only [State.go]
    split
    next => exact sane.ends (quiet nofun)
    next row stored =>
      refine sane.continues (quiet nofun) nofun ⟨held,sane.fresh _ _ stored,fun id other there same => ?_⟩
      exact sane.ids _ _ _ _ there stored same
  | take definition record rest =>
    cases rest with
    | nil => exact sane.continues (quiet nofun) nofun held
    | cons first rest => exact sane.takes_container found spared
  | takePod definition record => exact sane.takes_pod found spared
  | takeRow definition record => exact sane.takes_row found spared
  | setState definition =>
    simp only [State.go]
    split
    next => exact sane.ends (quiet nofun)
    next => exact sane.continues (quiet nofun) nofun held
  | drive definition rest =>
    cases rest with
    | nil => exact sane.ends (quiet nofun)
    | cons first rest =>
      simp only [State.go]
      split
      next => exact sane.continues (quiet nofun) nofun held
      next => exact sane.ends (quiet nofun)
  | removeCustom slug | checkCustom id =>
    simp only [State.go]
    split
    next => exact sane.ends (quiet nofun)
    next => exact sane.continues (quiet nofun) nofun trivial
  | withdraw id =>
    have unused : state.instances.lookup id = none := by simpa [Request.spares] using spared
    exact (sane.withdraws unused).ends (quiet nofun)

theorem required (found : state.requireCatalogue shipped slug = some definition) :
    state.known.lookup definition.id = some definition := by
  rcases or_eq_some_iff.mp found with listed | ⟨-,own⟩
  · exact sane.catalogue definition (mem_of_find?_eq_some listed)
  · obtain ⟨⟨id,other⟩,there,rfl⟩ := map_eq_some_iff.mp own
    obtain ⟨known,same⟩ := sane.custom id other (mem_rows.mp (mem_of_find?_eq_some there))
    exact (congrArg state.known.lookup same).trans known

theorem begins {following : Definition → Request} (began : state.begins request (state.requireCatalogue shipped slug) following = some next)
    (plain : ∀ definition theirs record phase, following definition ≠ .build theirs record phase)
    (allowed : ∀ definition, state.known.lookup definition.id = some definition →
      Allowed (state.continues request (following definition)) (following definition)) : Sane shipped next := by
  unfold State.begins at began
  obtain ⟨idle,began⟩ := of_unless began
  have idle := not_isSome_iff_eq_none.mp idle
  split at began
  next =>
    cases began
    exact sane
  next definition found =>
    cases began
    exact sane.continues (fun _ _ _ there => by cases idle.symm.trans there) (plain definition) (allowed definition (sane.required found))

end Sane

theorem step_sane (sane : Sane shipped state) (spared : event.spares shipped state = true)
    (taken : step shipped state event = some next) : Sane shipped next := by
  cases event with
  | installs request slug | removes request slug | setsState request slug => exact sane.begins taken (fun _ _ _ _ same => by cases same) (fun _ known => known)
  | addsCustom id slug volumes =>
    simp only [step] at taken
    obtain ⟨fresh,taken⟩ := of_unless taken
    split at taken
    next =>
      cases taken
      exact sane
    next =>
      cases taken
      exact sane.adds (not_isSome_iff_eq_none.mp fresh)
  | removesCustom request slug =>
    simp only [step] at taken
    obtain ⟨idle,taken⟩ := of_unless taken
    cases taken
    have idle := not_isSome_iff_eq_none.mp idle
    exact sane.continues (fun _ _ _ there => by cases idle.symm.trans there) nofun trivial
  | goes request fate =>
    obtain ⟨asked,found,rfl⟩ := map_eq_some_iff.mp taken
    refine sane.goes found ?_
    simpa [Event.spares,found] using spared
  | refuses request =>
    obtain ⟨asked,found,rfl⟩ := map_eq_some_iff.mp taken
    obtain ⟨found,early⟩ := filter_eq_some_iff.mp found
    refine sane.ends (fun definition record phase there => ?_)
    cases found.symm.trans there
    cases early

theorem sane_first (distinct : (shipped.map Definition.id).Nodup) : Sane shipped (State.first shipped) := by
  constructor
  case toRows =>
    constructor
    case catalogue =>
      intro definition member
      refine lookup_fill_of_mem ?_ (mem_map.mpr ⟨definition,member,rfl⟩)
      simpa [Function.comp_def] using distinct
    all_goals intros; contradiction
  all_goals intros; contradiction

/-! Data volumes, which no request removes, and custom definitions, which no request makes. -/

structure Framed (state next : State) : Prop where
  volumes : state.volumes <+: next.volumes
  custom : ∀ id definition, next.custom.lookup id = some definition → state.custom.lookup id = some definition

theorem framed (volumes : next.volumes = state.volumes) (custom : next.custom = state.custom) : Framed state next :=
  ⟨volumes ▸ prefix_refl _,fun id definition found => by rwa [custom] at found⟩

theorem attempt_framed {made : Option State} (more : ∀ next, made = some next → Framed state next) :
    Framed state (state.attempt fate made).1 := by
  unfold State.attempt
  split
  next next => exact more next rfl
  next next => exact more next rfl
  next => exact framed rfl rfl

theorem build_framed (phase : Phase) : Framed state (state.build request definition record fate phase) := by
  cases phase with
  | pod =>
    have made : Framed state (state.attempt fate (state.createPod definition.slug record)).1 := by
      refine attempt_framed (fun next made => ?_)
      unfold State.createPod at made
      obtain ⟨-,made⟩ := of_unless made
      cases made
      exact framed rfl rfl
    exact ⟨made.volumes,made.custom⟩
  | pull rest => cases rest <;> exact framed rfl rfl
  | container first rest =>
    have made : Framed state (state.attempt fate (state.createContainer definition.slug record first)).1 := by
      refine attempt_framed (fun next made => ?_)
      unfold State.createContainer at made
      obtain ⟨-,made⟩ := of_unless made
      cases made
      exact ⟨prefix_append _ _,fun _ _ found => found⟩
    exact ⟨made.volumes,made.custom⟩
  | undo rest =>
    cases rest with
    | nil => exact framed rfl rfl
    | cons first rest => cases fate <;> exact framed rfl rfl
  | undoPod => cases fate <;> exact framed rfl rfl
  | undoRow => exact framed rfl rfl

theorem go_framed (asked : Request) : Framed state (state.go request fate asked) := by
  cases asked with
  | build definition record phase => exact build_framed phase
  | reserve definition used offset =>
    simp only [State.go,State.reserve]
    repeat' split
    all_goals exact framed rfl rfl
  | take definition record rest =>
    cases rest with
    | nil => exact framed rfl rfl
    | cons first rest => cases fate <;> exact framed rfl rfl
  | takePod definition record => cases fate <;> exact framed rfl rfl
  | drive definition rest =>
    cases rest with
    | nil => exact framed rfl rfl
    | cons first rest =>
      simp only [State.go]
      split <;> exact framed rfl rfl
  | remove | setState | removeCustom | checkCustom =>
    simp only [State.go]
    split <;> exact framed rfl rfl
  | withdraw id =>
    refine ⟨prefix_refl _,fun other definition found => ?_⟩
    change (state.custom.erase id).lookup other = some definition at found
    obtain ⟨-,found⟩ := lookup_erase_some found
    exact found
  | install | takeRow => exact framed rfl rfl

theorem begins_framed {found : Option Definition} {following : Definition → Request}
    (began : state.begins request found following = some next) : Framed state next := by
  unfold State.begins at began
  obtain ⟨-,began⟩ := of_unless began
  split at began <;>
  · cases began
    exact framed rfl rfl

theorem step_framed (taken : step shipped state event = some next) :
    Framed state next ∨ ∃ id slug volumes, state.requireCatalogue shipped slug = none ∧ next.volumes = state.volumes ∧
      next.custom = state.custom.insert id (customEntry id slug volumes) := by
  cases event with
  | installs | removes | setsState => exact .inl (begins_framed taken)
  | addsCustom id slug volumes =>
    simp only [step] at taken
    obtain ⟨-,taken⟩ := of_unless taken
    split at taken
    next =>
      cases taken
      exact .inl (framed rfl rfl)
    next unused =>
      cases taken
      exact .inr ⟨id,slug,volumes,not_isSome_iff_eq_none.mp unused,rfl,rfl⟩
  | removesCustom =>
    simp only [step] at taken
    obtain ⟨-,taken⟩ := of_unless taken
    cases taken
    exact .inl (framed rfl rfl)
  | goes request fate =>
    obtain ⟨asked,-,rfl⟩ := map_eq_some_iff.mp taken
    exact .inl (go_framed asked)
  | refuses request =>
    obtain ⟨asked,-,rfl⟩ := map_eq_some_iff.mp taken
    exact .inl (framed rfl rfl)

structure Named (shipped : List Definition) (state : State) : Prop where
  apart : ∀ id definition, state.custom.lookup id = some definition → ∀ listed ∈ shipped, listed.slug ≠ definition.slug
  single : ∀ id other definition theirs, state.custom.lookup id = some definition → state.custom.lookup other = some theirs →
    definition.slug = theirs.slug → id = other

theorem step_named (named : Named shipped state) (taken : step shipped state event = some next) : Named shipped next := by
  rcases step_framed taken with frame | ⟨id,slug,volumes,unused,-,custom⟩
  · constructor
    · exact fun id definition found => named.apart id definition (frame.custom _ _ found)
    · exact fun id other definition theirs one two => named.single _ _ _ _ (frame.custom _ _ one) (frame.custom _ _ two)
  · obtain ⟨listed,stored⟩ := or_eq_none_iff.mp unused
    have foreign : ∀ other theirs, state.custom.lookup other = some theirs → theirs.slug ≠ slug := by
      intro other theirs found same
      have never := find?_eq_none.mp (map_eq_none_iff.mp stored) (other,theirs) (mem_rows.mpr found)
      exact never (decide_eq_true same)
    have split : ∀ other theirs, next.custom.lookup other = some theirs →
        (other = id ∧ theirs.slug = slug) ∨ state.custom.lookup other = some theirs := by
      intro other theirs found
      rw [custom,lookup_insert_eq] at found
      split at found
      next here => exact .inl ⟨here,(Option.some.inj found) ▸ rfl⟩
      next => exact .inr found
    constructor
    · intro other theirs found entry member same
      rcases split other theirs found with ⟨-,named'⟩ | old
      · exact find?_eq_none.mp listed entry member (decide_eq_true (same.trans named'))
      · exact named.apart other theirs old entry member same
    · intro first second mine theirs one two same
      rcases split _ _ one with ⟨rfl,named'⟩ | one <;> rcases split _ _ two with ⟨rfl,also⟩ | two
      · rfl
      · exact absurd (same.symm.trans named') (foreign _ _ two)
      · exact absurd (same.trans also) (foreign _ _ one)
      · exact named.single _ _ _ _ one two same

theorem required_of_resolved (named : Named shipped state) (slugs : (shipped.map Definition.slug).Nodup)
    (found : state.resolve shipped id = some definition) : state.requireCatalogue shipped definition.slug = some definition := by
  unfold State.requireCatalogue
  rcases or_eq_some_iff.mp found with listed | ⟨-,own⟩
  · have member := mem_of_find?_eq_some listed
    cases first : shipped.find? (fun other => other.slug = definition.slug) with
    | none => exact absurd (decide_eq_true rfl) (find?_eq_none.mp first definition member)
    | some other =>
      have same : other.slug = definition.slug := by simpa using find?_some first
      rw [inj_on_of_nodup_map slugs (mem_of_find?_eq_some first) member same]
      rfl
  · have none : shipped.find? (fun other => other.slug = definition.slug) = none := by
      refine find?_eq_none.mpr (fun listed member same => ?_)
      exact named.apart id definition own listed member (of_decide_eq_true same)
    rw [none]
    cases first : state.custom.rows.find? (fun row => row.2.slug = definition.slug) with
    | none => exact absurd (decide_eq_true rfl) (find?_eq_none.mp first (id,definition) (mem_rows.mpr own))
    | some row =>
      have same : row.2.slug = definition.slug := by simpa using find?_some first
      have there : state.custom.lookup row.1 = some row.2 := mem_rows.mp (mem_of_find?_eq_some first)
      have key := named.single _ _ _ _ there own same
      rw [key] at there
      exact congrArg some (Option.some.inj (there.symm.trans own))

theorem run_sane {events : List Event} (distinct : (shipped.map Definition.id).Nodup)
    (met : Machine.Meets (step shipped) (fun state event => event.spares shipped state = true) (State.first shipped) events)
    (ran : Machine.run (step shipped) (State.first shipped) events = some final) : Sane shipped final :=
  run_invariant (step shipped) (fun _ _ _ sane spared taken => step_sane sane spared taken) (sane_first distinct) met ran

theorem run_named {events : List Event} (ran : Machine.run (step shipped) (State.first shipped) events = some final) :
    Named shipped final := by
  refine run_invariant_always (step shipped) (fun _ _ _ named taken => step_named named taken) ?_ ran
  constructor <;> intros <;> contradiction

theorem run_volumes {events : List Event} (ran : Machine.run (step shipped) state events = some final) :
    state.volumes <+: final.volumes := by
  induction events generalizing state with
  | nil =>
    cases ran
    exact prefix_refl _
  | cons event rest induction =>
    obtain ⟨middle,taken,later⟩ := run_cons_some (step shipped) ran
    rcases step_framed taken with frame | ⟨-,-,-,-,same,-⟩
    · exact frame.volumes.trans (induction later)
    · exact same ▸ induction later

def shop : Definition := ⟨"1","shop",[⟨"app",1⟩]⟩

def installs (request : Nat) : List Event :=
  .installs request "shop" :: List.replicate 6 (.goes request .answers)

def Event.forgives (state : State) : Event → Bool
  | .goes request fate => (state.requests.lookup request).all (fun asked =>
      match asked with
      | .build _ _ (.undo _) | .build _ _ .undoPod => fate = .answers
      | _ => true)
  | _ => true

end Depsis.Apps

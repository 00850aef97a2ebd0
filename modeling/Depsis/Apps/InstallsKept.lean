import Depsis.Apps.Installs

/-! What installs and removes of applications keep, as long as a remove does not run into an install
of the same application and a custom definition stays while it is being installed.
-/
namespace Depsis.Apps

open Depsis.Foundation AList Option

variable {shipped : List Definition} {state next final : State} {event : Event} {request record offset : Nat}
variable {definition : Definition} {id slug role : String} {row : Instance} {fate : Fate} {used : List Nat}

def State.building (state : State) (slug : String) : Bool :=
  state.requests.any (fun _ request =>
    match request with
    | .build definition _ _ => definition.slug = slug
    | _ => false)

/-- No install of the application is under way, and its record, if there is one, is the one that was read. -/
def State.clear (state : State) (slug : String) (record : Nat) : Bool :=
  !state.building slug && state.instances.all (fun _ row => row.slug ≠ slug || row.id = record)

def Request.spares (shipped : List Definition) (state : State) (fate : Fate) : Request → Bool
  | .reserve definition used offset =>
    !state.inserts definition used offset fate || state.resolve shipped definition.id = some definition
  | .build _ _ (.undo _) | .build _ _ .undoPod => fate = .answers
  | .take definition record (_::_) | .takePod definition record | .takeRow definition record => state.clear definition.slug record
  | .withdraw id => (state.instances.lookup id).isNone
  | _ => true

/-- The calls of a rollback succeed; what a remove takes is not being installed, and is what it has read; and
a custom definition is there while it is being installed. -/
def Event.spares (shipped : List Definition) (state : State) : Event → Bool
  | .goes request fate => (state.requests.lookup request).all (Request.spares shipped state fate)
  | _ => true

def Empty (state : State) (slug : String) : Prop :=
  state.pods.lookup slug = none ∧ ∀ role, state.containers.lookup (slug,role) = none

def Whole (state : State) (slug : String) (containers : List Container) : Prop :=
  (state.pods.lookup slug).isSome ∧ ∀ container ∈ containers, (state.containers.lookup (slug,container.role)).isSome

def Made (state : State) (definition : Definition) : Phase → Prop
  | .pod | .undoRow => Empty state definition.slug
  | .pull rest => ∃ done, definition.containers = done ++ rest ∧ Whole state definition.slug done
  | .container first rest => ∃ done, definition.containers = done ++ first::rest ∧ Whole state definition.slug done
  | .undo _ | .undoPod => True

def Read (state : State) (definition : Definition) (record : Nat) : Prop :=
  record < state.nextId ∧ ∀ id row, state.instances.lookup id = some row → row.id = record → id = definition.id

def Allowed (state : State) : Request → Prop
  | .install definition | .reserve definition _ _ | .remove definition | .setState definition | .drive definition _ =>
    state.known.lookup definition.id = some definition
  | .build definition record phase => state.known.lookup definition.id = some definition ∧
      (∃ row, state.instances.lookup definition.id = some row ∧ row.id = record) ∧ record ∉ state.begun ∧ Made state definition phase
  | .take definition record _ | .takePod definition record =>
    state.known.lookup definition.id = some definition ∧ Read state definition record
  | .takeRow definition record => state.known.lookup definition.id = some definition ∧ Read state definition record ∧
      (∀ row, state.instances.lookup definition.id = some row → row.id = record → Empty state definition.slug) ∧
      ∀ other owner phase, state.requests.lookup other ≠ some (.build owner record phase)
  | .removeCustom _ | .checkCustom _ | .withdraw _ => True

structure Rows (shipped : List Definition) (state : State) : Prop where
  catalogue : ∀ definition ∈ shipped, state.known.lookup definition.id = some definition
  custom : ∀ id definition, state.custom.lookup id = some definition →
    state.known.lookup id = some definition ∧ definition.id = id
  fresh : ∀ id row, state.instances.lookup id = some row → row.id < state.nextId
  ports : ∀ id other row second, state.instances.lookup id = some row → state.instances.lookup other = some second →
    row.hostPort = second.hostPort → id = other
  slugs : ∀ id other row second, state.instances.lookup id = some row → state.instances.lookup other = some second →
    row.slug = second.slug → id = other
  ids : ∀ id other row second, state.instances.lookup id = some row → state.instances.lookup other = some second →
    row.id = second.id → id = other
  resolved : ∀ id row, state.instances.lookup id = some row →
    ∃ definition, state.resolve shipped id = some definition ∧ definition.slug = row.slug
  begun : ∀ record ∈ state.begun, record < state.nextId

structure Sane (shipped : List Definition) (state : State) : Prop extends Rows shipped state where
  pods : ∀ slug owner, state.pods.lookup slug = some owner →
    ∃ id row, state.instances.lookup id = some row ∧ row.slug = slug ∧ row.id = owner
  containers : ∀ slug role owner, state.containers.lookup (slug,role) = some owner →
    ∃ id row, state.instances.lookup id = some row ∧ row.slug = slug ∧ row.id = owner
  allowed : ∀ request asked, state.requests.lookup request = some asked → Allowed state asked
  alone : ∀ request other definition second record phase later, state.requests.lookup request = some (.build definition record phase) →
    state.requests.lookup other = some (.build second record later) → request = other
  whole : ∀ id row definition, state.instances.lookup id = some row → state.resolve shipped id = some definition →
    row.id ∉ state.begun → (∀ request owner phase, state.requests.lookup request ≠ some (.build owner row.id phase)) →
      Whole state definition.slug definition.containers
  undone : ∀ entry ∈ state.undone, entry.1 = entry.2

theorem resolve_eq (id : String) : state.resolve shipped id =
    (shipped.find? (fun definition => definition.id = id)).or (state.custom.lookup id) := rfl

namespace Rows

variable (rows : Rows shipped state)

include rows

theorem resolve_known (found : state.resolve shipped id = some definition) :
    state.known.lookup id = some definition ∧ definition.id = id := by
  rcases or_eq_some_iff.mp found with listed | ⟨-,own⟩
  · have same : definition.id = id := by simpa using List.find?_some listed
    exact ⟨same ▸ rows.catalogue definition (List.mem_of_find?_eq_some listed),same⟩
  · exact rows.custom id definition own

theorem row_definition (known : state.known.lookup definition.id = some definition)
    (stored : state.instances.lookup definition.id = some row) :
    state.resolve shipped definition.id = some definition ∧ row.slug = definition.slug := by
  obtain ⟨other,found,slug⟩ := rows.resolved definition.id row stored
  cases known.symm.trans (rows.resolve_known found).1
  exact ⟨found,slug.symm⟩

end Rows

namespace Sane

variable (sane : Sane shipped state)

include sane

theorem building_row {phase : Phase} (asked : state.requests.lookup request = some (.build definition record phase)) :
    ∃ row, state.instances.lookup definition.id = some row ∧ row.id = record ∧ row.slug = definition.slug := by
  obtain ⟨known,⟨row,stored,same⟩,-⟩ := sane.allowed request _ asked
  exact ⟨row,stored,same,(sane.row_definition known stored).2⟩

theorem one_build {other second : Nat} {phase later : Phase} {theirs : Definition}
    (asked : state.requests.lookup request = some (.build definition record phase))
    (also : state.requests.lookup other = some (.build theirs second later)) (slug : definition.slug = theirs.slug) :
    request = other ∧ record = second := by
  obtain ⟨row,stored,rfl,named⟩ := sane.building_row asked
  obtain ⟨row',stored',rfl,named'⟩ := sane.building_row also
  have same := sane.slugs _ _ _ _ stored stored' (named.trans (slug.trans named'.symm))
  rw [same] at stored
  cases stored.symm.trans stored'
  exact ⟨sane.alone _ _ _ _ _ _ _ asked also,rfl⟩

theorem empty (unused : ∀ id row, state.instances.lookup id = some row → row.slug ≠ slug) : Empty state slug := by
  constructor
  · cases found : state.pods.lookup slug with
    | none => rfl
    | some owner =>
      obtain ⟨id,row,stored,same,-⟩ := sane.pods slug owner found
      exact absurd same (unused id row stored)
  · intro role
    cases found : state.containers.lookup (slug,role) with
    | none => rfl
    | some owner =>
      obtain ⟨id,row,stored,same,-⟩ := sane.containers slug role owner found
      exact absurd same (unused id row stored)

/-! The request goes on, and nothing else changes. -/

theorem turn {answer : Option Request} {requests : Table Nat Request}
    (same : ∀ other, requests.lookup other = if other = request then answer else state.requests.lookup other)
    (ended : ∀ definition record phase, state.requests.lookup request = some (.build definition record phase) →
      (∃ later, answer = some (.build definition record later)) ∨ Whole state definition.slug definition.containers)
    (begun : ∀ definition record phase, answer = some (.build definition record phase) →
      ∃ earlier, state.requests.lookup request = some (.build definition record earlier))
    (allowed : ∀ asked, answer = some asked → Allowed { state with requests := requests } asked) :
    Sane shipped { state with requests := requests } := by
  have earlier : ∀ other definition record phase, requests.lookup other = some (.build definition record phase) →
      ∃ before, state.requests.lookup other = some (.build definition record before) := by
    intro other definition record phase asked
    rw [same] at asked
    split at asked
    next here => exact here ▸ begun _ _ _ asked
    next => exact ⟨phase,asked⟩
  refine { sane with allowed := fun other asked found => ?_, alone := ?_, whole := ?_ }
  · change requests.lookup other = some asked at found
    rw [same] at found
    split at found
    next => exact allowed asked found
    next =>
      have held := sane.allowed other asked found
      cases asked with
      | takeRow definition record =>
        refine ⟨held.1,held.2.1,held.2.2.1,fun third owner phase asked => ?_⟩
        obtain ⟨before,there⟩ := earlier third owner record phase asked
        exact held.2.2.2 third owner before there
      | _ => exact held
  · intro first second left right record phase later one two
    obtain ⟨before,one⟩ := earlier _ _ _ _ one
    obtain ⟨also,two⟩ := earlier _ _ _ _ two
    exact sane.alone _ _ _ _ _ _ _ one two
  · intro id row definition stored found untouched idle
    by_cases here : ∃ owner phase, state.requests.lookup request = some (.build owner row.id phase)
    · obtain ⟨owner,phase,asked⟩ := here
      rcases ended owner row.id phase asked with ⟨later,still⟩ | whole
      · exact absurd ((same request).trans ((if_pos rfl).trans still)) (idle request owner later)
      · obtain ⟨other,there,equal,-⟩ := sane.building_row asked
        cases sane.ids _ _ _ _ stored there equal.symm
        obtain ⟨known,-⟩ := sane.allowed request _ asked
        cases (sane.resolve_known found).1.symm.trans known
        exact whole
    · refine sane.whole id row definition stored found untouched (fun other owner phase asked => ?_)
      by_cases equal : other = request
      · exact here ⟨owner,phase,equal ▸ asked⟩
      · exact idle other owner phase ((same other).trans ((if_neg equal).trans asked))

theorem continues {asked : Request} (quiet : ∀ definition record phase, state.requests.lookup request ≠ some (.build definition record phase))
    (plain : ∀ definition record phase, asked ≠ .build definition record phase)
    (allowed : Allowed (state.continues request asked) asked) : Sane shipped (state.continues request asked) :=
  sane.turn (fun _ => lookup_insert_eq _ _ _ _) (fun _ _ _ found => absurd found (quiet _ _ _))
    (fun _ _ _ same => absurd (Option.some.inj same) (plain _ _ _)) (fun _ same => Option.some.inj same ▸ allowed)

theorem ends (quiet : ∀ definition record phase, state.requests.lookup request ≠ some (.build definition record phase)) :
    Sane shipped (state.ends request) :=
  sane.turn (fun _ => lookup_erase_eq _ _ _) (fun _ _ _ found => absurd found (quiet _ _ _))
    nofun nofun

theorem phases {phase later : Phase} (asked : state.requests.lookup request = some (.build definition record phase))
    (made : Made state definition later) : Sane shipped (state.continues request (.build definition record later)) := by
  obtain ⟨known,stored,untouched,-⟩ := sane.allowed request _ asked
  refine sane.turn (fun _ => lookup_insert_eq _ _ _ _) (fun _ _ _ found => ?_) (fun _ _ _ same => ?_) (fun _ same => ?_)
  · cases asked.symm.trans found
    exact .inl ⟨later,rfl⟩
  · cases same
    exact ⟨phase,asked⟩
  · cases same
    exact ⟨known,stored,untouched,made⟩

/-! An install makes something under its name. The phase is one that asks for nothing. -/

theorem creates {pods : Table String Nat} {containers : Table (String × String) Nat} {volumes : List (String × String × Nat)}
    {phase : Phase} (asked : state.requests.lookup request = some (.build definition record phase))
    (neutral : ∀ next, Made next definition phase)
    (podsNew : ∀ slug owner, pods.lookup slug = some owner →
      state.pods.lookup slug = some owner ∨ slug = definition.slug ∧ owner = record)
    (containersNew : ∀ slug role owner, containers.lookup (slug,role) = some owner →
      state.containers.lookup (slug,role) = some owner ∨ slug = definition.slug ∧ owner = record)
    (podsMore : ∀ slug, (state.pods.lookup slug).isSome → (pods.lookup slug).isSome)
    (containersMore : ∀ name, (state.containers.lookup name).isSome → (containers.lookup name).isSome) :
    Sane shipped { state with pods := pods, containers := containers, volumes := volumes } := by
  obtain ⟨row,stored,same,named⟩ := sane.building_row asked
  have whole : ∀ slug list, Whole state slug list → Whole { state with pods := pods, containers := containers, volumes := volumes } slug list :=
    fun slug list held => ⟨podsMore slug held.1,fun container member => containersMore _ (held.2 container member)⟩
  have empty : ∀ slug, slug ≠ definition.slug → Empty state slug →
      Empty { state with pods := pods, containers := containers, volumes := volumes } slug := by
    intro slug different held
    constructor
    · refine eq_none_iff_forall_not_mem.mpr (fun owner found => ?_)
      rcases podsNew slug owner found with there | ⟨equal,-⟩
      · cases held.1.symm.trans there
      · exact different equal
    · refine fun role => eq_none_iff_forall_not_mem.mpr (fun owner found => ?_)
      rcases containersNew slug role owner found with there | ⟨equal,-⟩
      · cases (held.2 role).symm.trans there
      · exact different equal
  refine { sane with pods := fun slug owner found => ?_, containers := fun slug role owner found => ?_,
                     allowed := fun other asks found => ?_, whole := fun id row owner there found untouched idle => ?_ }
  · rcases podsNew slug owner found with there | ⟨rfl,rfl⟩
    · exact sane.pods slug owner there
    · exact ⟨definition.id,row,stored,named,same⟩
  · rcases containersNew slug role owner found with there | ⟨rfl,rfl⟩
    · exact sane.containers slug role owner there
    · exact ⟨definition.id,row,stored,named,same⟩
  · have held := sane.allowed other asks found
    cases asks with
    | build theirs second later =>
      refine ⟨held.1,held.2.1,held.2.2.1,?_⟩
      by_cases slug : definition.slug = theirs.slug
      · obtain ⟨rfl,rfl⟩ := sane.one_build asked found slug
        cases asked.symm.trans found
        exact neutral _
      · have made := held.2.2.2
        cases later with
        | pod | undoRow => exact empty _ (Ne.symm slug) made
        | pull rest | container first rest =>
          obtain ⟨done,split,there⟩ := made
          exact ⟨done,split,whole _ _ there⟩
        | undo rest => trivial
        | undoPod => trivial
    | takeRow theirs second =>
      refine ⟨held.1,held.2.1,fun other there equal => ?_,held.2.2.2⟩
      refine empty _ (fun slug => ?_) (held.2.2.1 other there equal)
      have below' := (sane.row_definition held.1 there).2
      have key := sane.slugs _ _ _ _ stored there (named.trans (slug.symm.trans below'.symm))
      rw [key] at stored
      cases stored.symm.trans there
      exact held.2.2.2 request definition phase (by rw [asked,← same,equal])
    | _ => exact held
  · exact whole _ _ (sane.whole id row owner there found untouched idle)

theorem removed {pods : Table String Nat} {containers : Table (String × String) Nat} {begun : List Nat} {undone : List (Nat × Nat)}
    (neutral : ∀ request definition record phase, state.requests.lookup request = some (.build definition record phase) →
      definition.slug = slug → ∀ next, Made next definition phase)
    (podsLess : ∀ name owner, pods.lookup name = some owner → state.pods.lookup name = some owner)
    (containersLess : ∀ name owner, containers.lookup name = some owner → state.containers.lookup name = some owner)
    (podsElse : ∀ name, name ≠ slug → pods.lookup name = state.pods.lookup name)
    (containersElse : ∀ name role, name ≠ slug → containers.lookup (name,role) = state.containers.lookup (name,role))
    (fresh : ∀ record ∈ begun, record < state.nextId) (more : ∀ record ∈ state.begun, record ∈ begun)
    (idle : ∀ request definition record phase, state.requests.lookup request = some (.build definition record phase) → record ∉ begun)
    (own : ∀ entry ∈ undone, entry.1 = entry.2)
    (spared : ∀ id row, state.instances.lookup id = some row → row.slug = slug → row.id ∉ begun →
      (∀ request owner phase, state.requests.lookup request ≠ some (.build owner row.id phase)) →
        pods.lookup slug = state.pods.lookup slug ∧ ∀ role, containers.lookup (slug,role) = state.containers.lookup (slug,role)) :
    Sane shipped { state with pods := pods, containers := containers, begun := begun, undone := undone } := by
  have empty : ∀ name, Empty state name → Empty { state with pods := pods, containers := containers, begun := begun, undone := undone } name := by
    intro name held
    constructor
    · refine eq_none_iff_forall_not_mem.mpr (fun owner found => ?_)
      cases held.1.symm.trans (podsLess name owner found)
    · refine fun role => eq_none_iff_forall_not_mem.mpr (fun owner found => ?_)
      cases (held.2 role).symm.trans (containersLess _ owner found)
  have whole : ∀ name list, name ≠ slug → Whole state name list →
      Whole { state with pods := pods, containers := containers, begun := begun, undone := undone } name list := by
    intro name list different held
    refine ⟨(congrArg Option.isSome (podsElse name different)).trans held.1,fun container member => ?_⟩
    exact (congrArg Option.isSome (containersElse name _ different)).trans (held.2 container member)
  refine { sane with begun := fresh, pods := fun name owner found => sane.pods name owner (podsLess name owner found),
                     containers := fun name role owner found => sane.containers name role owner (containersLess _ owner found),
                     allowed := fun other asks found => ?_, undone := own,
                     whole := fun id row owner there found untouched quiet => ?_ }
  · have held := sane.allowed other asks found
    cases asks with
    | build theirs second later =>
      refine ⟨held.1,held.2.1,idle _ _ _ _ found,?_⟩
      by_cases same : theirs.slug = slug
      · exact neutral _ _ _ _ found same _
      · have made := held.2.2.2
        cases later with
        | pod => exact empty _ made
        | undoRow => exact empty _ made
        | pull rest | container first rest =>
          obtain ⟨done,split,there⟩ := made
          exact ⟨done,split,whole _ _ same there⟩
        | undo rest => trivial
        | undoPod => trivial
    | takeRow theirs second =>
      exact ⟨held.1,held.2.1,fun other there equal => empty _ (held.2.2.1 other there equal),held.2.2.2⟩
    | _ => exact held
  · have held := sane.whole id row owner there found (fun member => untouched (more _ member)) quiet
    obtain ⟨theirs,found',named⟩ := sane.resolved id row there
    cases found.symm.trans found'
    by_cases same : owner.slug = slug
    · obtain ⟨podSame,containerSame⟩ := spared id row there (named.symm.trans same) untouched quiet
      subst same
      refine ⟨(congrArg Option.isSome podSame).trans held.1,fun container member => ?_⟩
      exact (congrArg Option.isSome (containerSame _)).trans (held.2 container member)
    · exact whole _ _ same held

/-! A record is removed once nothing is left under its name, and made when there is none. -/

theorem deletes (empty : ∀ row, state.instances.lookup definition.id = some row → Empty state definition.slug ∧ row.slug = definition.slug)
    (asked : ∀ row other owner phase, state.instances.lookup definition.id = some row →
      state.requests.lookup other = some (.build owner row.id phase) → other = request)
    (undone : List (Nat × Nat)) (own : ∀ entry ∈ undone, entry.1 = entry.2)
    (quiet : ∀ owner record phase, state.requests.lookup request = some (.build owner record phase) →
      ∃ row, state.instances.lookup definition.id = some row ∧ row.id = record) :
    Sane shipped ({ state with instances := state.instances.erase definition.id, undone := undone }.ends request) := by
  have stays : ∀ id row, (state.instances.erase definition.id).lookup id = some row →
      state.instances.lookup id = some row ∧ id ≠ definition.id := by
    intro id row found
    obtain ⟨different,found⟩ := lookup_erase_some found
    exact ⟨found,different⟩
  have left : ∀ other asks, (state.requests.erase request).lookup other = some asks →
      state.requests.lookup other = some asks ∧ other ≠ request := by
    intro other asks found
    obtain ⟨different,found⟩ := lookup_erase_some found
    exact ⟨found,different⟩
  constructor
  case toRows =>
    constructor
    case catalogue => exact sane.catalogue
    case custom => exact sane.custom
    case fresh => exact fun id row found => sane.fresh id row (stays id row found).1
    case ports => exact fun id other row second one two => sane.ports _ _ _ _ (stays _ _ one).1 (stays _ _ two).1
    case slugs => exact fun id other row second one two => sane.slugs _ _ _ _ (stays _ _ one).1 (stays _ _ two).1
    case ids => exact fun id other row second one two => sane.ids _ _ _ _ (stays _ _ one).1 (stays _ _ two).1
    case resolved => exact fun id row found => sane.resolved id row (stays id row found).1
    case begun => exact sane.begun
  case undone => exact own
  case pods =>
    intro slug owner found
    obtain ⟨id,row,stored,named,same⟩ := sane.pods slug owner found
    refine ⟨id,row,?_,named,same⟩
    change (state.instances.erase definition.id).lookup id = some row
    rw [lookup_erase_eq,if_neg (fun here => ?_)]
    · exact stored
    · obtain ⟨nothing,slug'⟩ := empty row (here ▸ stored)
      rw [← slug',named] at nothing
      cases nothing.1.symm.trans found
  case containers =>
    intro slug role owner found
    obtain ⟨id,row,stored,named,same⟩ := sane.containers slug role owner found
    refine ⟨id,row,?_,named,same⟩
    change (state.instances.erase definition.id).lookup id = some row
    rw [lookup_erase_eq,if_neg (fun here => ?_)]
    · exact stored
    · obtain ⟨nothing,slug'⟩ := empty row (here ▸ stored)
      rw [← slug',named] at nothing
      cases (nothing.2 role).symm.trans found
  case allowed =>
    intro other asks found
    obtain ⟨found,different⟩ := left other asks found
    have held := sane.allowed other asks found
    cases asks with
    | build theirs second later =>
      obtain ⟨row,stored,same⟩ := held.2.1
      refine ⟨held.1,⟨row,?_,same⟩,held.2.2⟩
      change (state.instances.erase definition.id).lookup theirs.id = some row
      rw [lookup_erase_eq,if_neg (fun here => ?_)]
      · exact stored
      · exact different (asked row other theirs later (here ▸ stored) (same ▸ found))
    | take theirs second rest | takePod theirs second => exact ⟨held.1,held.2.1,fun id row found => held.2.2 id row (stays id row found).1⟩
    | takeRow theirs second =>
      refine ⟨held.1,⟨held.2.1.1,fun id row found => held.2.1.2 id row (stays id row found).1⟩,
        fun row found => held.2.2.1 row (stays _ _ found).1,fun third owner phase asks => ?_⟩
      exact held.2.2.2 third owner phase (left _ _ asks).1
    | _ => exact held
  case alone => exact fun _ _ _ _ _ _ _ one two => sane.alone _ _ _ _ _ _ _ (left _ _ one).1 (left _ _ two).1
  case whole =>
    intro id row owner found resolves untouched idle
    obtain ⟨stored,different⟩ := stays id row found
    refine sane.whole id row owner stored resolves untouched (fun other theirs phase asks => ?_)
    by_cases here : other = request
    · obtain ⟨mine,there,same⟩ := quiet theirs row.id phase (here ▸ asks)
      exact different (sane.ids _ _ _ _ stored there same.symm)
    · refine idle other theirs phase ?_
      change (state.requests.erase request).lookup other = _
      rw [lookup_erase_eq,if_neg here]
      exact asks

theorem reserves {port : Nat} (asked : ∀ owner record phase, state.requests.lookup request ≠ some (.build owner record phase))
    (resolves : state.resolve shipped definition.id = some definition)
    (missing : state.instances.lookup definition.id = none)
    (unused : ∀ id row, state.instances.lookup id = some row → row.slug ≠ definition.slug ∧ row.hostPort ≠ port) :
    Sane shipped { state with
      instances := state.instances.insert definition.id ⟨state.nextId,definition.slug,port⟩
      nextId := state.nextId + 1
      requests := state.requests.insert request (.build definition state.nextId .pod) } := by
  have cases' : ∀ id row, (state.instances.insert definition.id ⟨state.nextId,definition.slug,port⟩).lookup id = some row →
      (id = definition.id ∧ row = ⟨state.nextId,definition.slug,port⟩) ∨ state.instances.lookup id = some row := by
    intro id row found
    exact (lookup_insert_cases found).imp_right And.right
  have stays : ∀ id row, state.instances.lookup id = some row →
      (state.instances.insert definition.id ⟨state.nextId,definition.slug,port⟩).lookup id = some row := by
    intro id row stored
    rw [lookup_insert_eq,if_neg (fun here => ?_)]
    · exact stored
    · cases missing.symm.trans (here ▸ stored)
  have left : ∀ other asks, (state.requests.insert request (.build definition state.nextId .pod)).lookup other = some asks →
      (other = request ∧ asks = .build definition state.nextId .pod) ∨ (state.requests.lookup other = some asks ∧ other ≠ request) := by
    intro other asks found
    rcases lookup_insert_cases found with ⟨here,is⟩ | ⟨different,found⟩
    · exact .inl ⟨here,is⟩
    · exact .inr ⟨found,different⟩
  have old : ∀ other owner record phase, state.requests.lookup other = some (.build owner record phase) → record < state.nextId := by
    intro other owner record phase found
    obtain ⟨row,stored,rfl,-⟩ := sane.building_row found
    exact sane.fresh _ row stored
  obtain ⟨known,-⟩ := sane.resolve_known resolves
  constructor
  case toRows =>
    constructor
    case catalogue => exact sane.catalogue
    case custom => exact sane.custom
    case begun => exact fun record member => Nat.lt_succ_of_lt (sane.begun record member)
    case fresh =>
      intro id row found
      rcases cases' id row found with ⟨-,rfl⟩ | stored
      · exact Nat.lt_succ_self _
      · exact Nat.lt_succ_of_lt (sane.fresh id row stored)
    case ports =>
      intro id other row second one two same
      rcases cases' _ _ one with ⟨rfl,rfl⟩ | one <;> rcases cases' _ _ two with ⟨rfl,rfl⟩ | two
      · rfl
      · exact absurd same.symm (unused _ _ two).2
      · exact absurd same (unused _ _ one).2
      · exact sane.ports _ _ _ _ one two same
    case slugs =>
      intro id other row second one two same
      rcases cases' _ _ one with ⟨rfl,rfl⟩ | one <;> rcases cases' _ _ two with ⟨rfl,rfl⟩ | two
      · rfl
      · exact absurd same.symm (unused _ _ two).1
      · exact absurd same (unused _ _ one).1
      · exact sane.slugs _ _ _ _ one two same
    case ids =>
      intro id other row second one two same
      rcases cases' _ _ one with ⟨rfl,rfl⟩ | one <;> rcases cases' _ _ two with ⟨rfl,rfl⟩ | two
      · rfl
      · exact absurd same.symm (Nat.ne_of_lt (sane.fresh _ _ two))
      · exact absurd same (Nat.ne_of_lt (sane.fresh _ _ one))
      · exact sane.ids _ _ _ _ one two same
    case resolved =>
      intro id row found
      rcases cases' id row found with ⟨rfl,rfl⟩ | stored
      · exact ⟨definition,resolves,rfl⟩
      · exact sane.resolved id row stored
  case undone => exact sane.undone
  case pods =>
    intro slug owner found
    obtain ⟨id,row,stored,facts⟩ := sane.pods slug owner found
    exact ⟨id,row,stays id row stored,facts⟩
  case containers =>
    intro slug role owner found
    obtain ⟨id,row,stored,facts⟩ := sane.containers slug role owner found
    exact ⟨id,row,stays id row stored,facts⟩
  case allowed =>
    have read : ∀ theirs second, Read state theirs second → ∀ id row,
        (state.instances.insert definition.id ⟨state.nextId,definition.slug,port⟩).lookup id = some row → row.id = second → id = theirs.id := by
      intro theirs second held id row found same
      rcases cases' id row found with ⟨-,rfl⟩ | stored
      · exact absurd same (Ne.symm (Nat.ne_of_lt held.1))
      · exact held.2 id row stored same
    intro other asks found
    rcases left other asks found with ⟨-,rfl⟩ | ⟨found,-⟩
    · refine ⟨known,⟨_,lookup_insert _,rfl⟩,fun member => Nat.lt_irrefl _ (sane.begun _ member),?_⟩
      exact sane.empty (fun id row stored => (unused id row stored).1)
    · have held := sane.allowed other asks found
      cases asks with
      | build theirs second later =>
        obtain ⟨row,stored,same⟩ := held.2.1
        exact ⟨held.1,⟨row,stays _ _ stored,same⟩,held.2.2⟩
      | take theirs second rest | takePod theirs second => exact ⟨held.1,Nat.lt_succ_of_lt held.2.1,read theirs second held.2⟩
      | takeRow theirs second =>
        refine ⟨held.1,⟨Nat.lt_succ_of_lt held.2.1.1,read theirs second held.2.1⟩,fun row found same => ?_,fun third owner phase asks => ?_⟩
        · rcases cases' _ row found with ⟨-,rfl⟩ | stored
          · exact absurd same (Ne.symm (Nat.ne_of_lt held.2.1.1))
          · exact held.2.2.1 row stored same
        · rcases left _ _ asks with ⟨-,equal⟩ | ⟨asks,-⟩
          · cases equal
            exact Nat.lt_irrefl _ held.2.1.1
          · exact held.2.2.2 third owner phase asks
      | _ => exact held
  case alone =>
    intro first second mine theirs record phase later one two
    rcases left _ _ one with ⟨rfl,same⟩ | ⟨before,-⟩ <;> rcases left _ _ two with ⟨rfl,also⟩ | ⟨earlier,-⟩
    · rfl
    · cases same
      exact absurd (old _ _ _ _ earlier) (Nat.lt_irrefl _)
    · cases also
      exact absurd (old _ _ _ _ before) (Nat.lt_irrefl _)
    · exact sane.alone _ _ _ _ _ _ _ before earlier
  case whole =>
    intro id row owner found resolved untouched idle
    rcases cases' id row found with ⟨rfl,rfl⟩ | stored
    · exact absurd (lookup_insert _) (idle request definition .pod)
    · refine sane.whole id row owner stored resolved untouched (fun other theirs phase asks => idle other theirs phase ?_)
      have different : other ≠ request := fun here => asked theirs row.id phase (here ▸ asks)
      change (state.requests.insert request _).lookup other = _
      rw [lookup_insert_eq,if_neg different]
      exact asks

theorem adds {volumes : Nat} (fresh : state.known.lookup id = none) : Sane shipped { state with
    custom := state.custom.insert id (customEntry id slug volumes), known := state.known.insert id (customEntry id slug volumes) } := by
  have kept : ∀ other definition, state.known.lookup other = some definition →
      (state.known.insert id (customEntry id slug volumes)).lookup other = some definition := by
    intro other definition found
    rw [lookup_insert_eq,if_neg (fun here => ?_)]
    · exact found
    · cases fresh.symm.trans (here ▸ found)
  have same : ∀ other row, state.instances.lookup other = some row → State.resolve shipped { state with
      custom := state.custom.insert id (customEntry id slug volumes), known := state.known.insert id (customEntry id slug volumes) } other =
        state.resolve shipped other := by
    intro other row stored
    obtain ⟨definition,found,-⟩ := sane.resolved other row stored
    rw [resolve_eq,resolve_eq]
    rw [lookup_insert_eq,if_neg (fun here => ?_)]
    cases fresh.symm.trans (here ▸ (sane.resolve_known found).1)
  refine { sane with catalogue := fun definition member => kept _ _ (sane.catalogue definition member),
                     custom := fun other definition found => ?_, resolved := fun other row stored => ?_,
                     allowed := fun other asks found => ?_, whole := fun other row owner stored found => ?_ }
  · change (state.custom.insert id _).lookup other = some definition at found
    rcases lookup_insert_cases found with ⟨here,rfl⟩ | ⟨-,found⟩
    · exact ⟨here ▸ lookup_insert _,here.symm⟩
    · obtain ⟨known,named⟩ := sane.custom other definition found
      exact ⟨kept _ _ known,named⟩
  · rw [same other row stored]
    exact sane.resolved other row stored
  · have held := sane.allowed other asks found
    cases asks with
    | removeCustom | checkCustom | withdraw => exact held
    | build theirs | take theirs | takePod theirs | takeRow theirs => exact ⟨kept _ _ held.1,held.2⟩
    | _ => exact kept _ _ held
  · rw [same other row stored] at found
    exact sane.whole other row owner stored found

theorem withdraws (unused : state.instances.lookup id = none) :
    Sane shipped { state with custom := state.custom.erase id } := by
  have same : ∀ other row, state.instances.lookup other = some row →
      State.resolve shipped { state with custom := state.custom.erase id } other = state.resolve shipped other := by
    intro other row stored
    rw [resolve_eq,resolve_eq]
    change Option.or _ ((state.custom.erase id).lookup other) = _
    rw [lookup_erase_eq,if_neg (fun here => ?_)]
    cases unused.symm.trans (here ▸ stored)
  refine { sane with custom := fun other definition found => ?_, resolved := fun other row stored => ?_,
                     allowed := fun other asks found => ?_, whole := fun other row owner stored found => ?_ }
  · change (state.custom.erase id).lookup other = some definition at found
    obtain ⟨-,found⟩ := lookup_erase_some found
    exact sane.custom other definition found
  · rw [same other row stored]
    exact sane.resolved other row stored
  · have held := sane.allowed other asks found
    cases asks <;> exact held
  · rw [same other row stored] at found
    exact sane.whole other row owner stored found

omit sane in
theorem phased {requests : Table Nat Request} {phase later : Phase}
    (kept : Sane shipped { state with requests := requests.insert request (.build definition record phase) })
    (made : Made state definition later) :
    Sane shipped { state with requests := requests.insert request (.build definition record later) } := by
  have asked : (requests.insert request (.build definition record phase)).lookup request = some (.build definition record phase) :=
    lookup_insert _
  obtain ⟨known,stored,untouched,-⟩ := kept.allowed request _ asked
  have same : ∀ other, (requests.insert request (.build definition record later)).lookup other =
      if other = request then some (.build definition record later)
      else (requests.insert request (.build definition record phase)).lookup other := by
    intro other
    rw [lookup_insert_eq,lookup_insert_eq]
    split <;> rfl
  refine kept.turn same (fun _ _ _ found => ?_) (fun _ _ _ same => ?_) (fun _ same => ?_)
  · cases asked.symm.trans found
    exact .inl ⟨later,rfl⟩
  · cases same
    exact ⟨phase,asked⟩
  · cases same
    exact ⟨known,stored,untouched,made⟩

end Sane

end Depsis.Apps

import Depsis.Foundation.Machine
import Depsis.Foundation.Table

/-! Applications of one organization: definitions, the records of what is installed, and the pods
and containers behind them. Each statement and each call of Podman is a step of its own. Names are
kept in their parts: a pod is named by its slug, a container by slug and role.
-/
namespace Depsis.Apps

open Depsis.Foundation

def PORT_BASE : Nat := 39000

def PORT_SPAN : Nat := 1000

structure Container where
  role : String
  volumes : Nat
deriving DecidableEq

structure Definition where
  id : String
  slug : String
  containers : List Container
deriving DecidableEq

def customEntry (id slug : String) (volumes : Nat) : Definition := ⟨id,slug,[⟨"app",volumes⟩]⟩

structure Instance where
  id : Nat
  slug : String
  hostPort : Nat

inductive Fate where
  | answers
  | fails
  | fallsSilent
deriving DecidableEq

inductive Phase where
  | pod
  | pull (rest : List Container)
  | container (first : Container) (rest : List Container)
  | undo (rest : List Container)
  | undoPod
  | undoRow

inductive Request where
  | install (definition : Definition)
  | reserve (definition : Definition) (used : List Nat) (offset : Nat)
  | build (definition : Definition) (record : Nat) (phase : Phase)
  | remove (definition : Definition)
  | take (definition : Definition) (record : Nat) (rest : List Container)
  | takePod (definition : Definition) (record : Nat)
  | takeRow (definition : Definition) (record : Nat)
  | setState (definition : Definition)
  | drive (definition : Definition) (rest : List Container)
  | removeCustom (slug : String)
  | checkCustom (id : String)
  | withdraw (id : String)

structure State where
  custom : Table String Definition
  instances : Table String Instance
  pods : Table String Nat
  containers : Table (String × String) Nat
  volumes : List (String × String × Nat)
  requests : Table Nat Request
  nextId : Nat
  known : Table String Definition
  begun : List Nat
  undone : List (Nat × Nat)

inductive Event where
  | installs (request : Nat) (slug : String)
  | removes (request : Nat) (slug : String)
  | setsState (request : Nat) (slug : String)
  | addsCustom (id slug : String) (volumes : Nat)
  | removesCustom (request : Nat) (slug : String)
  | goes (request : Nat) (fate : Fate)
  | refuses (request : Nat)

section

variable (shipped : List Definition) (state : State)

def State.requireCatalogue (slug : String) : Option Definition :=
  (shipped.find? (fun definition => definition.slug = slug)).or
    ((state.custom.rows.find? (fun row => row.2.slug = slug)).map Prod.snd)

def State.resolve (id : String) : Option Definition :=
  (shipped.find? (fun definition => definition.id = id)).or (state.custom.lookup id)

variable {shipped}

def State.continues (request : Nat) (next : Request) : State := { state with requests := state.requests.insert request next }

def State.ends (request : Nat) : State := { state with requests := state.requests.erase request }

def State.begins (request : Nat) (found : Option Definition) (next : Definition → Request) : Option State :=
  if (state.requests.lookup request).isSome then none
  else match found with
  -- `AppNotInCatalogueError`
  | none => some state
  | some definition => some (state.continues request (next definition))

def State.createPod (slug : String) (record : Nat) : Option State :=
  if (state.pods.lookup slug).isSome then none else some { state with pods := state.pods.insert slug record }

def State.createContainer (slug : String) (record : Nat) (container : Container) : Option State :=
  if (state.pods.lookup slug).isNone || (state.containers.lookup (slug,container.role)).isSome then none
  else some { state with
    containers := state.containers.insert (slug,container.role) record
    volumes := state.volumes ++ (List.range container.volumes).map (fun index => (slug,container.role,index)) }

def State.removeContainer (slug role : String) : State := { state with containers := state.containers.erase (slug,role) }

def State.removePod (slug : String) : State :=
  { state with pods := state.pods.erase slug, containers := state.containers.retain (fun name _ => name.1 ≠ slug) }

def State.ownerOf (slug role : String) : List Nat := (state.containers.lookup (slug,role)).toList

def State.ownersOf (slug : String) : List Nat :=
  (state.pods.lookup slug).toList ++ (state.containers.rows.filter (fun row => row.1.1 = slug)).map Prod.snd

def State.reserved (definition : Definition) (port : Nat) : Bool :=
  state.instances.any (fun _ row => row.slug = definition.slug || row.hostPort = port)

def State.inserts (definition : Definition) (used : List Nat) (offset : Nat) (fate : Fate) : Bool :=
  offset < PORT_SPAN && !used.contains (PORT_BASE+offset) && fate = .answers &&
    (state.instances.lookup definition.id).isNone && !state.reserved definition (PORT_BASE+offset)

def State.reserve (request : Nat) (definition : Definition) (used : List Nat) (offset : Nat) (fate : Fate) : State :=
  -- `NoFreePortError`
  if PORT_SPAN ≤ offset then state.ends request
  else if used.contains (PORT_BASE+offset) || fate ≠ .answers then state.continues request (.reserve definition used (offset+1))
  -- `AlreadyInstalledError`
  else if (state.instances.lookup definition.id).isSome then state.ends request
  else if state.reserved definition (PORT_BASE+offset) then state.continues request (.reserve definition used (offset+1))
  else { state with
    instances := state.instances.insert definition.id ⟨state.nextId,definition.slug,PORT_BASE+offset⟩
    nextId := state.nextId + 1
    requests := state.requests.insert request (.build definition state.nextId .pod) }

def State.attempt (fate : Fate) (made : Option State) : State × Bool :=
  match fate,made with
  | .answers,some next => (next,true)
  | .fallsSilent,some next => (next,false)
  | _,_ => (state,false)

def State.build (request : Nat) (definition : Definition) (record : Nat) (fate : Fate) : Phase → State
  | .pod =>
    let (next,succeeded) := state.attempt fate (state.createPod definition.slug record)
    next.continues request (.build definition record
      (if succeeded then .pull definition.containers else .undo definition.containers))
  | .pull [] => state.ends request
  | .pull (first::rest) =>
    state.continues request (.build definition record
      (if fate = .answers then .container first rest else .undo definition.containers))
  | .container first rest =>
    let (next,succeeded) := state.attempt fate (state.createContainer definition.slug record first)
    next.continues request (.build definition record (if succeeded then .pull rest else .undo definition.containers))
  | .undo [] => state.continues request (.build definition record .undoPod)
  -- `forget`
  | .undo (first::rest) =>
    let next := if fate = .fails then state else
      { state.removeContainer definition.slug first.role with
        undone := state.undone ++ (state.ownerOf definition.slug first.role).map (·,record) }
    next.continues request (.build definition record (.undo rest))
  | .undoPod =>
    let next := if fate = .fails then state else
      { state.removePod definition.slug with undone := state.undone ++ (state.ownersOf definition.slug).map (·,record) }
    next.continues request (.build definition record .undoRow)
  | .undoRow =>
    { state with
      instances := state.instances.erase definition.id
      undone := state.undone ++ ((state.instances.lookup definition.id).toList.map Instance.id).map (·,record) }.ends request

def State.takes (request : Nat) (fate : Fate) (removed : State) (owners : List Nat) (next : Request) : State :=
  match fate with
  | .answers => { removed with begun := state.begun ++ owners }.continues request next
  | .fails => state.ends request
  | .fallsSilent => { removed with begun := state.begun ++ owners }.ends request

def State.go (request : Nat) (fate : Fate) : Request → State
  | .install definition => state.continues request (.reserve definition (state.instances.rows.map (fun row => row.2.hostPort)) 0)
  | .reserve definition used offset => state.reserve request definition used offset fate
  | .build definition record phase => state.build request definition record fate phase
  | .remove definition =>
    match state.instances.lookup definition.id with
    -- `NotInstalledError`
    | none => state.ends request
    | some row => state.continues request (.take definition row.id definition.containers)
  | .take definition record [] => state.continues request (.takePod definition record)
  | .take definition record (first::rest) =>
    state.takes request fate (state.removeContainer definition.slug first.role) (state.ownerOf definition.slug first.role)
      (.take definition record rest)
  | .takePod definition record =>
    state.takes request fate (state.removePod definition.slug) (state.ownersOf definition.slug) (.takeRow definition record)
  | .takeRow definition _ => { state with instances := state.instances.erase definition.id }.ends request
  | .setState definition =>
    if (state.instances.lookup definition.id).isNone then state.ends request
    else state.continues request (.drive definition definition.containers)
  | .drive _ [] => state.ends request
  | .drive definition (first::rest) =>
    if fate = .answers ∧ (state.containers.lookup (definition.slug,first.role)).isSome then
      state.continues request (.drive definition rest)
    else state.ends request
  | .removeCustom slug =>
    match state.custom.rows.find? (fun row => row.2.slug = slug) with
    | none => state.ends request
    | some row => state.continues request (.checkCustom row.1)
  | .checkCustom id =>
    if (state.instances.lookup id).isSome then state.ends request else state.continues request (.withdraw id)
  | .withdraw id => { state with custom := state.custom.erase id }.ends request

end

def Request.unreserved : Request → Bool
  | .install _ | .reserve _ _ _ => true
  | _ => false

def step (shipped : List Definition) (state : State) : Event → Option State
  | .installs request slug => state.begins request (state.requireCatalogue shipped slug) .install
  | .removes request slug => state.begins request (state.requireCatalogue shipped slug) .remove
  | .setsState request slug => state.begins request (state.requireCatalogue shipped slug) .setState
  | .addsCustom id slug volumes =>
    -- An id of its own; a slug of the catalogue or of another custom one is refused.
    if (state.known.lookup id).isSome then none
    else if (state.requireCatalogue shipped slug).isSome then some state
    else some { state with
      custom := state.custom.insert id (customEntry id slug volumes)
      known := state.known.insert id (customEntry id slug volumes) }
  | .removesCustom request slug =>
    if (state.requests.lookup request).isSome then none else some (state.continues request (.removeCustom slug))
  | .goes request fate => (state.requests.lookup request).map (state.go request fate)
  | .refuses request =>
    ((state.requests.lookup request).filter Request.unreserved).map (fun _ => state.ends request)

def State.first (shipped : List Definition) : State :=
  ⟨∅,∅,∅,∅,[],∅,0,(∅ : Table String Definition).fill (shipped.map (fun definition => (definition.id,definition))),[],[]⟩

end Depsis.Apps

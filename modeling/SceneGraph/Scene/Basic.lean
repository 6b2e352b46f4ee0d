import SceneGraph.Component
import SceneGraph.IdMap
import SceneGraph.IdSource
import SceneGraph.Scene.Error

/-!
# Scenes

A scene keeps its components in five tables, transforms and meshes together in one. A map takes
the identifier of a component to its slot, that is, its kind and its place in the table of its
kind. Look-ups go through the map and check the kind. An edit is a computation over the scene that
may be refused, and that then leaves the scene as far as it had come.
-/

namespace SceneGraph

/-- Where a component is kept: its kind gives the table, `index` the row. -/
structure Slot where
  kind : ComponentKind
  index : Nat
deriving DecidableEq, Repr

structure Scene where
  ids : IdSource := {}
  slots : IdMap Slot := .empty
  nodes : Table Node := .empty
  geometries : Table Geometry := .empty
  materials : Table Material := .empty
  shaders : Table Shader := .empty
  textures : Table Texture := .empty
deriving DecidableEq

/-- An edit of a scene; a refused one keeps what it has changed so far. -/
abbrev SceneEdit := EStateM SceneError Scene

namespace Scene

variable {α : Type}

instance : Inhabited Scene := ⟨{}⟩

def slot? (s : Scene) (id : ComponentId) : Option Slot := s.slots.get? id

def contains (s : Scene) (id : ComponentId) : Bool := s.slots.contains id

def kindOf? (s : Scene) (id : ComponentId) : Option ComponentKind := (s.slot? id).map Slot.kind

/-- The number of components. -/
def size (s : Scene) : Nat := s.slots.size

/-- The number of components of a kind. -/
def count (s : Scene) : ComponentKind → Nat
  | .transform => s.nodes.rows.countP fun n => !n.isMesh
  | .mesh => s.nodes.rows.countP Node.isMesh
  | .geometry => s.geometries.size
  | .material => s.materials.size
  | .shader => s.shaders.size
  | .texture => s.textures.size

/-- The row of a component in the table for `role`. -/
def indexOf (s : Scene) (role : Role) (id : ComponentId) : Except SceneError Nat :=
  match s.slot? id with
  | none => .error (.notFound id)
  | some slot =>
    if role.accepts slot.kind then .ok slot.index
    else .error (.wrongKind id role slot.kind)

/-- The component itself, out of the table for `role`. -/
def find (s : Scene) (role : Role) (table : Table α) (id : ComponentId) : Except SceneError α :=
  match s.indexOf role id with
  | .error e => .error e
  | .ok i => match table.get? i with
    | none => .error (.notFound id)
    | some x => .ok x

def node (s : Scene) (id : ComponentId) : Except SceneError Node := s.find .node s.nodes id

def mesh (s : Scene) (id : ComponentId) : Except SceneError Node := s.find .mesh s.nodes id

def geometry (s : Scene) (id : ComponentId) : Except SceneError Geometry :=
  s.find .geometry s.geometries id

def material (s : Scene) (id : ComponentId) : Except SceneError Material :=
  s.find .material s.materials id

def shader (s : Scene) (id : ComponentId) : Except SceneError Shader := s.find .shader s.shaders id

def texture (s : Scene) (id : ComponentId) : Except SceneError Texture :=
  s.find .texture s.textures id

/-- A component of whatever kind. -/
def component (s : Scene) (id : ComponentId) : Except SceneError Component :=
  match s.slot? id with
  | none => .error (.notFound id)
  | some slot =>
    let found : Option Component := match slot.kind with
      | .transform => (s.nodes.get? slot.index).map .transform
      | .mesh => (s.nodes.get? slot.index).map .mesh
      | .geometry => (s.geometries.get? slot.index).map .geometry
      | .material => (s.materials.get? slot.index).map .material
      | .shader => (s.shaders.get? slot.index).map .shader
      | .texture => (s.textures.get? slot.index).map .texture
    match found with
    | none => .error (.notFound id)
    | some c => .ok c

/-- Changes the row that a look-up with `role` finds; nothing if it finds none. -/
def modifyRow (s : Scene) (role : Role) (table : Table α) (id : ComponentId) (f : α → α) :
    Table α :=
  match s.indexOf role id with
  | .error _ => table
  | .ok i => table.modify i f

def modifyNode (s : Scene) (id : ComponentId) (f : Node → Node) : Scene :=
  { s with nodes := s.modifyRow .node s.nodes id f }

def modifyGeometry (s : Scene) (id : ComponentId) (f : Geometry → Geometry) : Scene :=
  { s with geometries := s.modifyRow .geometry s.geometries id f }

def modifyMaterial (s : Scene) (id : ComponentId) (f : Material → Material) : Scene :=
  { s with materials := s.modifyRow .material s.materials id f }

def modifyShader (s : Scene) (id : ComponentId) (f : Shader → Shader) : Scene :=
  { s with shaders := s.modifyRow .shader s.shaders id f }

def modifyTexture (s : Scene) (id : ComponentId) (f : Texture → Texture) : Scene :=
  { s with textures := s.modifyRow .texture s.textures id f }

/-- The parent of a node; null at the top, and for what is no node. -/
def parentOf (s : Scene) (id : ComponentId) : ComponentId :=
  match s.node id with
  | .ok n => n.parent
  | .error _ => .null

/-- The nodes at the top of the hierarchy, in storage order. -/
def roots (s : Scene) : List ComponentId :=
  (s.nodes.rows.filter fun n => n.parent.isNull).map Node.id

/-- An edit that only asks, and is refused if the answer is an error. -/
def ask (f : Scene → Except SceneError α) : SceneEdit α := fun s =>
  match f s with
  | .ok x => .ok x s
  | .error e => .error e s

/-- Changes a node; refused if there is none of that identifier. -/
def updateNode (id : ComponentId) (f : Node → Node) : SceneEdit Unit := do
  let _ ← ask (node · id)
  modify fun s => s.modifyNode id f

def updateGeometry (id : ComponentId) (f : Geometry → Geometry) : SceneEdit Unit := do
  let _ ← ask (geometry · id)
  modify fun s => s.modifyGeometry id f

def updateMaterial (id : ComponentId) (f : Material → Material) : SceneEdit Unit := do
  let _ ← ask (material · id)
  modify fun s => s.modifyMaterial id f

def updateShader (id : ComponentId) (f : Shader → Shader) : SceneEdit Unit := do
  let _ ← ask (shader · id)
  modify fun s => s.modifyShader id f

def updateTexture (id : ComponentId) (f : Texture → Texture) : SceneEdit Unit := do
  let _ ← ask (texture · id)
  modify fun s => s.modifyTexture id f

/-- Puts a copy of the record of `source`, identifier and links included, in the place of the
record of `target`. The map keeps its entries, so this may leave the scene inconsistent. -/
def overwriteNode (target source : ComponentId) : SceneEdit Unit := do
  let n ← ask (node · source)
  updateNode target fun _ => n

theorem run_ask_ok {f : Scene → Except SceneError α} {s : Scene} {x : α} (h : f s = .ok x) :
    ask f s = .ok x s := by simp [ask, h]

theorem run_ask_error {f : Scene → Except SceneError α} {s : Scene} {e : SceneError}
    (h : f s = .error e) : ask f s = .error e s := by simp [ask, h]

end Scene

end SceneGraph

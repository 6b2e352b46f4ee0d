import SceneGraph.Scene.Basic

/-!
# Adding and naming components

A component is added either under an identifier of the scene's own source or under one that was
chosen elsewhere, which must not be null or in use and is then reserved.
-/

namespace SceneGraph.Scene

/-- Adds a component under an identifier that is taken to be free. -/
def add (s : Scene) (kind : ComponentKind) (id : ComponentId) (name : String) : Scene :=
  match kind with
  | .transform =>
    let (i, t) := s.nodes.push (Node.new id name)
    { s with nodes := t, slots := s.slots.insert id ⟨kind, i⟩ }
  | .mesh =>
    let (i, t) := s.nodes.push { Node.new id name with mesh := some {} }
    { s with nodes := t, slots := s.slots.insert id ⟨kind, i⟩ }
  | .geometry =>
    let (i, t) := s.geometries.push (Geometry.new id name)
    { s with geometries := t, slots := s.slots.insert id ⟨kind, i⟩ }
  | .material =>
    let (i, t) := s.materials.push (Material.new id name)
    { s with materials := t, slots := s.slots.insert id ⟨kind, i⟩ }
  | .shader =>
    let (i, t) := s.shaders.push (Shader.new id name)
    { s with shaders := t, slots := s.slots.insert id ⟨kind, i⟩ }
  | .texture =>
    let (i, t) := s.textures.push (Texture.new id name 0 0)
    { s with textures := t, slots := s.slots.insert id ⟨kind, i⟩ }

/-- Draws an identifier from the source. -/
def allocate (s : Scene) : ComponentId × Scene :=
  (s.ids.allocate.1, { s with ids := s.ids.allocate.2 })

def reserve (s : Scene) (id : ComponentId) : Scene := { s with ids := s.ids.reserve id }

/-- Adds a component under an identifier from the source. -/
def create (s : Scene) (kind : ComponentKind) (name : String) : ComponentId × Scene :=
  let (id, s) := s.allocate
  (id, s.add kind id name)

/-- Adds a component under an identifier that was chosen elsewhere. -/
def insert (kind : ComponentKind) (id : ComponentId) (name : String) : SceneEdit Unit := do
  let s ← get
  if id.isNull then throw .nullId
  if s.contains id then throw (.duplicateId id)
  set ((s.reserve id).add kind id name)

/-- Gives a component another name. -/
def setName (id : ComponentId) (name : String) : SceneEdit Unit := do
  let c ← ask (component · id)
  modify fun s => match c with
    | .transform _ | .mesh _ => s.modifyNode id (Row.rename name)
    | .geometry _ => s.modifyGeometry id (Row.rename name)
    | .material _ => s.modifyMaterial id (Row.rename name)
    | .shader _ => s.modifyShader id (Row.rename name)
    | .texture _ => s.modifyTexture id (Row.rename name)

end SceneGraph.Scene

import SceneGraph.Scene.Hierarchy

/-!
# Destroying components

Destruction is shallow. The children of a node go to its parent, a mesh leaves its geometry, and
what referred to a geometry, a material or a shader that is gone refers to nothing. The row of the
component is then swap-erased, and the slot of the row that moved follows it.
-/

namespace SceneGraph.Scene

/-- Hands a child of a node that is to go over to `parent`. -/
def adopt (s : Scene) (parent child : ComponentId) : Scene :=
  ((s.modifyNode child fun n => { n with parent }).modifyNode parent fun p =>
    { p with children := p.children ++ [child] }).flag child .world

/-- Takes a node out of the hierarchy and out of its geometry. -/
def orphan (id : ComponentId) : SceneEdit Unit := do
  let n ← ask (node · id)
  modify fun s => s.modifyNode id fun n => { n with children := [], mesh := none }
  modify fun s => s.detach id
  modify fun s => n.children.foldl (fun s c => s.adopt n.parent c) s
  match n.mesh with
  | none => return
  | some b => if !b.geometry.isNull then
    modify fun s => s.modifyGeometry b.geometry fun g => g.unbind id

/-- Clears the references of the meshes bound to a geometry. -/
def forgetGeometry (s : Scene) (id : ComponentId) : Scene :=
  match s.geometry id with
  | .error _ => s
  | .ok g => g.bindings.foldl (fun s mesh => s.modifyNode mesh fun n =>
      { n with mesh := n.mesh.map fun b => { b with geometry := .null } }) s

/-- Clears the references of all meshes to a material; their geometries become stale. -/
def forgetMaterial (s : Scene) (id : ComponentId) : Scene :=
  let affected := s.nodes.rows.filterMap fun n => match n.mesh with
    | some b => if b.material = id then some b.geometry else none
    | none => none
  let nodes := s.nodes.map fun n => { n with
    mesh := n.mesh.map fun b => if b.material = id then { b with material := .null } else b }
  affected.foldl (fun s g => s.modifyGeometry g fun g => { g with instancesStale := true })
    { s with nodes }

/-- Clears the references of all materials to a shader. -/
def forgetShader (s : Scene) (id : ComponentId) : Scene :=
  { s with materials := s.materials.map fun m =>
      { m with shader := if m.shader = id then .null else m.shader } }

/-- A table without row `i`, and the identifier of the row that moved there. -/
def swapRemove {α : Type} [Row α] (t : Table α) (i : Nat) : Option ComponentId × Table α :=
  match t.swapRemove? i with
  | none => (none, t)
  | some (_, moved, t) => (moved, t)

/-- Removes the row and the slot of a component. -/
def removeSlot (s : Scene) (id : ComponentId) (slot : Slot) : Scene :=
  let (moved, s) := match slot.kind with
    | .transform | .mesh =>
      let (moved, t) := swapRemove s.nodes slot.index; (moved, { s with nodes := t })
    | .geometry =>
      let (moved, t) := swapRemove s.geometries slot.index; (moved, { s with geometries := t })
    | .material =>
      let (moved, t) := swapRemove s.materials slot.index; (moved, { s with materials := t })
    | .shader =>
      let (moved, t) := swapRemove s.shaders slot.index; (moved, { s with shaders := t })
    | .texture =>
      let (moved, t) := swapRemove s.textures slot.index; (moved, { s with textures := t })
  let slots := s.slots.erase id
  { s with slots := match moved with
      | none => slots
      | some other => slots.modify other fun o => { o with index := slot.index } }

/-- Destroys a component and gives its kind. -/
def destroy (id : ComponentId) : SceneEdit ComponentKind := do
  let some slot := (← get).slot? id | throw (.notFound id)
  match slot.kind with
  | .transform | .mesh => orphan id
  | .geometry => modify fun s => s.forgetGeometry id
  | .material => modify fun s => s.forgetMaterial id
  | .shader => modify fun s => s.forgetShader id
  | .texture => pure ()
  modify fun s => s.removeSlot id slot
  return slot.kind

end SceneGraph.Scene

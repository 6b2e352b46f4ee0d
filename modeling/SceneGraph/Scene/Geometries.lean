import SceneGraph.Scene.Create

/-!
# Geometries, meshes and batches

The streams and indices of a geometry are replaced as a whole. A mesh is bound to at most one
geometry, which lists it: binding it anew keeps both sides in step, and makes stale every geometry
whose batches no longer show what is drawn.
-/

namespace SceneGraph.Scene

/-- Replaces a vertex stream. There have to be whole vertices, of at least one component. -/
def setVertexAttribute (id : ComponentId) (location components : UInt32) (data : List Scalar) :
    SceneEdit Unit := do
  let _ ← ask (geometry · id)
  if components = 0 ∨ data.length % components.toNat ≠ 0 then
    throw (.invalidStream id location components data.length)
  if h : location.toNat < streamLimit then
    modify fun s => s.modifyGeometry id fun g =>
      { g with
        streams := g.streams.set location.toNat (g.streams[location.toNat].replace components data)
        verticesDirty := true }
  else throw (.invalidStream id location components data.length)

def setIndices (id : ComponentId) (indices : List UInt32) : SceneEdit Unit :=
  updateGeometry id fun g =>
    { g with indices := g.indices.clear.append (Bytes.ofWords indices), verticesDirty := true }

def setVertexCount (id : ComponentId) (count : Int32) : SceneEdit Unit :=
  updateGeometry id fun g => { g with vertexOverride := count }

def setIndicesCount (id : ComponentId) (count : Int32) : SceneEdit Unit :=
  updateGeometry id fun g => { g with indexOverride := count }

/-- Binds a mesh to a geometry and a material, each of which may be null. A mesh that does not
exist is created. -/
def updateMesh (id geometry material : ComponentId) : SceneEdit Unit := do
  if !geometry.isNull then
    let _ ← ask (Scene.geometry · geometry)
  if !material.isNull then
    let _ ← ask (Scene.material · material)
  if !(← get).contains id then insert .mesh id "mesh"
  let n ← ask (mesh · id)
  let old := n.mesh.getD {}
  modify fun s => s.modifyNode id fun n => { n with mesh := some { geometry, material } }
  if old.geometry ≠ geometry then
    if !old.geometry.isNull then
      modify fun s => s.modifyGeometry old.geometry fun g => g.unbind id
    if !geometry.isNull then
      updateGeometry geometry fun g => g.bind id
  else if old.material ≠ material ∧ !geometry.isNull then
    updateGeometry geometry fun g => { g with instancesStale := true }

/-- The batches of the given meshes: one per material, ordered by material, each with its meshes in
the given order and their world matrices. What is no node is left out. -/
def batchesOf (s : Scene) (meshes : List ComponentId) : List InstanceBatch :=
  meshes.foldl (fun bs id =>
    match s.node id with
    | .ok n => InstanceBatch.insert (n.mesh.getD {}).material id n.worldMatrix bs
    | .error _ => bs) []

/-- Batches the meshes of a geometry anew, for upload. -/
def rebatch (s : Scene) (id : ComponentId) : Scene :=
  s.modifyGeometry id fun g =>
    { g with batches := s.batchesOf g.bindings, instancesStale := false, uploadPending := true }

/-- Batches the meshes of a geometry anew and gives the number of instances. -/
def rebuildGeometry (id : ComponentId) : SceneEdit Nat := do
  let _ ← ask (indexOf · .geometry id)
  modify fun s => s.rebatch id
  return match (← get).geometry id with
    | .ok g => g.instanceCount
    | .error _ => 0

/-- Batches all stale geometries anew, in storage order, and gives their number. -/
def rebuildStaleGeometries (s : Scene) : Nat × Scene :=
  let stale := (s.geometries.rows.filter fun g => g.instancesStale).map Geometry.id
  (stale.length, stale.foldl rebatch s)

/-- The batches of a geometry, if they were rebuilt since they were last asked for. -/
def takeInstanceUpload (id : ComponentId) : SceneEdit (Option (List InstanceBatch)) := do
  let g ← ask (geometry · id)
  modify fun s => s.modifyGeometry id fun g => g.takeUpload.2
  return g.takeUpload.1

/-- Whether vertices or indices of a geometry changed since the last time this was asked. -/
def takeVertexChanges (id : ComponentId) : SceneEdit Bool := do
  let g ← ask (geometry · id)
  modify fun s => s.modifyGeometry id fun g => g.takeVertexChanges.2
  return g.takeVertexChanges.1

/-- Asks every geometry, in storage order, for its batches and whether its vertices changed. -/
def takeAll (s : Scene) : List (ComponentId × Option (List InstanceBatch) × Bool) × Scene :=
  (s.geometries.rows.map fun g => (g.id, g.takeUpload.1, g.takeVertexChanges.1),
    { s with geometries := s.geometries.map fun g => g.takeUpload.2.takeVertexChanges.2 })

end SceneGraph.Scene

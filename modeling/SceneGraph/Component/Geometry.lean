import SceneGraph.Linear.Matrix
import SceneGraph.Memory.Arena
import SceneGraph.Table

/-!
# Geometries

A geometry holds streams of vertex data and indices, as bytes ready to be copied to a device, and
knows the meshes that draw it. Those are drawn in batches, one per material, each with the world
matrices of its meshes. The batches are rebuilt when the geometry has become stale, and then wait
to be uploaded.
-/

namespace SceneGraph

/-- One vertex attribute: so many scalars for each vertex. -/
structure VertexStream where
  components : UInt32 := 0
  data : Arena := .empty
deriving DecidableEq

namespace VertexStream

instance : Inhabited VertexStream := ⟨{}⟩

/-- The number of scalars. -/
def length (v : VertexStream) : Nat := v.data.size / 4

def isEmpty (v : VertexStream) : Bool := v.data.isEmpty

def scalars (v : VertexStream) : List Scalar := (Bytes.toWords v.data.live).map Scalar.mk

def vertexCount (v : VertexStream) : Nat := v.length / v.components.toNat

/-- Other contents for the stream. -/
def replace (v : VertexStream) (components : UInt32) (xs : List Scalar) : VertexStream :=
  { components, data := v.data.clear.append (Bytes.ofWords (xs.map Scalar.bits)) }

@[simp] theorem scalars_replace (v : VertexStream) (n : UInt32) (xs : List Scalar) :
    (v.replace n xs).scalars = xs := by
  simp [scalars, replace, Function.comp_def]

@[simp] theorem length_replace (v : VertexStream) (n : UInt32) (xs : List Scalar) :
    (v.replace n xs).length = xs.length := by
  simp [length, replace, Arena.size]

end VertexStream

/-- The meshes that draw a geometry with one material, and their world matrices in that order. -/
structure InstanceBatch where
  material : ComponentId
  meshes : List ComponentId := []
  instances : Arena := .empty
deriving DecidableEq

namespace InstanceBatch

def count (b : InstanceBatch) : Nat := b.instances.size / Layout.mat4.size

def matrices (b : InstanceBatch) : List Mat4 :=
  (List.range b.count).map fun i => Layout.mat4.read (b.instances.live.drop (Layout.mat4.size * i))

/-- The batch with one more mesh. -/
def add (b : InstanceBatch) (mesh : ComponentId) (world : Mat4) : InstanceBatch :=
  { b with meshes := b.meshes ++ [mesh], instances := b.instances.append (Layout.mat4.write world) }

/-- Adds a mesh to the batch of its material, in batches ordered by material. -/
def insert (material mesh : ComponentId) (world : Mat4) : List InstanceBatch → List InstanceBatch
  | [] => [add { material } mesh world]
  | b :: bs =>
    if b.material = material then b.add mesh world :: bs
    else if material.raw < b.material.raw then add { material } mesh world :: b :: bs
    else b :: insert material mesh world bs

end InstanceBatch

/-- The most vertex streams that a geometry has. -/
abbrev streamLimit : Nat := 8

structure Geometry where
  id : ComponentId
  name : String
  streams : Vector VertexStream streamLimit := Vector.replicate streamLimit {}
  indices : Arena := .empty
  /-- Vertices to draw; if negative, as many as the first stream has. -/
  vertexOverride : Int32 := -1
  /-- Indices to draw; if negative, all. -/
  indexOverride : Int32 := -1
  verticesDirty : Bool := false
  /-- The meshes that draw this geometry. -/
  bindings : List ComponentId := []
  batches : List InstanceBatch := []
  instancesStale : Bool := false
  uploadPending : Bool := false
deriving DecidableEq

namespace Geometry

def new (id : ComponentId) (name : String) : Geometry := { id, name := Name.clamp name }

def indexList (g : Geometry) : List UInt32 := Bytes.toWords g.indices.live

def vertexCount (g : Geometry) : Nat :=
  if 0 ≤ g.vertexOverride then g.vertexOverride.toInt.toNat else g.streams[0].vertexCount

def indexCount (g : Geometry) : Nat :=
  if 0 ≤ g.indexOverride then g.indexOverride.toInt.toNat else g.indices.size / 4

def batch? (g : Geometry) (material : ComponentId) : Option InstanceBatch :=
  g.batches.find? fun b => b.material = material

def instanceMatrices (g : Geometry) : List Mat4 := g.batches.flatMap InstanceBatch.matrices

def instanceCount (g : Geometry) : Nat := g.instanceMatrices.length

/-- Hands the batches out, once after each rebuild. -/
def takeUpload (g : Geometry) : Option (List InstanceBatch) × Geometry :=
  if g.uploadPending then (some g.batches, { g with uploadPending := false }) else (none, g)

/-- Whether vertices or indices have changed since the last time this was asked. -/
def takeVertexChanges (g : Geometry) : Bool × Geometry :=
  (g.verticesDirty, { g with verticesDirty := false })

/-- Adds a mesh to those that draw the geometry. -/
def bind (g : Geometry) (mesh : ComponentId) : Geometry :=
  { g with bindings := g.bindings ++ [mesh], instancesStale := true }

/-- Takes a mesh from those that draw the geometry, if it is one. -/
def unbind (g : Geometry) (mesh : ComponentId) : Geometry :=
  if mesh ∈ g.bindings then
    { g with bindings := swapErase g.bindings mesh, instancesStale := true }
  else g

instance : Row Geometry :=
  ⟨Geometry.id, Geometry.name, fun name g => { g with name := Name.clamp name }⟩

end Geometry

end SceneGraph

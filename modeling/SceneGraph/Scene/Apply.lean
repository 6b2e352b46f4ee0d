import SceneGraph.Command.Codec
import SceneGraph.Queue
import SceneGraph.Readback
import SceneGraph.Scene.Destroy
import SceneGraph.Scene.Geometries
import SceneGraph.Scene.Materials

/-!
# Applying commands

A command edits the scene, and one kind also posts a readback. Commands that cannot be carried out
are refused one by one: draining a queue goes on with the next record.
-/

namespace SceneGraph

/-- A scene, and the queue on which it answers. -/
structure Stage where
  scene : Scene
  readbacks : Queue
deriving DecidableEq

abbrev StageEdit := EStateM SceneError Stage

namespace Stage

variable {α : Type}

/-- An edit of the scene as one of the stage. -/
def edit (e : SceneEdit α) : StageEdit α := fun t =>
  match e t.scene with
  | .ok x s => .ok x { t with scene := s }
  | .error err s => .error err { t with scene := s }

/-- Posts a readback. -/
def post (r : Readback) : StageEdit Unit :=
  modify fun t => { t with readbacks := (t.readbacks.push r.kind.tag r.parts).2 }

end Stage

open Scene in
/-- The edit of the scene that a command stands for. -/
def Command.edit : Command → SceneEdit Unit
  | createTransform id name => insert .transform id name
  | setName id name => Scene.setName id name
  | destroy id => discard (Scene.destroy id)
  | addChild parent child => Scene.addChild parent child
  | removeChild parent child => Scene.removeChild parent child
  | removeAllChildren parent => discard (Scene.removeAllChildren parent)
  | reparent child parent => Scene.reparent child parent.nonNull
  | setPosition id position => Scene.setPosition id position
  | setRotation id rotation => Scene.setRotation id rotation
  | setScale id scale => Scene.setScale id scale
  | createGeometry id name => insert .geometry id name
  | setVertexAttribute geometry location components data =>
    Scene.setVertexAttribute geometry location components data
  | setIndices geometry indices => Scene.setIndices geometry indices
  | setVertexCount geometry count => Scene.setVertexCount geometry count
  | setIndicesCount geometry count => Scene.setIndicesCount geometry count
  | createShader id vertex fragment => do
    insert .shader id "shader"
    setShaderSource id vertex fragment
  | createMaterial id shader name => do
    if !shader.isNull then
      let _ ← ask (Scene.shader · shader)
    insert .material id name
    setMaterialShader id shader
  | setMaterialUniform material slot value => Scene.setMaterialUniform material slot value
  | createMesh id geometry material name => do
    if (← get).contains id then throw (.duplicateId id)
    Scene.updateMesh id geometry material
    Scene.setName id name
  | updateMesh mesh geometry material => Scene.updateMesh mesh geometry material
  | createTexture id width height name => do
    insert .texture id name
    resizeTexture id width height
  | textureWrite texture pixels => writeTexture texture pixels
  | copyTextureToCpu texture => discard (ask (Scene.texture · texture))

/-- The readback that a command asks for, if it asks for one. -/
def Command.reply? (s : Scene) : Command → Option Readback
  | copyTextureToCpu texture => match s.texture texture with
    | .ok t => some (.textureData texture t.width t.height t.pixels)
    | .error _ => none
  | _ => none

namespace Stage

/-- Carries a command out; the result tells whether a readback was posted. -/
def apply (c : Command) : StageEdit Bool := do
  edit c.edit
  match c.reply? (← get).scene with
  | none => return false
  | some r =>
    post r
    return true

/-- Reads the command that a record holds and carries it out. -/
def applyRecord (tag : UInt32) (payload : Bytes) : StageEdit Bool :=
  match Command.decode tag payload with
  | .ok c => apply c
  | .error e => throw (.malformed e)

end Stage

/-- What became of the records of one drain. -/
structure ApplyReport where
  applied : Nat := 0
  /-- Commands that were refused. -/
  rejected : Nat := 0
  /-- Records that hold no command. -/
  malformed : Nat := 0
  /-- Readbacks posted. -/
  readbacks : Nat := 0
deriving DecidableEq, Repr

namespace ApplyReport

/-- The number of records seen. -/
def total (r : ApplyReport) : Nat := r.applied + r.rejected + r.malformed

/-- The report with one more outcome. -/
def count (r : ApplyReport) : Except SceneError Bool → ApplyReport
  | .ok posted =>
    { r with applied := r.applied + 1, readbacks := r.readbacks + (if posted then 1 else 0) }
  | .error (.malformed _) => { r with malformed := r.malformed + 1 }
  | .error _ => { r with rejected := r.rejected + 1 }

end ApplyReport

namespace Stage

/-- Carries out one record of a drain and counts it. -/
def drainRecord (t : Stage × ApplyReport) (r : Record) : Stage × ApplyReport :=
  match applyRecord r.kind r.payload t.1 with
  | .ok posted stage => (stage, t.2.count (.ok posted))
  | .error e stage => (stage, t.2.count (.error e))

/-- Carries out the records on the read side of a queue, in the order of their pushes. -/
def drain (t : Stage) (commands : Queue) : Stage × ApplyReport :=
  commands.records.foldl drainRecord (t, {})

end Stage

end SceneGraph

import SceneGraph.Command.Basic
import SceneGraph.Payload

/-!
# The binary form of commands

A command travels as the tag of its kind and a payload. The payload has a fixed part, whose layout
depends on the kind alone, and after it, for some kinds, one tail or two: a text, 32-bit words or
plain bytes. A tail reaches to the end of the payload, except that the texts of a shader are as
long as its fixed part tells; bytes that no part claims are passed over.
-/

namespace SceneGraph

/-- The kind that a tag stands for. -/
def CommandKind.read (tag : UInt32) : Except DecodeError CommandKind :=
  match ofTag? tag with
  | some k => .ok k
  | none => .error (.unknownKind tag)

namespace Command

open Layout

namespace Fixed

def id : Layout ComponentId := componentId

def ids : Layout (ComponentId × ComponentId) := id.pair id

def position : Layout (ComponentId × Vec3) := (id.pair vec3).pad 4

def rotation : Layout (ComponentId × Quat) := id.pair quat

def stream : Layout (ComponentId × UInt32 × UInt32) := id.pair (word32.pair word32)

def count : Layout (ComponentId × Int32) :=
  (id.pair (word32.map UInt32.toInt32 Int32.toUInt32 fun _ => rfl)).pad 4

/-- An identifier and the lengths of two texts. -/
def shader : Layout (ComponentId × UInt32 × UInt32) := id.pair (word32.pair word32)

def uniform : Layout (ComponentId × UInt32 × Vec4) := id.pair ((word32.pad 4).pair vec4)

def mesh : Layout (ComponentId × ComponentId × ComponentId) := id.pair ids

def texture : Layout (ComponentId × UInt32 × UInt32) := id.pair (word32.pair word32)

end Fixed

/-- The length of a text as a word; a text that is too long for it gets the largest word. -/
def lengthWord (s : String) : UInt32 := UInt32.ofNat (min s.utf8ByteSize 0xffffffff)

/-- The payload of a command: its fixed part and then its tails. -/
def parts : Command → List Bytes
  | createTransform id name => [Fixed.id.write id, Bytes.ofString name]
  | setName id name => [Fixed.id.write id, Bytes.ofString name]
  | destroy id => [Fixed.id.write id]
  | addChild parent child => [Fixed.ids.write (parent, child)]
  | removeChild parent child => [Fixed.ids.write (parent, child)]
  | removeAllChildren parent => [Fixed.id.write parent]
  | reparent child parent => [Fixed.ids.write (child, parent)]
  | setPosition id position => [Fixed.position.write (id, position)]
  | setRotation id rotation => [Fixed.rotation.write (id, rotation)]
  | setScale id scale => [Fixed.position.write (id, scale)]
  | createGeometry id name => [Fixed.id.write id, Bytes.ofString name]
  | setVertexAttribute geometry location components data =>
    [Fixed.stream.write (geometry, location, components), Bytes.ofWords (data.map Scalar.bits)]
  | setIndices geometry indices => [Fixed.id.write geometry, Bytes.ofWords indices]
  | setVertexCount geometry count => [Fixed.count.write (geometry, count)]
  | setIndicesCount geometry count => [Fixed.count.write (geometry, count)]
  | createShader id vertex fragment =>
    [Fixed.shader.write (id, lengthWord vertex, lengthWord fragment), Bytes.ofString vertex,
      Bytes.ofString fragment]
  | createMaterial id shader name => [Fixed.ids.write (id, shader), Bytes.ofString name]
  | setMaterialUniform material slot value => [Fixed.uniform.write (material, slot, value)]
  | createMesh id geometry material name =>
    [Fixed.mesh.write (id, geometry, material), Bytes.ofString name]
  | updateMesh mesh geometry material => [Fixed.mesh.write (mesh, geometry, material)]
  | createTexture id width height name =>
    [Fixed.texture.write (id, width, height), Bytes.ofString name]
  | textureWrite texture pixels => [Fixed.id.write texture, pixels]
  | copyTextureToCpu texture => [Fixed.id.write texture]

def payload (c : Command) : Bytes := c.parts.flatten

/-- The two texts at the front of a shader's tail. -/
def shaderTexts (kind : String) (vertexLength fragmentLength : Nat) (tail : Bytes) :
    Except DecodeError (String × String) :=
  if tail.length < vertexLength + fragmentLength then
    .error (.truncated kind (Fixed.shader.size + (vertexLength + fragmentLength))
      (Fixed.shader.size + tail.length))
  else do
    let vertex ← Payload.text kind (tail.take vertexLength)
    let fragment ← Payload.text kind ((tail.drop vertexLength).take fragmentLength)
    return (vertex, fragment)

/-- The command of kind `k` that a payload holds. -/
def ofPayload (k : CommandKind) (payload : Bytes) : Except DecodeError Command :=
  match k with
  | .createTransform => do
    let (id, tail) ← Payload.split k.name Fixed.id payload
    return createTransform id (← Payload.text k.name tail)
  | .setName => do
    let (id, tail) ← Payload.split k.name Fixed.id payload
    return setName id (← Payload.text k.name tail)
  | .destroy => do
    let (id, _) ← Payload.split k.name Fixed.id payload
    return destroy id
  | .addChild => do
    let ((parent, child), _) ← Payload.split k.name Fixed.ids payload
    return addChild parent child
  | .removeChild => do
    let ((parent, child), _) ← Payload.split k.name Fixed.ids payload
    return removeChild parent child
  | .removeAllChildren => do
    let (parent, _) ← Payload.split k.name Fixed.id payload
    return removeAllChildren parent
  | .reparent => do
    let ((child, parent), _) ← Payload.split k.name Fixed.ids payload
    return reparent child parent
  | .setPosition => do
    let ((id, position), _) ← Payload.split k.name Fixed.position payload
    return setPosition id position
  | .setRotation => do
    let ((id, rotation), _) ← Payload.split k.name Fixed.rotation payload
    return setRotation id rotation
  | .setScale => do
    let ((id, scale), _) ← Payload.split k.name Fixed.position payload
    return setScale id scale
  | .createGeometry => do
    let (id, tail) ← Payload.split k.name Fixed.id payload
    return createGeometry id (← Payload.text k.name tail)
  | .setVertexAttribute => do
    let ((geometry, location, components), tail) ← Payload.split k.name Fixed.stream payload
    return setVertexAttribute geometry location components
      ((← Payload.words k.name tail).map Scalar.mk)
  | .setIndices => do
    let (geometry, tail) ← Payload.split k.name Fixed.id payload
    return setIndices geometry (← Payload.words k.name tail)
  | .setVertexCount => do
    let ((geometry, count), _) ← Payload.split k.name Fixed.count payload
    return setVertexCount geometry count
  | .setIndicesCount => do
    let ((geometry, count), _) ← Payload.split k.name Fixed.count payload
    return setIndicesCount geometry count
  | .createShader => do
    let ((id, vertexLength, fragmentLength), tail) ← Payload.split k.name Fixed.shader payload
    let (vertex, fragment) ← shaderTexts k.name vertexLength.toNat fragmentLength.toNat tail
    return createShader id vertex fragment
  | .createMaterial => do
    let ((id, shader), tail) ← Payload.split k.name Fixed.ids payload
    return createMaterial id shader (← Payload.text k.name tail)
  | .setMaterialUniform => do
    let ((material, slot, value), _) ← Payload.split k.name Fixed.uniform payload
    return setMaterialUniform material slot value
  | .createMesh => do
    let ((id, geometry, material), tail) ← Payload.split k.name Fixed.mesh payload
    return createMesh id geometry material (← Payload.text k.name tail)
  | .updateMesh => do
    let ((mesh, geometry, material), _) ← Payload.split k.name Fixed.mesh payload
    return updateMesh mesh geometry material
  | .createTexture => do
    let ((id, width, height), tail) ← Payload.split k.name Fixed.texture payload
    return createTexture id width height (← Payload.text k.name tail)
  | .textureWrite => do
    let (texture, tail) ← Payload.split k.name Fixed.id payload
    return textureWrite texture tail
  | .copyTextureToCpu => do
    let (texture, _) ← Payload.split k.name Fixed.id payload
    return copyTextureToCpu texture

/-- The command that a record of the given tag holds. -/
def decode (tag : UInt32) (payload : Bytes) : Except DecodeError Command := do
  ofPayload (← CommandKind.read tag) payload

end Command

end SceneGraph

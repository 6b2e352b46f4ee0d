import SceneGraph.ComponentId
import SceneGraph.Command.Kind
import SceneGraph.Linear.Vector

/-!
# Commands

What a producer may ask of a scene. A command names components by their identifiers; where a
reference is optional, the null identifier leaves it unset.
-/

namespace SceneGraph

inductive Command where
  | createTransform (id : ComponentId) (name : String)
  | setName (id : ComponentId) (name : String)
  | destroy (id : ComponentId)
  | addChild (parent child : ComponentId)
  | removeChild (parent child : ComponentId)
  | removeAllChildren (parent : ComponentId)
  /-- Moves `child` under `parent`, or to the top if `parent` is null. -/
  | reparent (child parent : ComponentId)
  | setPosition (id : ComponentId) (position : Vec3)
  | setRotation (id : ComponentId) (rotation : Quat)
  | setScale (id : ComponentId) (scale : Vec3)
  | createGeometry (id : ComponentId) (name : String)
  | setVertexAttribute (geometry : ComponentId) (location components : UInt32) (data : List Scalar)
  | setIndices (geometry : ComponentId) (indices : List UInt32)
  | setVertexCount (geometry : ComponentId) (count : Int32)
  | setIndicesCount (geometry : ComponentId) (count : Int32)
  | createShader (id : ComponentId) (vertex fragment : String)
  | createMaterial (id shader : ComponentId) (name : String)
  | setMaterialUniform (material : ComponentId) (slot : UInt32) (value : Vec4)
  | createMesh (id geometry material : ComponentId) (name : String)
  /-- Rebinds a mesh, and creates it if nothing has its identifier. -/
  | updateMesh (mesh geometry material : ComponentId)
  | createTexture (id : ComponentId) (width height : UInt32) (name : String)
  | textureWrite (texture : ComponentId) (pixels : Bytes)
  | copyTextureToCpu (texture : ComponentId)
deriving DecidableEq, Repr

namespace Command

def kind : Command → CommandKind
  | createTransform .. => .createTransform
  | setName .. => .setName
  | destroy .. => .destroy
  | addChild .. => .addChild
  | removeChild .. => .removeChild
  | removeAllChildren .. => .removeAllChildren
  | reparent .. => .reparent
  | setPosition .. => .setPosition
  | setRotation .. => .setRotation
  | setScale .. => .setScale
  | createGeometry .. => .createGeometry
  | setVertexAttribute .. => .setVertexAttribute
  | setIndices .. => .setIndices
  | setVertexCount .. => .setVertexCount
  | setIndicesCount .. => .setIndicesCount
  | createShader .. => .createShader
  | createMaterial .. => .createMaterial
  | setMaterialUniform .. => .setMaterialUniform
  | createMesh .. => .createMesh
  | updateMesh .. => .updateMesh
  | createTexture .. => .createTexture
  | textureWrite .. => .textureWrite
  | copyTextureToCpu .. => .copyTextureToCpu

end Command

end SceneGraph

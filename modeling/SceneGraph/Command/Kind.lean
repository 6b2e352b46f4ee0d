/-!
# Kinds of commands

Every command has a kind, and every kind a tag, under which it travels, and a name.
-/

namespace SceneGraph

inductive CommandKind where
  | createTransform | setName | destroy
  | addChild | removeChild | removeAllChildren | reparent
  | setPosition | setRotation | setScale
  | createGeometry | setVertexAttribute | setIndices | setVertexCount | setIndicesCount
  | createShader | createMaterial | setMaterialUniform
  | createMesh | updateMesh
  | createTexture | textureWrite | copyTextureToCpu
deriving DecidableEq, Repr

namespace CommandKind

/-- All kinds, in the order of their tags. -/
def all : List CommandKind :=
  [createTransform, setName, destroy, addChild, removeChild, removeAllChildren, reparent,
    setPosition, setRotation, setScale, createGeometry, setVertexAttribute, setIndices,
    setVertexCount, setIndicesCount, createShader, createMaterial, setMaterialUniform, createMesh,
    updateMesh, createTexture, textureWrite, copyTextureToCpu]

def tag : CommandKind → UInt32
  | createTransform => 1
  | setName => 2
  | destroy => 3
  | addChild => 4
  | removeChild => 5
  | removeAllChildren => 6
  | reparent => 7
  | setPosition => 8
  | setRotation => 9
  | setScale => 10
  | createGeometry => 11
  | setVertexAttribute => 12
  | setIndices => 13
  | setVertexCount => 14
  | setIndicesCount => 15
  | createShader => 16
  | createMaterial => 17
  | setMaterialUniform => 18
  | createMesh => 19
  | updateMesh => 20
  | createTexture => 21
  | textureWrite => 22
  | copyTextureToCpu => 23

def ofTag? (t : UInt32) : Option CommandKind := all.find? fun k => k.tag == t

def name : CommandKind → String
  | createTransform => "CreateTransform"
  | setName => "SetName"
  | destroy => "Destroy"
  | addChild => "AddChild"
  | removeChild => "RemoveChild"
  | removeAllChildren => "RemoveAllChildren"
  | reparent => "Reparent"
  | setPosition => "SetPosition"
  | setRotation => "SetRotation"
  | setScale => "SetScale"
  | createGeometry => "CreateGeometry"
  | setVertexAttribute => "SetVertexAttribute"
  | setIndices => "SetIndices"
  | setVertexCount => "SetVertexCount"
  | setIndicesCount => "SetIndicesCount"
  | createShader => "CreateShader"
  | createMaterial => "CreateMaterial"
  | setMaterialUniform => "SetMaterialUniform"
  | createMesh => "CreateMesh"
  | updateMesh => "UpdateMesh"
  | createTexture => "CreateTexture"
  | textureWrite => "TextureWrite"
  | copyTextureToCpu => "CopyTextureToCpu"

@[simp] theorem ofTag?_tag (k : CommandKind) : ofTag? k.tag = some k := by cases k <;> rfl

theorem tag_of_ofTag? {t : UInt32} {k : CommandKind} (h : ofTag? t = some k) : k.tag = t := by
  simpa using List.find?_some h

theorem mem_all (k : CommandKind) : k ∈ all := by cases k <;> decide

end CommandKind

end SceneGraph

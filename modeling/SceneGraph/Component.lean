import SceneGraph.Component.Geometry
import SceneGraph.Component.Kind
import SceneGraph.Component.Material
import SceneGraph.Component.Node
import SceneGraph.Component.Texture

/-!
# Components

A component of any kind, for those who look one up without knowing what it is.
-/

namespace SceneGraph

inductive Component where
  | transform (node : Node)
  | mesh (node : Node)
  | geometry (geometry : Geometry)
  | material (material : Material)
  | shader (shader : Shader)
  | texture (texture : Texture)

namespace Component

def kind : Component → ComponentKind
  | transform _ => .transform
  | mesh _ => .mesh
  | geometry _ => .geometry
  | material _ => .material
  | shader _ => .shader
  | texture _ => .texture

def id : Component → ComponentId
  | transform n | mesh n => n.id
  | geometry g => g.id
  | material m => m.id
  | shader s => s.id
  | texture t => t.id

def name : Component → String
  | transform n | mesh n => n.name
  | geometry g => g.name
  | material m => m.name
  | shader s => s.name
  | texture t => t.name

/-- The node, if the component is one. -/
def node? : Component → Option Node
  | transform n | mesh n => some n
  | _ => none

end Component

end SceneGraph

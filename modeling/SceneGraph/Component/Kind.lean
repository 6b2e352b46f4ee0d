/-!
# Kinds of components

Transforms and meshes are the nodes of the hierarchy; a mesh is a transform that draws something.
An operation accepts components of a role only: any node, or one kind.
-/

namespace SceneGraph

inductive ComponentKind where
  | transform | mesh | geometry | material | shader | texture
deriving DecidableEq, Repr

namespace ComponentKind

def name : ComponentKind → String
  | transform => "transform"
  | mesh => "mesh"
  | geometry => "geometry"
  | material => "material"
  | shader => "shader"
  | texture => "texture"

def isNode : ComponentKind → Bool
  | transform | mesh => true
  | _ => false

end ComponentKind

/-- What an operation needs a component to be. -/
inductive Role where
  /-- A transform or a mesh. -/
  | node
  | mesh | geometry | material | shader | texture
deriving DecidableEq, Repr

namespace Role

def name : Role → String
  | node => "transform"
  | mesh => "mesh"
  | geometry => "geometry"
  | material => "material"
  | shader => "shader"
  | texture => "texture"

def accepts : Role → ComponentKind → Bool
  | node, k => k.isNode
  | mesh, k => k = .mesh
  | geometry, k => k = .geometry
  | material, k => k = .material
  | shader, k => k = .shader
  | texture, k => k = .texture

end Role

end SceneGraph

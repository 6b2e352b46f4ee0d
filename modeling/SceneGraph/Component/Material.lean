import SceneGraph.Linear.Vector
import SceneGraph.Table

/-!
# Shaders and materials

A shader is a pair of source texts. A material draws with a shader and has sixteen uniform values.
-/

namespace SceneGraph

structure Shader where
  id : ComponentId
  name : String
  vertexSource : String := ""
  fragmentSource : String := ""
deriving DecidableEq, Repr

namespace Shader

def new (id : ComponentId) (name : String) : Shader := { id, name := Name.clamp name }

instance : Row Shader := ⟨Shader.id, Shader.name, fun name s => { s with name := Name.clamp name }⟩

end Shader

/-- The number of uniform values of a material. -/
abbrev uniformLimit : Nat := 16

structure Material where
  id : ComponentId
  name : String
  /-- Null until one is chosen. -/
  shader : ComponentId := .null
  uniforms : Vector Vec4 uniformLimit := Vector.replicate uniformLimit .zero
  /-- A uniform has changed since the renderer last looked. -/
  uniformsDirty : Bool := false
deriving DecidableEq, Repr

namespace Material

def new (id : ComponentId) (name : String) : Material := { id, name := Name.clamp name }

instance : Row Material :=
  ⟨Material.id, Material.name, fun name m => { m with name := Name.clamp name }⟩

end Material

end SceneGraph

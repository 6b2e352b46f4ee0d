import SceneGraph.Component.Kind
import SceneGraph.ComponentId
import SceneGraph.Payload

/-!
# Refused edits

Why an edit of a scene is refused. None of these is fatal: whoever drains commands goes on to the
next one.
-/

namespace SceneGraph

inductive SceneError where
  | notFound (id : ComponentId)
  | wrongKind (id : ComponentId) (expected : Role) (found : ComponentKind)
  | duplicateId (id : ComponentId)
  | nullId
  | cycle (parent child : ComponentId)
  | notAChild (parent child : ComponentId)
  | invalidStream (geometry : ComponentId) (location components : UInt32) (length : Nat)
  | invalidUniform (material : ComponentId) (slot : UInt32)
  | textureSize (texture : ComponentId) (expected actual : Nat)
  /-- The record does not hold a command. -/
  | malformed (cause : DecodeError)
deriving DecidableEq, Repr

namespace SceneError

def message : SceneError → String
  | notFound id => s!"component {id} not found"
  | wrongKind id expected found =>
    s!"component {id} is a {found.name}, expected {expected.name}"
  | duplicateId id => s!"component {id} already exists"
  | nullId => "NULL component ID"
  | cycle parent child => s!"attaching {child} under {parent} would create a cycle"
  | notAChild parent child => s!"{child} is not a child of {parent}"
  | invalidStream geometry location components length =>
    s!"invalid vertex attribute on {geometry}: location {location}, " ++
      s!"{components} components, {length} floats"
  | invalidUniform material slot => s!"uniform slot {slot} out of range on {material}"
  | textureSize texture expected actual =>
    s!"texture {texture} expects {expected} bytes, got {actual}"
  | malformed cause => cause.message

end SceneError

end SceneGraph

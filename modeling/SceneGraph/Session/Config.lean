/-!
# Configuration of a session

How much room a session sets aside at its start, and whether it reports its frames. Every setting
has a default; the two queues must not start with no room at all.
-/

namespace SceneGraph

structure SessionConfig where
  /-- Bytes on each side of the queue of commands. -/
  controlToGraphicsCapacity : Nat := 1048576
  /-- Bytes on each side of the queue of readbacks. -/
  graphicsToControlCapacity : Nat := 1048576
  /-- Rows for transforms and meshes. -/
  transformCapacity : Nat := 1024
  geometryCapacity : Nat := 64
  logFrameReports : Bool := false
deriving DecidableEq, Repr

/-- Why a configuration is not accepted. -/
inductive ConfigError where
  /-- The file does not exist. -/
  | missingFile
  /-- The file is not text. -/
  | invalidData
  /-- The text is not a document of settings. -/
  | parse
  /-- A setting, named by its path, has a value that cannot be used. -/
  | invalid (field : String)
deriving DecidableEq, Repr

/-- What is wrong, where the cause alone does not tell. -/
def ConfigError.message? : ConfigError → Option String
  | invalid field => some s!"config field `{field}` must be greater than zero"
  | _ => none

namespace SessionConfig

/-- Refuses a queue without room, the queue of commands first. -/
def validate (c : SessionConfig) : Except ConfigError SessionConfig :=
  if c.controlToGraphicsCapacity = 0 then
    .error (.invalid "queue.control_to_graphics_capacity")
  else if c.graphicsToControlCapacity = 0 then
    .error (.invalid "queue.graphics_to_control_capacity")
  else .ok c

theorem validate_eq_ok_iff (c d : SessionConfig) :
    c.validate = .ok d ↔
      d = c ∧ 0 < c.controlToGraphicsCapacity ∧ 0 < c.graphicsToControlCapacity := by
  grind [validate]

end SessionConfig

end SceneGraph

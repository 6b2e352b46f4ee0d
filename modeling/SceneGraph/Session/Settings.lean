import SceneGraph.Memory.Text
import SceneGraph.Session.Config
import SceneGraph.Toml.Document

/-!
# Settings of a session, read from a document

The settings stand in three sections, under a key each. A section is a table with a key for each
setting, or an array with the settings in their order; what it leaves out keeps its default, and
what is not a setting is ignored. A date in the place of a section is one without settings.
-/

namespace SceneGraph

open Toml (Value Entries)

/-- What stands in the place of a section. -/
inductive Section where
  | named (entries : Entries)
  | listed (values : List Value)

namespace Section

def ofValue? : Value → Option Section
  | .table _ _ es => some (named es)
  | .inlineTable es => some (named es)
  | .array vs => some (listed vs)
  | .tables ts => some (listed (ts.map (.table false false)))
  | .dateTime => some (named [])
  | _ => none

/-- The section under a key; one that is missing has no settings. -/
def find? (es : Entries) (key : String) : Option Section :=
  match es.get? key with
  | none => some (named [])
  | some v => ofValue? v

/-- The value of a setting, by its key or its place. -/
def get? (s : Section) (key : String) (place : Nat) : Option Value :=
  match s with
  | named es => es.get? key
  | listed vs => vs[place]?

/-- A setting that is a number of bytes or rows. -/
def number? (s : Section) (key : String) (place default : Nat) : Option Nat :=
  match s.get? key place with
  | none => some default
  | some (.integer n) => if 0 ≤ n then some n.toNat else none
  | some _ => none

/-- A setting that is a switch. -/
def switch? (s : Section) (key : String) (place : Nat) (default : Bool) : Option Bool :=
  match s.get? key place with
  | none => some default
  | some (.boolean b) => some b
  | some _ => none

end Section

namespace SessionConfig

def ofEntries? (es : Entries) : Option SessionConfig := do
  let d : SessionConfig := {}
  let queue ← Section.find? es "queue"
  let scene ← Section.find? es "scene"
  let frame ← Section.find? es "frame"
  return {
    controlToGraphicsCapacity :=
      ← queue.number? "control_to_graphics_capacity" 0 d.controlToGraphicsCapacity
    graphicsToControlCapacity :=
      ← queue.number? "graphics_to_control_capacity" 1 d.graphicsToControlCapacity
    transformCapacity := ← scene.number? "transform_capacity" 0 d.transformCapacity
    geometryCapacity := ← scene.number? "geometry_capacity" 1 d.geometryCapacity
    logFrameReports := ← frame.switch? "log_frame_reports" 0 d.logFrameReports }

/-- The configuration that a text describes. -/
def ofText (text : String) : Except ConfigError SessionConfig :=
  match Toml.parse text >>= ofEntries? with
  | some c => c.validate
  | none => .error .parse

/-- The configuration in a file, given its bytes if there is such a file. -/
def ofFile (contents : Option Bytes) : Except ConfigError SessionConfig :=
  match contents with
  | none => .error .missingFile
  | some bs => match Bytes.toString? bs with
    | none => .error .invalidData
    | some text => ofText text

end SessionConfig

end SceneGraph

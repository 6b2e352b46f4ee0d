import SceneGraph.FrameCounter
import SceneGraph.Scene.Apply
import SceneGraph.Scene.Rebuild
import SceneGraph.Session.Config

/-!
# Sessions

A session joins a control side and a graphics side. The control side pushes commands and polls for
readbacks; the graphics side owns the scene and runs frames. They share two queues, one for each
direction, the source of identifiers, which is the scene's, and the frame counter.

A frame takes the commands pushed so far, advances the counter, carries the commands out, and
brings matrices and batches up to date.
-/

namespace SceneGraph

structure Session where
  scene : Scene
  commands : Queue
  readbacks : Queue
  frames : FrameCounter
deriving DecidableEq

/-- What one frame did. -/
structure FrameReport where
  frame : Nat
  /-- Bytes of commands taken. -/
  commandBytes : Nat
  apply : ApplyReport
  rebuild : RebuildStats
  geometriesRebuilt : Nat
deriving DecidableEq, Repr

namespace Session

def new (c : SessionConfig) : Session where
  scene := {}
  commands := .ofCapacity c.controlToGraphicsCapacity
  readbacks := .ofCapacity c.graphicsToControlCapacity
  frames := {}

/-- Takes the commands pushed so far and gives their bytes. If some of those taken before are left,
no others are taken. -/
def takeCommands (s : Session) : Nat × Session :=
  match s.commands.swap with
  | .ok (n, q) => (n, { s with commands := q })
  | .error _ => (s.commands.readable, s)

def advance (s : Session) : Session := { s with frames := s.frames.advance }

/-- Carries out the commands taken, and is done with them. -/
def drain (s : Session) : ApplyReport × Session :=
  let (t, report) := Stage.drain ⟨s.scene, s.readbacks⟩ s.commands
  (report, { s with scene := t.scene, readbacks := t.readbacks, commands := s.commands.clear })

/-- Brings the matrices up to date. -/
def rebuildMatrices [Mat4.Arithmetic] (s : Session) : RebuildStats × Session :=
  let (scene, stats) := s.scene.rebuildAllMatrices
  (stats, { s with scene })

/-- Brings the batches up to date and gives the number of geometries concerned. -/
def rebuildGeometries (s : Session) : Nat × Session :=
  let (n, scene) := s.scene.rebuildStaleGeometries
  (n, { s with scene })

def frame [Mat4.Arithmetic] (s : Session) : FrameReport × Session :=
  let (commandBytes, s) := s.takeCommands
  let s := s.advance
  let frame := s.frames.current
  let (apply, s) := s.drain
  let (rebuild, s) := s.rebuildMatrices
  let (geometriesRebuilt, s) := s.rebuildGeometries
  ({ frame, commandBytes, apply, rebuild, geometriesRebuilt }, s)

/-- Takes every readback posted so far. -/
def poll (s : Session) : List Readback × Session :=
  let (events, readbacks) := Readback.takeAll s.readbacks
  (events, { s with readbacks })

end Session

end SceneGraph

import SceneGraph.ComponentId
import SceneGraph.Payload
import SceneGraph.Queue

/-!
# Readbacks

What the consumer sends back: so far only the pixels of a texture, as a fixed part with the
texture and its size and a tail with the bytes.
-/

namespace SceneGraph

inductive ReadbackKind where
  | textureData
deriving DecidableEq, Repr

namespace ReadbackKind

def tag : ReadbackKind → UInt32
  | textureData => 1

def name : ReadbackKind → String
  | textureData => "TextureData"

def ofTag? (t : UInt32) : Option ReadbackKind := [textureData].find? fun k => k.tag == t

/-- The kind that a tag stands for. -/
def read (tag : UInt32) : Except DecodeError ReadbackKind :=
  match ofTag? tag with
  | some k => .ok k
  | none => .error (.unknownKind tag)

end ReadbackKind

inductive Readback where
  /-- Pixels row by row, four bytes each. -/
  | textureData (texture : ComponentId) (width height : UInt32) (pixels : Bytes)
deriving DecidableEq, Repr

namespace Readback

def kind : Readback → ReadbackKind
  | textureData .. => .textureData

/-- A texture, its width and its height. -/
def header : Layout (ComponentId × UInt32 × UInt32) :=
  Layout.componentId.pair (Layout.word32.pair Layout.word32)

/-- The payload of a readback: its fixed part and the pixels. -/
def parts : Readback → List Bytes
  | textureData texture width height pixels => [header.write (texture, width, height), pixels]

/-- The readback that a record of the given tag holds. -/
def decode (tag : UInt32) (payload : Bytes) : Except DecodeError Readback := do
  let k ← ReadbackKind.read tag
  let ((texture, width, height), pixels) ← Payload.split k.name header payload
  return textureData texture width height pixels

/-- Takes every readback from a queue, in the order of their posting. -/
def takeAll (q : Queue) : List Readback × Queue :=
  let q := match q.swap with
    | .ok (_, q) => q
    | .error _ => q
  (q.records.filterMap fun r => (decode r.kind r.payload).toOption, q.clear)

end Readback

end SceneGraph

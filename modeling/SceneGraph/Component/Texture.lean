import SceneGraph.Memory.Bytes
import SceneGraph.Table

/-!
# Textures

A texture is an image of `width * height` pixels, four bytes each, row by row.
-/

namespace SceneGraph

structure Texture where
  id : ComponentId
  name : String
  width : UInt32
  height : UInt32
  pixels : Bytes
  /-- The pixels have changed since the renderer last uploaded them. -/
  uploadPending : Bool
deriving DecidableEq, Repr

namespace Texture

/-- The number of bytes of an image. Sizes for which it is no word of 64 bits are left out: no
memory holds such an image, and what becomes of one is not described here. -/
def byteLength (width height : UInt32) : Nat := width.toNat * height.toNat * 4

/-- An image with all bytes zero. -/
def new (id : ComponentId) (name : String) (width height : UInt32) : Texture where
  id
  name := Name.clamp name
  width
  height
  pixels := List.replicate (byteLength width height) 0
  uploadPending := true

/-- Another size; the pixels are lost. -/
def resize (t : Texture) (width height : UInt32) : Texture :=
  { t with
    width, height, pixels := List.replicate (byteLength width height) 0, uploadPending := true }

instance : Row Texture :=
  ⟨Texture.id, Texture.name, fun name t => { t with name := Name.clamp name }⟩

end Texture

end SceneGraph

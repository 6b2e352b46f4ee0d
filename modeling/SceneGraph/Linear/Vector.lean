import SceneGraph.Linear.Scalar
import SceneGraph.Memory.Layout

/-!
# Vectors and quaternions

Triples of scalars for positions and scales, quadruples for uniforms, rotations and the columns of
matrices, with the layouts in which they travel.
-/

namespace SceneGraph

structure Vec3 where
  x : Scalar
  y : Scalar
  z : Scalar
deriving DecidableEq, Repr, Inhabited

structure Vec4 where
  x : Scalar
  y : Scalar
  z : Scalar
  w : Scalar
deriving DecidableEq, Repr, Inhabited

/-- A rotation; its scalar part is `w`. It need not have length one. -/
structure Quat where
  x : Scalar
  y : Scalar
  z : Scalar
  w : Scalar
deriving DecidableEq, Repr, Inhabited

namespace Vec3

def zero : Vec3 := ⟨.zero, .zero, .zero⟩

def one : Vec3 := ⟨.one, .one, .one⟩

def toList (v : Vec3) : List Scalar := [v.x, v.y, v.z]

end Vec3

namespace Vec4

def zero : Vec4 := ⟨.zero, .zero, .zero, .zero⟩

def toList (v : Vec4) : List Scalar := [v.x, v.y, v.z, v.w]

instance : Add Vec4 := ⟨fun u v => ⟨u.x + v.x, u.y + v.y, u.z + v.z, u.w + v.w⟩⟩

/-- All four components times `k`. -/
def scale (v : Vec4) (k : Scalar) : Vec4 := ⟨v.x * k, v.y * k, v.z * k, v.w * k⟩

end Vec4

namespace Quat

def identity : Quat := ⟨.zero, .zero, .zero, .one⟩

def toList (q : Quat) : List Scalar := [q.x, q.y, q.z, q.w]

end Quat

namespace Layout

def scalar : Layout Scalar := word32.map Scalar.mk Scalar.bits fun _ => rfl

def vec3 : Layout Vec3 :=
  (scalar.pair (scalar.pair scalar)).map (fun p => ⟨p.1, p.2.1, p.2.2⟩)
    (fun v => (v.x, v.y, v.z)) fun _ => rfl

def vec4 : Layout Vec4 :=
  (scalar.pair (scalar.pair (scalar.pair scalar))).map (fun p => ⟨p.1, p.2.1, p.2.2.1, p.2.2.2⟩)
    (fun v => (v.x, v.y, v.z, v.w)) fun _ => rfl

def quat : Layout Quat :=
  (scalar.pair (scalar.pair (scalar.pair scalar))).map (fun p => ⟨p.1, p.2.1, p.2.2.1, p.2.2.2⟩)
    (fun v => (v.x, v.y, v.z, v.w)) fun _ => rfl

end Layout

end SceneGraph

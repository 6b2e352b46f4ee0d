import SceneGraph.Linear.Vector

/-!
# Affine transformations as matrices

A matrix of four columns takes the coordinates of a node to those of the space around it. It is
put together from a scale, a rotation and a position, and the product puts one after the other.
Both are fixed sequences of rounded operations, so equal inputs give equal patterns. Little else can
be said of rounded operations, and little is relied on: two equations about the identity. What is
built on matrices is built on any arithmetic for which these hold.
-/

namespace SceneGraph

/-- A matrix by columns: the images of the three axes, and the position. -/
structure Mat4 where
  xAxis : Vec4
  yAxis : Vec4
  zAxis : Vec4
  wAxis : Vec4
deriving DecidableEq, Repr, Inhabited

namespace Mat4

def identity : Mat4 where
  xAxis := ⟨.one, .zero, .zero, .zero⟩
  yAxis := ⟨.zero, .one, .zero, .zero⟩
  zAxis := ⟨.zero, .zero, .one, .zero⟩
  wAxis := ⟨.zero, .zero, .zero, .one⟩

def toList (m : Mat4) : List Scalar :=
  m.xAxis.toList ++ m.yAxis.toList ++ m.zAxis.toList ++ m.wAxis.toList

/-- The image of a column, summed from left to right. -/
def apply (m : Mat4) (v : Vec4) : Vec4 :=
  ((m.xAxis.scale v.x + m.yAxis.scale v.y) + m.zAxis.scale v.z) + m.wAxis.scale v.w

/-- A product, a way to put matrices together, and what is relied on of the two. -/
class Arithmetic where
  mul : Mat4 → Mat4 → Mat4
  /-- Scales, then rotates, then moves to `position`. -/
  ofScaleRotationPosition : (scale : Vec3) → (rotation : Quat) → (position : Vec3) → Mat4
  identity_mul_identity : mul identity identity = identity
  ofScaleRotationPosition_default : ofScaleRotationPosition .one .identity .zero = identity

instance [Arithmetic] : Mul Mat4 := ⟨Arithmetic.mul⟩

def ofScaleRotationPosition [Arithmetic] (scale : Vec3) (rotation : Quat) (position : Vec3) :
    Mat4 :=
  Arithmetic.ofScaleRotationPosition scale rotation position

/-- The second matrix, column by column, and then the first. -/
def product (a b : Mat4) : Mat4 :=
  ⟨a.apply b.xAxis, a.apply b.yAxis, a.apply b.zAxis, a.apply b.wAxis⟩

/-- The columns of a rotation, each scaled, and the position. -/
def composition (scale : Vec3) (q : Quat) (position : Vec3) : Mat4 :=
  let x2 := q.x + q.x
  let y2 := q.y + q.y
  let z2 := q.z + q.z
  let xx := q.x * x2
  let xy := q.x * y2
  let xz := q.x * z2
  let yy := q.y * y2
  let yz := q.y * z2
  let zz := q.z * z2
  let wx := q.w * x2
  let wy := q.w * y2
  let wz := q.w * z2
  { xAxis := Vec4.scale ⟨.one - (yy + zz), xy + wz, xz - wy, .zero⟩ scale.x
    yAxis := Vec4.scale ⟨xy - wz, .one - (xx + zz), yz + wx, .zero⟩ scale.y
    zAxis := Vec4.scale ⟨xz + wy, yz - wx, .one - (xx + yy), .zero⟩ scale.z
    wAxis := ⟨position.x, position.y, position.z, .one⟩ }

instance : Arithmetic where
  mul := product
  ofScaleRotationPosition := composition
  identity_mul_identity := by decide +kernel
  ofScaleRotationPosition_default := by decide +kernel

end Mat4

namespace Layout

/-- The sixteen scalars of a matrix, column by column. -/
def mat4 : Layout Mat4 :=
  (vec4.pair (vec4.pair (vec4.pair vec4))).map (fun p => ⟨p.1, p.2.1, p.2.2.1, p.2.2.2⟩)
    (fun m => (m.xAxis, m.yAxis, m.zAxis, m.wAxis)) fun _ => rfl

theorem size_mat4 : mat4.size = 64 := rfl

end Layout

end SceneGraph

/-!
# Single-precision scalars

A scalar is a 32-bit floating-point pattern. Stored scalars keep their pattern, signs of zero and
payloads included; arithmetic rounds to nearest after each operation.
-/

namespace SceneGraph

/-- A floating-point number of 32 bits, given by its pattern. -/
structure Scalar where
  bits : UInt32
deriving DecidableEq, Repr, Inhabited

namespace Scalar

def zero : Scalar := ⟨0⟩

def one : Scalar := ⟨0x3f800000⟩

def toFloat (x : Scalar) : Float32 := Float32.ofBits x.bits

def ofFloat (x : Float32) : Scalar := ⟨x.toBits⟩

instance : Add Scalar := ⟨fun x y => ofFloat (x.toFloat + y.toFloat)⟩

instance : Sub Scalar := ⟨fun x y => ofFloat (x.toFloat - y.toFloat)⟩

instance : Mul Scalar := ⟨fun x y => ofFloat (x.toFloat * y.toFloat)⟩

/-- All exponent bits set and a fraction that is not zero. -/
def isNaN (x : Scalar) : Bool := 0x7f800000 < x.bits &&& 0x7fffffff

end Scalar

end SceneGraph

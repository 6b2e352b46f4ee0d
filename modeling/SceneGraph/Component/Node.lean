import SceneGraph.Linear.Matrix
import SceneGraph.Table

/-!
# Nodes of the hierarchy

A node has a position, a rotation and a scale of its own, and caches two matrices: the local one,
made of these three, and the world one, the product of its ancestors' local matrices and its own.
Its staleness tells which of them an edit has left behind.
-/

namespace SceneGraph

/-- How much of a node has to be recomputed, least first. -/
inductive Staleness where
  /-- Nothing, here or below. -/
  | none
  /-- Something below, nothing here. -/
  | descendents
  /-- The world matrix. -/
  | world
  /-- Both matrices. -/
  | local
deriving DecidableEq, Repr

namespace Staleness

def rank : Staleness → Nat
  | none => 0
  | descendents => 1
  | world => 2
  | .local => 3

instance : Max Staleness := ⟨fun s t => if s.rank < t.rank then t else s⟩

theorem rank_max (s t : Staleness) : (max s t).rank = Nat.max s.rank t.rank := by
  cases s <;> cases t <;> rfl

theorem rank_inj {s t : Staleness} (h : s.rank = t.rank) : s = t := by
  cases s <;> cases t <;> simp_all [rank]

end Staleness

/-- What a mesh draws, and with what; each may be null. -/
structure MeshBinding where
  geometry : ComponentId := .null
  material : ComponentId := .null
deriving DecidableEq, Repr, Inhabited

structure Node where
  id : ComponentId
  name : String
  position : Vec3 := .zero
  rotation : Quat := .identity
  scale : Vec3 := .one
  localMatrix : Mat4 := .identity
  worldMatrix : Mat4 := .identity
  /-- Null at the top. -/
  parent : ComponentId := .null
  children : List ComponentId := []
  stale : Staleness := .none
  mesh : Option MeshBinding := Option.none
deriving DecidableEq, Repr

namespace Node

def new (id : ComponentId) (name : String) : Node := { id, name := Name.clamp name }

def isMesh (n : Node) : Bool := n.mesh.isSome

def computeLocal [Mat4.Arithmetic] (n : Node) : Mat4 :=
  .ofScaleRotationPosition n.scale n.rotation n.position

/-- Raises the staleness to `flag`; it never falls. -/
def raise (n : Node) (flag : Staleness) : Node := { n with stale := max n.stale flag }

/-- The matrices recomputed under a parent with world matrix `base`, the local one only if the
node's own values have changed. -/
def refresh [Mat4.Arithmetic] (n : Node) (base : Mat4) : Node :=
  let m := if n.stale = .local then n.computeLocal else n.localMatrix
  { n with localMatrix := m, worldMatrix := base * m, stale := .none }

instance : Row Node := ⟨Node.id, Node.name, fun name n => { n with name := Name.clamp name }⟩

end Node

end SceneGraph

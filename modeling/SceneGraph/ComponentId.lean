import SceneGraph.Memory.Layout

/-!
# Component identifiers

A component is named by a 64-bit number, chosen before the component exists, so that commands
may refer to it at once. Zero is the null identifier: a reference that is null names nothing.
-/

namespace SceneGraph

/-- The name of a component; the number zero names none. -/
structure ComponentId where
  raw : UInt64
deriving DecidableEq, Repr, Inhabited

namespace ComponentId

def null : ComponentId := ⟨0⟩

def isNull (i : ComponentId) : Bool := i.raw == 0

/-- The identifier as an optional one, with null for absence. -/
def nonNull (i : ComponentId) : Option ComponentId := if i.isNull then none else some i

def ofOption : Option ComponentId → ComponentId
  | none => null
  | some i => i

instance : ToString ComponentId := ⟨fun i => "#" ++ toString i.raw⟩

@[simp] theorem isNull_iff (i : ComponentId) : i.isNull = true ↔ i = null := by
  cases i; simp [isNull, null]

@[simp] theorem nonNull_null : null.nonNull = none := rfl

theorem nonNull_eq_some_iff {i j : ComponentId} : i.nonNull = some j ↔ i ≠ null ∧ i = j := by
  simp [nonNull]

/-- The two forms of an optional reference carry the same information. -/
@[simp] theorem ofOption_nonNull (i : ComponentId) : ofOption i.nonNull = i := by
  unfold nonNull
  split
  · next h => simpa [ofOption] using ((isNull_iff i).mp h).symm
  · rfl

end ComponentId

def Layout.componentId : Layout ComponentId :=
  word64.map ComponentId.mk ComponentId.raw fun _ => rfl

end SceneGraph

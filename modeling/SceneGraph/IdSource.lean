import SceneGraph.ComponentId

/-!
# The source of identifiers

One counter serves everybody who creates components. An identifier that was chosen elsewhere is
reserved, which moves the counter past it. The counter is a machine word: after the largest
identifier it comes round to zero, and that identifier cannot be reserved.
-/

namespace SceneGraph

/-- A counter of identifiers; `next` is the number it gives out next. -/
structure IdSource where
  next : UInt64 := 1
deriving DecidableEq, Repr

namespace IdSource

def allocate (s : IdSource) : ComponentId × IdSource := (⟨s.next⟩, ⟨s.next + 1⟩)

/-- Moves the counter past `i`, never back. The largest identifier has no successor to move to. -/
def reserve (s : IdSource) (i : ComponentId) : IdSource :=
  if i.raw + 1 = 0 then s else ⟨max s.next (i.raw + 1)⟩

/-- How many identifiers the counter has passed, those reserved included. -/
def allocated (s : IdSource) : UInt64 := s.next - 1

@[simp] theorem allocate_fst (s : IdSource) : s.allocate.1 = ⟨s.next⟩ := rfl

@[simp] theorem allocate_snd (s : IdSource) : s.allocate.2 = ⟨s.next + 1⟩ := rfl

end IdSource

end SceneGraph

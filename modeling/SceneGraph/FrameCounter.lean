/-!
# Frame counters

The consumer counts its frames. A producer that paces itself by the consumer remembers the last
count it saw and waits until the counter has passed it.
-/

namespace SceneGraph

/-- The number of frames begun so far. -/
structure FrameCounter where
  current : Nat := 0
deriving DecidableEq, Repr

namespace FrameCounter

def advance (c : FrameCounter) : FrameCounter := ⟨c.current + 1⟩

/-- What a producer that last saw `seen` observes when it waits: the count, once it is larger.
Until then it has to wait on. -/
def passed? (c : FrameCounter) (seen : Nat) : Option Nat :=
  if seen < c.current then some c.current else none

end FrameCounter

end SceneGraph

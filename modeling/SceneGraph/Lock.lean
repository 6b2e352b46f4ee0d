/-!
# Locks

A lock guards one value. Whoever takes it holds it until release, and meanwhile nobody else can
take it; the value can be changed only while the lock is held.
-/

namespace SceneGraph

/-- A guarded value, and whether somebody holds the lock. -/
structure Lock (α : Type) where
  value : α
  held : Bool
deriving DecidableEq, Repr

namespace Lock

variable {α : Type}

def free (x : α) : Lock α := ⟨x, false⟩

/-- Takes the lock if it is free. -/
def acquire? (l : Lock α) : Option (Lock α) := if l.held then none else some { l with held := true }

/-- Frees the lock; nothing happens if it is free. -/
def release (l : Lock α) : Lock α := { l with held := false }

/-- Changes the value under the lock. -/
def modify? (l : Lock α) (f : α → α) : Option (Lock α) :=
  if l.held then some { l with value := f l.value } else none

end Lock

end SceneGraph

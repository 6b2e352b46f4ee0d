import SceneGraph.ComponentId

/-!
# Finite maps on identifiers

A map is a list of entries; of several entries for one identifier the first counts. Look-up after
each operation is given by one equation.
-/

namespace SceneGraph

/-- A finite map from identifiers to `α`. -/
structure IdMap (α : Type) where
  entries : List (ComponentId × α)
deriving DecidableEq, Repr

namespace IdMap

variable {α : Type}

def empty : IdMap α := ⟨[]⟩

instance : Inhabited (IdMap α) := ⟨empty⟩

def get? (m : IdMap α) (i : ComponentId) : Option α :=
  (m.entries.find? fun e => e.1 = i).map Prod.snd

def contains (m : IdMap α) (i : ComponentId) : Bool := (m.get? i).isSome

def erase (m : IdMap α) (i : ComponentId) : IdMap α := ⟨m.entries.filter fun e => e.1 ≠ i⟩

/-- Enters `x` for `i`, in place of what was entered for `i` before. -/
def insert (m : IdMap α) (i : ComponentId) (x : α) : IdMap α := ⟨(i, x) :: (m.erase i).entries⟩

/-- Changes the value at `i`, if there is one. -/
def modify (m : IdMap α) (i : ComponentId) (f : α → α) : IdMap α :=
  ⟨m.entries.map fun e => if e.1 = i then (e.1, f e.2) else e⟩

/-- The number of entries, which is the number of identifiers as long as none is entered twice. -/
def size (m : IdMap α) : Nat := m.entries.length

@[simp] theorem get?_empty (i : ComponentId) : (empty : IdMap α).get? i = none := rfl

theorem get?_erase (m : IdMap α) (i j : ComponentId) :
    (m.erase i).get? j = if j = i then none else m.get? j := by
  obtain ⟨l⟩ := m
  simp only [get?, erase]
  induction l with
  | nil => simp
  | cons e l ih => grind

theorem get?_insert (m : IdMap α) (i j : ComponentId) (x : α) :
    (m.insert i x).get? j = if j = i then some x else m.get? j := by
  have h := get?_erase m i j
  simp only [get?, insert] at *
  grind

theorem get?_modify (m : IdMap α) (i j : ComponentId) (f : α → α) :
    (m.modify i f).get? j = if j = i then (m.get? j).map f else m.get? j := by
  obtain ⟨l⟩ := m
  simp only [get?, modify]
  induction l with
  | nil => simp
  | cons e l ih => grind

end IdMap

end SceneGraph

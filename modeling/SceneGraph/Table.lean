import SceneGraph.ComponentId
import SceneGraph.Name

/-!
# Dense tables

A table keeps its rows packed. Removing a row moves the last one into its place, so the rows after
it keep their places. `swapErase` is that removal on lists; it also takes members out of the lists
of children and of bindings.
-/

namespace SceneGraph

section SwapErase

variable {α : Type}

/-- The list without its `i`-th element, whose place the last one takes. -/
def swapEraseIdx (l : List α) (i : Nat) : List α :=
  match l.getLast? with
  | none => []
  | some z => if i < l.length then (l.set i z).dropLast else l

/-- The list without the first occurrence of `x`, whose place the last element takes. -/
def swapErase [DecidableEq α] (l : List α) (x : α) : List α := swapEraseIdx l (l.idxOf x)

theorem swapEraseIdx_of_le {l : List α} {i : Nat} (h : l.length ≤ i) : swapEraseIdx l i = l := by
  unfold swapEraseIdx
  split
  · next hl => exact (List.getLast?_eq_none_iff.mp hl).symm
  · simp [Nat.not_lt.mpr h]

theorem length_swapEraseIdx {l : List α} {i : Nat} (h : i < l.length) :
    (swapEraseIdx l i).length = l.length - 1 := by
  unfold swapEraseIdx
  split
  · next hl => simp at hl; simp [hl]
  · simp [h]

theorem getElem?_swapEraseIdx {l : List α} {i : Nat} (h : i < l.length) (j : Nat) :
    (swapEraseIdx l i)[j]? =
      if j + 1 < l.length then if j = i then l.getLast? else l[j]? else none := by
  unfold swapEraseIdx
  split
  · next hl => simp at hl; simp [hl]
  · next z hl =>
    rw [if_pos h, List.getElem?_dropLast, List.length_set, List.getElem?_set]
    grind

theorem swapErase_of_not_mem [DecidableEq α] {l : List α} {x : α} (h : x ∉ l) :
    swapErase l x = l :=
  swapEraseIdx_of_le (Nat.le_of_eq (List.idxOf_eq_length h).symm)

end SwapErase

/-- What can be a row of a table: it has an identifier and a name. -/
class Row (α : Type) where
  id : α → ComponentId
  name : α → String
  /-- The row with another name, cut to the limit. -/
  rename : String → α → α

/-- Rows in storage order. -/
structure Table (α : Type) where
  rows : List α
deriving DecidableEq, Repr

namespace Table

variable {α : Type}

def empty : Table α := ⟨[]⟩

instance : Inhabited (Table α) := ⟨empty⟩

def size (t : Table α) : Nat := t.rows.length

def isEmpty (t : Table α) : Bool := t.rows.isEmpty

def get? (t : Table α) (i : Nat) : Option α := t.rows[i]?

/-- The place of the next row. -/
def push (t : Table α) (x : α) : Nat × Table α := (t.rows.length, ⟨t.rows ++ [x]⟩)

def modify (t : Table α) (i : Nat) (f : α → α) : Table α := ⟨t.rows.modify i f⟩

def map (t : Table α) (f : α → α) : Table α := ⟨t.rows.map f⟩

/-- Removes row `i`: gives it, the identifier of the row that moved to its place if one did, and
what is left. -/
def swapRemove? [Row α] (t : Table α) (i : Nat) : Option (α × Option ComponentId × Table α) :=
  (t.get? i).map fun x =>
    let rest : Table α := ⟨swapEraseIdx t.rows i⟩
    (x, (rest.get? i).map Row.id, rest)

theorem get?_push (t : Table α) (x : α) (i : Nat) :
    (t.push x).2.get? i = if i = t.size then some x else t.get? i := by
  simp only [get?, push, size]
  grind

@[simp] theorem size_push (t : Table α) (x : α) : (t.push x).2.size = t.size + 1 := by
  simp [push, size]

@[simp] theorem get?_modify (t : Table α) (i j : Nat) (f : α → α) :
    (t.modify i f).get? j = if i = j then (t.get? j).map f else t.get? j := by
  simp only [get?, modify, List.getElem?_modify]
  split <;> simp

@[simp] theorem size_modify (t : Table α) (i : Nat) (f : α → α) : (t.modify i f).size = t.size := by
  simp [size, modify]

@[simp] theorem get?_map (t : Table α) (f : α → α) (i : Nat) :
    (t.map f).get? i = (t.get? i).map f := by
  simp [get?, map]

end Table

end SceneGraph

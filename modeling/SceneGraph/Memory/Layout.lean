import SceneGraph.Memory.Bytes

/-!
# Fixed layouts

A layout lays a value out in a fixed number of bytes. Its two laws are part of it: what is written
has that size, and reading what was written, whatever follows, gives the value back. Layouts are
put together from words, pairs, padding and changes of representation, and inherit the laws.
-/

namespace SceneGraph

/-- A way to hold a value of `α` in `size` bytes. -/
structure Layout (α : Type) where
  size : Nat
  write : α → Bytes
  /-- Reads the value that the first `size` bytes hold. -/
  read : Bytes → α
  length_write (x : α) : (write x).length = size
  read_write (x : α) (rest : Bytes) : read (write x ++ rest) = x

namespace Layout

variable {α β : Type}

def word64 : Layout UInt64 where
  size := 8
  write n := Bytes.ofNat 8 n.toNat
  read bs := UInt64.ofNat (Bytes.toNat (bs.take 8))
  length_write _ := Bytes.length_ofNat _ _
  read_write n rest := by
    rw [List.take_append_of_le_length (by simp), List.take_of_length_le (by simp),
      Bytes.toNat_ofNat_of_lt n.toNat_lt, UInt64.ofNat_toNat]

def word32 : Layout UInt32 where
  size := 4
  write n := Bytes.ofNat 4 n.toNat
  read bs := UInt32.ofNat (Bytes.toNat (bs.take 4))
  length_write _ := Bytes.length_ofNat _ _
  read_write n rest := by
    rw [List.take_append_of_le_length (by simp), List.take_of_length_le (by simp),
      Bytes.toNat_ofNat_of_lt n.toNat_lt, UInt32.ofNat_toNat]

/-- Two values, one after the other. -/
def pair (a : Layout α) (b : Layout β) : Layout (α × β) where
  size := a.size + b.size
  write x := a.write x.1 ++ b.write x.2
  read bs := (a.read bs, b.read (bs.drop a.size))
  length_write x := by simp [a.length_write, b.length_write]
  read_write x rest := by
    rw [List.append_assoc, a.read_write, ← a.length_write x.1, List.drop_left, b.read_write]

/-- The value followed by `n` bytes that are written as zeros and not looked at. -/
def pad (a : Layout α) (n : Nat) : Layout α where
  size := a.size + n
  write x := a.write x ++ List.replicate n 0
  read := a.read
  length_write x := by simp [a.length_write]
  read_write x rest := by rw [List.append_assoc, a.read_write]

/-- The same bytes, standing for values of another type: `make` takes a value of `a` to the one it
stands for, and `view` takes that back. -/
def map (a : Layout α) (make : α → β) (view : β → α) (make_view : ∀ y, make (view y) = y) :
    Layout β where
  size := a.size
  write y := a.write (view y)
  read bs := make (a.read bs)
  length_write y := a.length_write (view y)
  read_write y rest := by rw [a.read_write, make_view]

end Layout

end SceneGraph

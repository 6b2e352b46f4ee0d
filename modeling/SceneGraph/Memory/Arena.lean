import SceneGraph.Memory.Bytes

/-!
# Byte arenas

An arena is a buffer filled from the front. The bytes below `top` are live; those above it are
what earlier, since popped or cleared, contents left behind, and are written over before they
become live again. A push that does not fit enlarges the buffer. Through `live` an arena is a
byte string: a push appends, a write replaces in place, `pop` drops from the end.
-/

namespace SceneGraph

/-- Why an access to an arena is refused. -/
inductive ArenaError where
  | outOfBounds (offset length live : Nat)
  | underflow (requested live : Nat)
deriving DecidableEq, Repr

def ArenaError.message : ArenaError → String
  | outOfBounds offset length live =>
    s!"arena access out of bounds: offset {offset} + {length} bytes exceeds {live} live bytes"
  | underflow requested live =>
    s!"arena underflow: cannot pop {requested} bytes from {live} live bytes"

/-- A buffer of `capacity` bytes: `written` holds those ever written, and the first `top` of them
are live. -/
structure Arena where
  written : Bytes
  top : Nat
  capacity : Nat
  top_le : top ≤ written.length
  length_le : written.length ≤ capacity
deriving DecidableEq

namespace Arena

def ofCapacity (capacity : Nat) : Arena := ⟨[], 0, capacity, by simp, by simp⟩

def empty : Arena := ofCapacity 0

instance : Inhabited Arena := ⟨empty⟩

def size (a : Arena) : Nat := a.top

def isEmpty (a : Arena) : Bool := a.top == 0

def remaining (a : Arena) : Nat := a.capacity - a.top

def live (a : Arena) : Bytes := a.written.take a.top

/-- The capacity of a buffer of capacity `c` once it has room for `needed` bytes: twice what it
was, at least eight, or what is needed, if that is more. -/
def grown (c needed : Nat) : Nat :=
  if needed ≤ c then c else max needed (if c < 8 then 8 else 2 * c)

theorem le_grown (c needed : Nat) : c ≤ grown c needed := by unfold grown; split <;> omega

theorem needed_le_grown (c needed : Nat) : needed ≤ grown c needed := by
  unfold grown; split <;> omega

/-- Writes `bs` at the top, over whatever was left there, and makes it live. -/
def append (a : Arena) (bs : Bytes) : Arena where
  written := a.written.take a.top ++ (bs ++ a.written.drop (a.top + bs.length))
  top := a.top + bs.length
  capacity := grown a.capacity (a.top + bs.length)
  top_le := by have := a.top_le; simp; omega
  length_le := by
    have := a.top_le
    have := a.length_le
    have := le_grown a.capacity (a.top + bs.length)
    have := needed_le_grown a.capacity (a.top + bs.length)
    simp; omega

/-- Appends `bs` and says at which offset. -/
def push (a : Arena) (bs : Bytes) : Nat × Arena := (a.top, a.append bs)

def pushZeros (a : Arena) (n : Nat) : Nat × Arena := a.push (List.replicate n 0)

/-- Whether the `n` bytes from `offset` on are live. Their end has to be an offset itself: a sum
that no offset can hold is out of bounds, and is not taken round the end. -/
def Within (a : Arena) (offset n : Nat) : Prop :=
  offset + n < UInt64.size ∧ offset + n ≤ a.top

instance (a : Arena) (offset n : Nat) : Decidable (a.Within offset n) :=
  inferInstanceAs (Decidable (_ ∧ _))

/-- The `n` live bytes from `offset` on. -/
def get? (a : Arena) (offset n : Nat) : Option Bytes :=
  if a.Within offset n then some ((a.live.drop offset).take n) else none

/-- The little-endian word of `w` bytes at `offset`. -/
def word? (a : Arena) (w offset : Nat) : Option Nat := (a.get? offset w).map Bytes.toNat

/-- Writes `bs` over the live bytes from `offset` on. -/
def overwrite (a : Arena) (offset : Nat) (bs : Bytes) (h : offset + bs.length ≤ a.top) : Arena where
  written := a.written.take offset ++ (bs ++ a.written.drop (offset + bs.length))
  top := a.top
  capacity := a.capacity
  top_le := by have := a.top_le; simp; omega
  length_le := by have := a.top_le; have := a.length_le; simp; omega

/-- Writes `bs` over the bytes from `offset` on, if they are all live. -/
def write? (a : Arena) (offset : Nat) (bs : Bytes) : Option Arena :=
  if h : a.Within offset bs.length then some (a.overwrite offset bs h.2) else none

/-- Sets the `n` live bytes from `offset` on to `b`; nothing if they are not all live. -/
def fill? (a : Arena) (offset n : Nat) (b : UInt8) : Option Arena :=
  a.write? offset (List.replicate n b)

/-- Writes the little-endian word of `w` bytes at `offset`. -/
def setWord (a : Arena) (w offset value : Nat) : Except ArenaError Arena :=
  match a.write? offset (Bytes.ofNat w value) with
  | some a => .ok a
  | none => .error (.outOfBounds offset w a.top)

def pop (a : Arena) (n : Nat) : Except ArenaError Arena :=
  if n ≤ a.top then .ok { a with top := a.top - n, top_le := by have := a.top_le; omega }
  else .error (.underflow n a.top)

def clear (a : Arena) : Arena := { a with top := 0, top_le := Nat.zero_le _ }

@[simp] theorem live_ofCapacity (c : Nat) : (ofCapacity c).live = [] := rfl

@[simp] theorem length_live (a : Arena) : a.live.length = a.top := by
  simp [live, Nat.min_eq_left a.top_le]

@[simp] theorem top_append (a : Arena) (bs : Bytes) : (a.append bs).top = a.top + bs.length := rfl

@[simp] theorem live_append (a : Arena) (bs : Bytes) : (a.append bs).live = a.live ++ bs := by
  have h : (a.written.take a.top).length = a.top := a.length_live
  simp only [live, append]
  rw [← List.append_assoc, List.take_append_of_le_length (by simp [h]), List.take_of_length_le]
  simp [h]

theorem live_foldl_append (parts : List Bytes) (a : Arena) :
    (parts.foldl append a).live = a.live ++ parts.flatten := by
  induction parts generalizing a with
  | nil => simp
  | cons p ps ih => simp [ih, List.append_assoc]

@[simp] theorem live_overwrite (a : Arena) (offset : Nat) (bs : Bytes)
    (h : offset + bs.length ≤ a.top) : (a.overwrite offset bs h).live =
      a.live.take offset ++ (bs ++ a.live.drop (offset + bs.length)) := by
  have htop := a.top_le
  have hoffset : (a.written.take offset).length = offset := by simp; omega
  have hbs : bs.take (a.top - offset) = bs := List.take_of_length_le (by omega)
  simp only [live, overwrite, List.take_append, hoffset, hbs, List.take_take, List.drop_take,
    Nat.sub_sub]
  rw [Nat.min_eq_right (by omega), Nat.min_eq_left (by omega)]

@[simp] theorem live_clear (a : Arena) : a.clear.live = [] := by simp [live, clear]

@[simp] theorem top_clear (a : Arena) : a.clear.top = 0 := rfl

theorem within_iff {a : Arena} (h : a.top < UInt64.size) (offset n : Nat) :
    a.Within offset n ↔ offset + n ≤ a.top :=
  ⟨fun hw => hw.2, fun hle => ⟨Nat.lt_of_le_of_lt hle h, hle⟩⟩

/-- Left-overs above the top never show: after clearing, only what is appended is live. -/
theorem live_clear_append (a : Arena) (bs : Bytes) : (a.clear.append bs).live = bs := by simp

end Arena

end SceneGraph

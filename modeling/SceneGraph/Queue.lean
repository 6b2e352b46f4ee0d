import SceneGraph.Memory.Arena
import SceneGraph.Memory.Layout

/-!
# Double-buffered record queues

Producers append records to the write side. The consumer owns the read side and exchanges the two
once it has processed and cleared what it holds; an exchange before that is refused. A record is
a header, with the kind, the length of the payload and the offset of the next record, and then the
payload. The last record's successor is the end of the live bytes, which is how a walk ends. A walk
checks each header against the live bytes and stops at the first that does not agree with them.
-/

namespace SceneGraph

inductive QueueError where
  | notDrained (pending : Nat)
  | corrupt (offset : Nat)
deriving DecidableEq, Repr

def QueueError.message : QueueError → String
  | notDrained pending => s!"read queue not drained: {pending} bytes still pending"
  | corrupt offset => s!"corrupt command record at offset {offset}"

/-- A record found on the read side: its header lies at `offset`, its successor's at `next`. -/
structure Record where
  kind : UInt32
  offset : Nat
  next : Nat
  payload : Bytes
deriving DecidableEq, Repr

namespace Record

/-- Kind and four bytes of padding, length of the payload, offset of the next record. -/
def header : Layout (UInt32 × UInt64 × UInt64) :=
  (Layout.word32.pad 4).pair (Layout.word64.pair Layout.word64)

theorem size_header : header.size = 24 := rfl

/-- The record whose header lies at `offset` in the live bytes of `a`, if any starts before their
end. Its payload has to fill the bytes up to its successor, and to lie within the live ones. -/
def at? (a : Arena) (offset : Nat) : Except QueueError (Option Record) :=
  if a.top ≤ offset then .ok none
  else match a.get? offset header.size with
    | none => .error (.corrupt offset)
    | some head =>
      let (kind, length, next) := header.read head
      let start := offset + header.size
      if start + length.toNat = next.toNat ∧ next.toNat ≤ a.top then
        match a.get? start length.toNat with
        | none => .error (.corrupt offset)
        | some payload => .ok (some ⟨kind, offset, next.toNat, payload⟩)
      else .error (.corrupt offset)

end Record

/-- The two sides of a queue, and how often they were exchanged. -/
structure Queue where
  write : Arena
  read : Arena
  swaps : Nat
deriving DecidableEq

namespace Queue

/-- An empty queue with room for `capacity` bytes on each side. -/
def ofCapacity (capacity : Nat) : Queue := ⟨.ofCapacity capacity, .ofCapacity capacity, 0⟩

instance : Inhabited Queue := ⟨ofCapacity 0⟩

/-- Bytes that wait for the next exchange. -/
def pending (q : Queue) : Nat := q.write.size

/-- Bytes on the read side. -/
def readable (q : Queue) : Nat := q.read.size

def isDrained (q : Queue) : Bool := q.read.isEmpty

/-- Appends a record whose payload is the concatenation of `parts`, and gives its offset. -/
def push (q : Queue) (kind : UInt32) (parts : List Bytes) : Nat × Queue :=
  let length := parts.flatten.length
  let next := q.write.top + Record.header.size + length
  let head := Record.header.write (kind, UInt64.ofNat length, UInt64.ofNat next)
  (q.write.top, { q with write := parts.foldl Arena.append (q.write.append head) })

/-- Exchanges the sides and gives the number of bytes now readable. -/
def swap (q : Queue) : Except QueueError (Nat × Queue) :=
  if q.read.isEmpty then .ok (q.write.size, ⟨q.read, q.write, q.swaps + 1⟩)
  else .error (.notDrained q.read.size)

/-- Declares the read side processed. -/
def clear (q : Queue) : Queue := { q with read := q.read.clear }

/-- The record at `offset` on the read side, if there is one with a sound header. -/
def recordAt? (q : Queue) (offset : Nat) : Option Record :=
  match Record.at? q.read offset with
  | .ok r => r
  | .error _ => none

/-- The record after `previous`, or the first one. -/
def next? (q : Queue) (previous : Option Record) : Option Record :=
  q.recordAt? (match previous with
    | none => 0
    | some r => r.next)

/-- One step of a walk from `offset`: the record there, and where the walk goes on. Past the end or
at an unsound header it stays out of the live bytes for good. -/
def step (q : Queue) (offset : Nat) : Option Record × Nat :=
  match Record.at? q.read offset with
  | .ok (some r) => (some r, r.next)
  | .ok none => (none, offset)
  | .error _ => (none, q.read.top)

/-- The records of a walk of at most `fuel` steps from `offset`. -/
def walk (q : Queue) : (fuel offset : Nat) → List Record
  | 0, _ => []
  | fuel + 1, offset => match q.step offset with
    | (some r, next) => r :: q.walk fuel next
    | (none, _) => []

/-- All records on the read side, in the order of their pushes. A record takes at least one byte,
so a walk has no more steps than there are live bytes. -/
def records (q : Queue) : List Record := q.walk q.read.top 0

def countFrom (q : Queue) : (fuel offset count : Nat) → Except QueueError Nat
  | 0, _, count => .ok count
  | fuel + 1, offset, count => match Record.at? q.read offset with
    | .ok (some r) => q.countFrom fuel r.next (count + 1)
    | .ok none => .ok count
    | .error e => .error e

/-- The number of records on the read side, or the first header that is unsound. -/
def validate (q : Queue) : Except QueueError Nat := q.countFrom (q.read.top + 1) 0 0

/-- A push leaves the read side alone. -/
@[simp] theorem read_push (q : Queue) (kind : UInt32) (parts : List Bytes) :
    (q.push kind parts).2.read = q.read := rfl

theorem pending_push (q : Queue) (kind : UInt32) (parts : List Bytes) :
    (q.push kind parts).2.pending = q.pending + Record.header.size + parts.flatten.length := by
  simp only [push, pending, Arena.size]
  rw [← Arena.length_live, Arena.live_foldl_append, Arena.live_append]
  simp [Record.header.length_write]
  omega

theorem swap_eq_ok_iff (q r : Queue) (n : Nat) :
    q.swap = .ok (n, r) ↔ q.read.isEmpty ∧ n = q.pending ∧ r = ⟨q.read, q.write, q.swaps + 1⟩ := by
  unfold swap pending
  split <;> grind

/-- How the producers' end of the queue is displayed. -/
def displayWriter (q : Queue) : String :=
  "CommandWriter \x7b pending_bytes: " ++ toString q.pending ++ " \x7d"

/-- How the consumer's end of the queue is displayed. -/
def displayReader (q : Queue) : String :=
  "CommandReader \x7b pending_bytes: " ++ toString q.readable ++ ", swaps: " ++ toString q.swaps
    ++ ", .. \x7d"

end Queue

end SceneGraph

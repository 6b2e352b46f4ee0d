/-!
# Names of components

A name holds at most 63 bytes of UTF-8. A longer text is cut to its longest beginning, in whole
characters, that fits. The cut is found from the limit backwards: it is the first number of bytes
after which a character ends, and three steps back at most, since no character takes more than
four bytes.
-/

namespace SceneGraph.Name

/-- The most bytes that a name may take. -/
def limit : Nat := 63

/-- The characters that take exactly `n` bytes, if one ends there. -/
def takeBytes? : List Char → (n : Nat) → Option (List Char)
  | _, 0 => some []
  | [], _ + 1 => none
  | c :: cs, n + 1 =>
    if c.utf8Size ≤ n + 1 then (takeBytes? cs (n + 1 - c.utf8Size)).map (c :: ·) else none

/-- Searches backwards from `n` for the end of a character, and takes what comes before it. -/
def takeUpTo (cs : List Char) : (n : Nat) → List Char
  | 0 => []
  | n + 1 => (takeBytes? cs (n + 1)).getD (takeUpTo cs n)

/-- The text as a name. -/
def clamp (s : String) : String :=
  if s.utf8ByteSize ≤ limit then s else String.ofList (takeUpTo s.toList limit)

theorem clamp_of_le {s : String} (h : s.utf8ByteSize ≤ limit) : clamp s = s := by simp [clamp, h]

end SceneGraph.Name

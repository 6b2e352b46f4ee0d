/-!
# Scanners

A scanner reads something off the front of a text, or fails. This module has the scanners that all
parts of a document share: single characters, blanks, comments, line ends and runs of digits.
-/

namespace SceneGraph.Toml

abbrev Scan := StateT (List Char) Option

namespace Scan

variable {α : Type}

/-- The next character, which stays. -/
def peek? : Scan (Option Char) := return (← get).head?

/-- Exactly this character. -/
def char (c : Char) : Scan Unit := fun
  | d :: cs => if d = c then some ((), cs) else none
  | [] => none

/-- One character of a class. -/
def one (p : Char → Bool) : Scan Char := fun
  | d :: cs => if p d then some (d, cs) else none
  | [] => none

/-- This character, if it comes next. -/
def skip (c : Char) : Scan Bool := fun
  | d :: cs => if d = c then some (true, cs) else some (false, d :: cs)
  | [] => some (false, [])

/-- Exactly these characters. -/
def word (w : String) : Scan Unit := w.toList.forM char

/-- As many characters of a class as come next. -/
def run (p : Char → Bool) : Scan (List Char) := fun cs => some (cs.takeWhile p, cs.dropWhile p)

/-- The scan, or nothing in its place. -/
def optional (s : Scan α) : Scan (Option α) := some <$> s <|> pure none

def atEnd : Scan Bool := return (← get).isEmpty

end Scan

def isBlank (c : Char) : Bool := c = ' ' || c = '\t'

/-- Whether a character may stand in a comment or a text: a tab, or no control character. -/
def isPrintable (c : Char) : Bool := c = '\t' || (0x20 ≤ c.toNat && c.toNat ≠ 0x7f)

def isDecimal (c : Char) : Bool := '0' ≤ c && c ≤ '9'

def isHexadecimal (c : Char) : Bool := isDecimal c || ('a' ≤ c && c ≤ 'f') || ('A' ≤ c && c ≤ 'F')

/-- The number that a digit stands for. -/
def digitValue (c : Char) : Nat :=
  if isDecimal c then c.toNat - '0'.toNat
  else if 'a' ≤ c then c.toNat - 'a'.toNat + 10
  else c.toNat - 'A'.toNat + 10

/-- The number written by digits to a base. -/
def ofDigits (base : Nat) (ds : List Char) : Nat := ds.foldl (fun n d => base * n + digitValue d) 0

namespace Scan

def blanks : Scan Unit := discard (run isBlank)

/-- The end of a line: a line feed, with a carriage return before it or without. -/
def newline : Scan Unit := do
  let _ ← skip '\r'
  char '\n'

def comment : Scan Unit := do
  char '#'
  discard (run isPrintable)

/-- What may follow on a line after what it is about: blanks, a comment, and its end. -/
def lineEnd : Scan Unit := do
  blanks
  let _ ← optional comment
  if ← atEnd then return
  newline

/-- Blanks, comments and line ends, of which there are at most `fuel`. -/
def layout : (fuel : Nat) → Scan Unit
  | 0 => return
  | fuel + 1 => do
    blanks
    match ← optional (optional comment *> newline) with
    | none => return
    | some _ => layout fuel

/-- More digits, with single underscores between them. -/
def moreDigits (p : Char → Bool) : Scan (List Char)
  | '_' :: c :: cs =>
    if p c then (moreDigits p cs).map fun (ds, rest) => (c :: ds, rest) else none
  | c :: cs =>
    if p c then (moreDigits p cs).map fun (ds, rest) => (c :: ds, rest)
    else if c = '_' then none
    else some ([], c :: cs)
  | [] => some ([], [])

/-- One digit or more, with single underscores between them. -/
def digits (p : Char → Bool) : Scan (List Char) := do
  let d ← one p
  return d :: (← moreDigits p)

/-- Exactly `n` decimal digits, and the number they write. -/
def fixedDigits : (n : Nat) → Scan Nat
  | 0 => return 0
  | n + 1 => do
    let high ← fixedDigits n
    return 10 * high + digitValue (← one isDecimal)

end Scan

end SceneGraph.Toml

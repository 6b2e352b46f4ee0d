import SceneGraph.Toml.Number
import SceneGraph.Toml.Quoted

/-!
# Values and tables

A document is a table: entries under different keys. Tables arise in three ways: from a header,
from a dotted key or a header of a table further down, which imply those on the way, and as values
in braces, which are complete as they stand. Entries are put in along a path of keys.
-/

namespace SceneGraph.Toml

inductive Value where
  | string (s : String)
  | integer (n : Int)
  | float
  | boolean (b : Bool)
  | dateTime
  | array (elements : List Value)
  /-- A table in braces. -/
  | inlineTable (entries : List (String × Value))
  /-- A table that others may be put into; whether it was only implied, and by a dotted key. -/
  | table (implied dotted : Bool) (entries : List (String × Value))
  /-- The tables under the headers in double brackets of one name. -/
  | tables (elements : List (List (String × Value)))

abbrev Entries := List (String × Value)

namespace Entries

variable {α : Type}

def get? (es : Entries) (k : String) : Option Value := (es.find? fun e => e.1 = k).map Prod.snd

def set (es : Entries) (k : String) (v : Value) : Entries :=
  (es.filter fun e => e.1 ≠ k) ++ [(k, v)]

/-- Adds an entry under a key that must not have one. -/
def add (es : Entries) (k : String) (v : Value) : Option Entries :=
  if (es.get? k).isSome then none else some (es ++ [(k, v)])

/-- Edits the table at the end of a path; `edit` is told whether a dotted key implied it. Tables on
the way that do not exist are implied. A path from a dotted key may not enter a table that has a
header; the last of several tables stands for all of them. -/
def editAt (byKey : Bool) (edit : Bool → Entries → Option (α × Entries)) :
    (path : List String) → (dotted : Bool) → (es : Entries) → Option (α × Entries)
  | [], dotted, es => edit dotted es
  | k :: path, _, es =>
    match es.get? k with
    | none => do
      let (x, sub) ← editAt byKey edit path byKey []
      return (x, es.set k (.table true byKey sub))
    | some (.table implied dotted sub) =>
      if byKey && !implied then none
      else do
        let (x, sub) ← editAt byKey edit path dotted sub
        return (x, es.set k (.table implied dotted sub))
    | some (.tables ts) => do
      let (x, sub) ← editAt byKey edit path false (← ts.getLast?)
      return (x, es.set k (.tables (ts.dropLast ++ [sub])))
    | some _ => none

/-- Puts in a value under a path, whose last key names the entry. The table of the entry has to be
one that a dotted key implied, or the one that the path starts from. -/
def put (es : Entries) (path : List String) (v : Value) : Option Entries := do
  let key ← path.getLast?
  let tables := path.dropLast
  let edit (dotted : Bool) (es : Entries) : Option (Unit × Entries) :=
    if dotted = tables.isEmpty then none else (es.add key v).map ((), ·)
  return (← editAt true edit tables false es).2

end Entries

/-- The most keys that a path may have, and the most arrays and tables within each other. -/
def nestingLimit : Nat := 79

namespace Scan

variable {α : Type}

def key : Scan String :=
  shortText <|> do
    let bare c := isDecimal c || ('a' ≤ c && c ≤ 'z') || ('A' ≤ c && c ≤ 'Z') || c = '_' || c = '-'
    let c ← one bare
    return String.ofList (c :: (← run bare))

/-- Keys with points between them, at most `fuel` of them. -/
def path : (fuel : Nat) → Scan (List String)
  | 0 => failure
  | fuel + 1 => do
    blanks
    let k ← key
    blanks
    if ← skip '.' then return k :: (← path fuel) else return [k]

/-- A path, the sign of equality, and what it is set to. -/
def entry (value : Scan Value) : Scan (List String × Value) := do
  let ks ← path nestingLimit
  char '='
  blanks
  return (ks, ← value)

/-- The elements of an array after its opening bracket; each takes at least one character. -/
def elements (value : Scan Value) : (fuel : Nat) → Scan (List Value)
  | 0 => failure
  | fuel + 1 => do
    layout (← get).length
    if ← skip ']' then return []
    let v ← value
    layout (← get).length
    if ← skip ',' then return v :: (← elements value fuel)
    char ']'
    return [v]

/-- The entries of a table in braces after the first. -/
def moreEntries (value : Scan Value) : (fuel : Nat) → Entries → Scan Entries
  | 0, _ => failure
  | fuel + 1, es => do
    let (ks, v) ← entry value
    let some es := es.put ks v | failure
    blanks
    if ← skip ',' then moreEntries value fuel es
    else
      char '}'
      return es

/-- The entries of a table in braces, after the opening one. -/
def entries (value : Scan Value) : Scan Entries := do
  blanks
  if ← skip '}' then return []
  moreEntries value (← get).length []

/-- A value that holds no others. -/
def simpleValue : Scan Value := do
  match ← peek? with
  | some '"' => return .string (← text)
  | some '\'' => return .string (← text)
  | some 't' =>
    word "true"
    return .boolean true
  | some 'f' =>
    word "false"
    return .boolean false
  | _ =>
    (do dateTime; return .dateTime) <|> (do fractional; return .float)
      <|> return .integer (← integer)

/-- A value with at most `levels` arrays and tables within each other. -/
def value : (levels : Nat) → Scan Value
  | 0 => simpleValue
  | levels + 1 => do
    match ← peek? with
    | some '[' =>
      char '['
      return .array (← elements (value levels) (← get).length)
    | some '{' =>
      char '{'
      return .inlineTable (← entries (value levels))
    | _ => simpleValue

end Scan

end SceneGraph.Toml

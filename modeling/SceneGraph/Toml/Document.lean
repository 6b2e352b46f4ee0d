import SceneGraph.Toml.Value

/-!
# Documents

A document is read line by line: headers, entries, comments. The entries after a header belong to
its table, which is put in its place when the next header comes, or at the end. A header may open
the table of a path once; it may complete a table that so far was only implied by headers. A header
in double brackets adds one more table under its path.
-/

namespace SceneGraph.Toml

/-- A document as far as it has been read. -/
structure Draft where
  root : Entries := []
  /-- The path of the header last read; empty before the first one. -/
  header : List String := []
  /-- Whether that header was in double brackets. -/
  repeated : Bool := false
  /-- The entries since then. -/
  current : Entries := []

namespace Draft

/-- Puts the table of the last header in its place. -/
def close (d : Draft) : Option Entries :=
  match d.header.getLast? with
  | none => some d.current
  | some key => do
    let edit (_ : Bool) (es : Entries) : Option (Unit × Entries) :=
      if d.repeated then
        match es.get? key with
        | none => some ((), es.set key (.tables [d.current]))
        | some (.tables ts) => some ((), es.set key (.tables (ts ++ [d.current])))
        | some _ => none
      else (es.add key (.table false false d.current)).map ((), ·)
    return (← Entries.editAt false edit d.header.dropLast false d.root).2

/-- Opens the table of a header. What headers of tables further down have put there so far is taken
over. -/
def open? (d : Draft) (header : List String) (repeated : Bool) : Option Draft := do
  let root ← d.close
  if repeated then return { root, header, repeated }
  let key ← header.getLast?
  let edit (_ : Bool) (es : Entries) : Option (Entries × Entries) :=
    match es.get? key with
    | none => some ([], es)
    | some (.table true false sub) => some (sub, es.filter fun e => e.1 ≠ key)
    | some _ => none
  let (current, root) ← Entries.editAt false edit header.dropLast false root
  return { root, header, repeated, current }

end Draft

namespace Scan

/-- A header after its first bracket: its path, and whether the brackets are double. -/
def header : Scan (List String × Bool) := do
  let repeated ← skip '['
  let ks ← path nestingLimit
  char ']'
  if repeated then char ']'
  return (ks, repeated)

/-- The rest of a document, of at most `fuel` lines. -/
def lines : (fuel : Nat) → Draft → Scan Draft
  | 0, d => return d
  | fuel + 1, d => do
    blanks
    let some c ← peek? | return d
    if c = '[' then
      char '['
      let (ks, repeated) ← header
      lineEnd
      let some d := d.open? ks repeated | failure
      lines fuel d
    else if c = '#' || c = '\n' || c = '\r' then
      lineEnd
      lines fuel d
    else
      let (ks, v) ← entry (value nestingLimit)
      lineEnd
      let some current := d.current.put ks v | failure
      lines fuel { d with current }

end Scan

/-- The table that a document describes, if it is one. A mark of byte order may come first. -/
def parse (s : String) : Option Entries := do
  let cs := s.toList
  let cs := if cs.head? = some '\ufeff' then cs.tail else cs
  let (d, rest) ← Scan.lines (cs.length + 1) {} cs
  if rest.isEmpty then d.close else none

end SceneGraph.Toml

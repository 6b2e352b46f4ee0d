import SceneGraph.Toml.Scan

/-!
# Quoted texts

A basic text stands between quotation marks and may hold escapes, a literal one stands between
apostrophes and may not. Both also come with three marks at each end, and then may extend over
several lines; a line feed right after the opening marks does not count. Two marks may stand in
such a text, and directly before its closing marks two more.
-/

namespace SceneGraph.Toml

/-- The character of a code, if the code is one of a character. -/
def charOfCode? (n : Nat) : Option Char :=
  if h : n.isValidChar then some (Char.ofNatAux n h) else none

def codeOfHex? (ds : List Char) : Option Char :=
  if ds.all isHexadecimal then charOfCode? (ofDigits 16 ds) else none

/-- The character for one letter after a backslash. -/
def escaped? : Char → Option Char
  | 'b' => some '\x08'
  | 't' => some '\t'
  | 'n' => some '\n'
  | 'f' => some '\x0c'
  | 'r' => some '\r'
  | '"' => some '"'
  | '\\' => some '\\'
  | _ => none

/-- Whether blanks and the end of the line are all that is left of it. -/
def endsLine (cs : List Char) : Bool :=
  match cs.dropWhile isBlank with
  | '\n' :: _ => true
  | '\r' :: '\n' :: _ => true
  | _ => false

namespace Scan

/-- The text before a further character. -/
def before (c : Char) : Option (List Char × List Char) → Option (List Char × List Char)
  | some (text, rest) => some (c :: text, rest)
  | none => none

/-- The rest of a basic text, up to its closing mark. -/
def basicRest : Scan (List Char)
  | '"' :: cs => some ([], cs)
  | '\\' :: 'u' :: a :: b :: c :: d :: cs =>
    (codeOfHex? [a, b, c, d]).bind fun x => before x (basicRest cs)
  | '\\' :: 'U' :: a :: b :: c :: d :: e :: f :: g :: h :: cs =>
    (codeOfHex? [a, b, c, d, e, f, g, h]).bind fun x => before x (basicRest cs)
  | '\\' :: c :: cs => (escaped? c).bind fun x => before x (basicRest cs)
  | c :: cs => if isPrintable c && c ≠ '\\' then before c (basicRest cs) else none
  | [] => none

/-- The rest of a literal text, up to its closing mark. -/
def literalRest : Scan (List Char)
  | '\'' :: cs => some ([], cs)
  | c :: cs => if isPrintable c then before c (literalRest cs) else none
  | [] => none

/-- The rest of a basic text of several lines. While `trim` holds, blanks and line ends are passed
over, as they are after a backslash at the end of a line. -/
def basicLines : (trim : Bool) → Scan (List Char)
  | true, ' ' :: cs => basicLines true cs
  | true, '\t' :: cs => basicLines true cs
  | true, '\n' :: cs => basicLines true cs
  | true, '\r' :: '\n' :: cs => basicLines true cs
  | _, '"' :: '"' :: '"' :: '"' :: '"' :: cs => some (['"', '"'], cs)
  | _, '"' :: '"' :: '"' :: '"' :: cs => some (['"'], cs)
  | _, '"' :: '"' :: '"' :: cs => some ([], cs)
  | _, '\\' :: 'u' :: a :: b :: c :: d :: cs =>
    (codeOfHex? [a, b, c, d]).bind fun x => before x (basicLines false cs)
  | _, '\\' :: 'U' :: a :: b :: c :: d :: e :: f :: g :: h :: cs =>
    (codeOfHex? [a, b, c, d, e, f, g, h]).bind fun x => before x (basicLines false cs)
  | _, '\\' :: c :: cs =>
    if endsLine (c :: cs) then basicLines true (c :: cs)
    else (escaped? c).bind fun x => before x (basicLines false cs)
  | _, '\r' :: '\n' :: cs => before '\n' (basicLines false cs)
  | _, '\n' :: cs => before '\n' (basicLines false cs)
  | _, c :: cs => if isPrintable c && c ≠ '\\' then before c (basicLines false cs) else none
  | _, [] => none

/-- The rest of a literal text of several lines. -/
def literalLines : Scan (List Char)
  | '\'' :: '\'' :: '\'' :: '\'' :: '\'' :: cs => some (['\'', '\''], cs)
  | '\'' :: '\'' :: '\'' :: '\'' :: cs => some (['\''], cs)
  | '\'' :: '\'' :: '\'' :: cs => some ([], cs)
  | '\r' :: '\n' :: cs => before '\n' (literalLines cs)
  | '\n' :: cs => before '\n' (literalLines cs)
  | c :: cs => if isPrintable c then before c (literalLines cs) else none
  | [] => none

/-- A text on one line. -/
def shortText : Scan String := do
  match ← one fun c => c = '"' || c = '\'' with
  | '"' => return String.ofList (← basicRest)
  | _ => return String.ofList (← literalRest)

/-- A text on several lines. -/
def longText : Scan String := do
  match ← optional (word "\"\"\"") with
  | some _ =>
    let _ ← optional newline
    return String.ofList (← basicLines false)
  | none =>
    word "\'\'\'"
    let _ ← optional newline
    return String.ofList (← literalLines)

def text : Scan String := longText <|> shortText

end Scan

end SceneGraph.Toml

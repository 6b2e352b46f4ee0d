import SceneGraph.Toml.Scan

/-!
# Numbers, dates and times

Integers are decimal, with a sign or without, or hexadecimal, octal or binary, and have to fit
64 bits. Of a fractional number it only matters that it is one, and that it is not above every
double-precision number. Of a date or a time it only matters that there is such a day and hour.
-/

namespace SceneGraph.Toml

/-- Whether 64 bits hold a number, with its sign. -/
def fitsInt64 (n : Int) : Bool := Int64.minValue.toInt ≤ n ∧ n ≤ Int64.maxValue.toInt

/-- The least number that rounds to infinity: half a step above the largest finite one of double
precision, which in binary is 54 ones and then 970 zeros. -/
def overflowBound : Nat := 0x3fffffffffffff <<< 970

/-- Whether `m * 10 ^ e` rounds to infinity. Apart from numbers of about 308 digits, the number of
digits decides. -/
def overflows (m : Nat) (e : Int) : Bool :=
  let size := (Nat.toDigits 10 m).length + e
  if m = 0 || size ≤ 308 then false
  else if 310 ≤ size then true
  else if 0 ≤ e then overflowBound ≤ m * Nat.pow 10 e.toNat
  else overflowBound * Nat.pow 10 (-e).toNat ≤ m

/-- The number of days of a month. -/
def daysOfMonth (year month : Nat) : Nat :=
  if month = 2 then
    if year % 4 = 0 && (year % 100 ≠ 0 || year % 400 = 0) then 29 else 28
  else if month = 4 || month = 6 || month = 9 || month = 11 then 30
  else 31

namespace Scan

def inRange (low high n : Nat) : Scan Unit := if low ≤ n ∧ n ≤ high then return else failure

/-- A sign; whether it is a minus. -/
def sign : Scan Bool := do
  if ← skip '-' then return true
  let _ ← skip '+'
  return false

/-- Decimal digits that do not begin with a superfluous zero. -/
def plainDigits : Scan (List Char) := do
  if ← skip '0' then return ['0']
  digits isDecimal

/-- An integer of 64 bits with a sign. -/
def integer : Scan Int := do
  let prefixed : Option (Nat × (Char → Bool)) := match (← get).take 2 with
    | ['0', 'x'] => some (16, isHexadecimal)
    | ['0', 'o'] => some (8, fun c => '0' ≤ c && c ≤ '7')
    | ['0', 'b'] => some (2, fun c => c = '0' || c = '1')
    | _ => none
  match prefixed with
  | some (base, p) =>
    modify (List.drop 2)
    let n : Nat := ofDigits base (← digits p)
    if fitsInt64 n then return n else failure
  | none =>
    let minus ← sign
    let magnitude : Nat := ofDigits 10 (← plainDigits)
    let n : Int := if minus then -magnitude else magnitude
    if fitsInt64 n then return n else failure

/-- What follows the mark of an exponent. -/
def exponent : Scan Int := do
  let _ ← one fun c => c = 'e' || c = 'E'
  let minus ← sign
  let n : Nat := ofDigits 10 (← digits isDecimal)
  return if minus then -n else n

/-- A fractional number: digits with a fraction, an exponent or both, or a name of infinity or of
no number. -/
def fractional : Scan Unit := written <|> named
where
  written : Scan Unit := do
    let minus ← sign
    let whole ← plainDigits
    let fraction ← optional (char '.' *> digits isDecimal)
    let power ← optional exponent
    if fraction.isNone && power.isNone then failure
    let fraction := fraction.getD []
    let m := ofDigits 10 (whole ++ fraction)
    if !minus && overflows m (power.getD 0 - fraction.length) then failure
  named : Scan Unit := do
    let _ ← sign
    word "inf" <|> word "nan"

def date : Scan Unit := do
  let year ← fixedDigits 4
  char '-'
  let month ← fixedDigits 2
  inRange 1 12 month
  char '-'
  let day ← fixedDigits 2
  inRange 1 (daysOfMonth year month) day

def hourMinute : Scan Unit := do
  inRange 0 23 (← fixedDigits 2)
  char ':'
  inRange 0 59 (← fixedDigits 2)

/-- A time of day with its seconds, of which there may be sixty, and a fraction of them. -/
def time : Scan Unit := do
  hourMinute
  char ':'
  inRange 0 60 (← fixedDigits 2)
  if ← skip '.' then
    let _ ← one isDecimal
    discard (run isDecimal)

/-- The distance of a local time from universal time. -/
def offset : Scan Unit :=
  discard (one fun c => c = 'Z' || c = 'z')
    <|> discard (one fun c => c = '+' || c = '-') *> hourMinute

/-- A date, a time, or both and perhaps an offset. -/
def dateTime : Scan Unit := dateFirst <|> time
where
  dateFirst : Scan Unit := do
    date
    discard (optional (discard (one fun c => c = 'T' || c = 't' || c = ' ') *> time *>
      discard (optional offset)))

end Scan

end SceneGraph.Toml

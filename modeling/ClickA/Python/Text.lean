import ClickA.Python.Struct

/-!
# Text

What the models use of the methods of `str`, and the conversions `int(s)` and `float(s)`, of
Python 2.

## Main definitions

* `splitAt`, `split`: `s.split(sep)` and `s.split()`
* `intOf`, `floatOf`: `int(s)` and `float(s)`
* `tryElse`: `try:` an expression, `except:` a default

## Main results

* `splitAt_cons`: a separator ends the first part
-/

namespace Python

/-- The bytes of a literal. -/
def ascii (s : String) : Bytes := s.toList.map fun c => UInt8.ofNat c.toNat

/-- The bytes that count as whitespace. -/
def isSpace (b : UInt8) : Bool := b = 32 || (9 ≤ b && b ≤ 13)

def isDigit (b : UInt8) : Bool := 48 ≤ b && b ≤ 57

/-- `s.strip()`. -/
def strip (s : Bytes) : Bytes := ((s.dropWhile isSpace).reverse.dropWhile isSpace).reverse

/-- `s.split(sep)`, at a separator of one byte. -/
def splitAt (sep : UInt8) : Bytes → List Bytes
  | [] => [[]]
  | b :: s => if b = sep then [] :: splitAt sep s else
    match splitAt sep s with
    | [] => [[b]]
    | part :: parts => (b :: part) :: parts

/-- `s.split()`: the parts between whitespace that are not empty. -/
def split (s : Bytes) : List Bytes := (s.splitOnP isSpace).filter (· ≠ [])

/-- A sign, and what follows it. -/
def signed : Bytes → Bool × Bytes
  | 43 :: s => (false, s)
  | 45 :: s => (true, s)
  | s => (false, s)

/-- The number that digits denote. -/
def digitsToNat (s : Bytes) : ℕ := s.foldl (fun n b => n * 10 + (b.toNat - 48)) 0

/-- `int(s)`. -/
def intOf (s : Bytes) : Except Exn ℤ :=
  let (negative, digits) := signed (strip s)
  if digits ≠ [] ∧ digits.all isDigit then
    .ok (if negative then -digitsToNat digits else digitsToNat digits)
  else .error .valueError

/-- The exponent of a number: nothing, or `e` and an integer. -/
def exponent : Bytes → Option ℤ
  | [] => some 0
  | b :: s =>
    let (negative, digits) := signed s
    if (b = 101 ∨ b = 69) ∧ digits ≠ [] ∧ digits.all isDigit then
      some (if negative then -digitsToNat digits else digitsToNat digits)
    else none

/-- A number in decimal notation, without its sign. -/
def decimal (s : Bytes) : Option Float :=
  let whole := s.takeWhile isDigit
  let rest := s.dropWhile isDigit
  let (fraction, rest) := match rest with
    | 46 :: rest => (rest.takeWhile isDigit, rest.dropWhile isDigit)
    | rest => ([], rest)
  if whole ++ fraction = [] then none
  else (exponent rest).map fun e : ℤ =>
    let e : ℤ := e - fraction.length
    Float.ofScientific (digitsToNat (whole ++ fraction)) (e < 0) e.natAbs

/-- Letters in lower case. -/
def lower (s : Bytes) : Bytes := s.map fun b => if 65 ≤ b && b ≤ 90 then b + 32 else b

/-- `float(s)`. -/
def floatOf (s : Bytes) : Except Exn Float :=
  let (negative, s) := signed (strip s)
  let magnitude :=
    if lower s = ascii "inf" ∨ lower s = ascii "infinity" then some (1.0 / 0.0)
    else if lower s = ascii "nan" then some (0.0 / 0.0)
    else decimal s
  match magnitude with
  | some x => .ok (if negative then -x else x)
  | none => .error .valueError

/-- `try:` an expression, and `except:` a default. -/
def tryElse {α : Type} (x : Except Exn α) (default : α) : α :=
  match x with
  | .ok a => a
  | .error _ => default

theorem splitAt_cons (sep : UInt8) (s : Bytes) : splitAt sep (sep :: s) = [] :: splitAt sep s := by
  rw [splitAt, if_pos rfl]

example : split (ascii "HL  ACC\t-12\r") = [ascii "HL", ascii "ACC", ascii "-12"] := by
  decide +kernel

end Python

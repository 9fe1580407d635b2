/-!
# Reading numbers

Integers and floats from their decimal texts.  An integer has to fit 64 bits; a float is the one
nearest to the number written, however long that is.
-/

namespace RecordQuery.Decimal

/-- The integer that a row of decimal digits stands for, continuing from `value`. -/
def natOfDigits (value : Nat) (digits : List Char) : Nat := Nat.ofDigitChars 10 digits value

/-- An integer as a 64-bit integer, if it fits. -/
def int64? (n : Int) : Option Int64 :=
  if Int64.minValue.toInt ≤ n ∧ n ≤ Int64.maxValue.toInt then some (Int64.ofInt n) else none

/-- Splits off a sign; true stands for minus. -/
def readSign : List Char → Bool × List Char
  | '-' :: rest => (true, rest)
  | '+' :: rest => (false, rest)
  | rest => (false, rest)

/-- A 64-bit integer: an optional sign and one digit or more. -/
def readInt64 (text : List Char) : Option Int64 :=
  let (negative, digits) := readSign text
  if digits ≠ [] ∧ digits.all Char.isDigit then
    let size : Int := natOfDigits 0 digits
    int64? (if negative then -size else size)
  else none

/-- The float nearest to `digits · 10 ^ exponent`, a number of at most `count` digits before the
power.  Powers that lead out of range by themselves are not computed. -/
def nearestFloat (digits : Nat) (count : Nat) (exponent : Int) : Float :=
  if digits = 0 then 0.0
  else if 400 < exponent then 1.0 / 0.0
  else if (count : Int) + exponent < -400 then 0.0
  else if exponent < 0 then Float.ofScientific digits true exponent.natAbs
  else Float.ofScientific digits false exponent.toNat

/-- The exponent part of a float: nothing, or `e` with an optional sign and one digit or more. -/
def readExponent : List Char → Option Int
  | [] => some 0
  | mark :: rest =>
    let (negative, digits) := readSign rest
    if (mark = 'e' ∨ mark = 'E') ∧ digits ≠ [] ∧ digits.all Char.isDigit then
      let size : Int := natOfDigits 0 digits
      some (if negative then -size else size)
    else none

/-- A float: an optional sign, digits with at most one point among or beside them, and an
optional exponent. -/
def readFloat (text : List Char) : Option Float :=
  let (negative, unsigned) := readSign text
  let whole := unsigned.takeWhile Char.isDigit
  let afterWhole := unsigned.dropWhile Char.isDigit
  let (fraction, tail) :=
    match afterWhole with
    | '.' :: rest => (rest.takeWhile Char.isDigit, rest.dropWhile Char.isDigit)
    | rest => ([], rest)
  let digits := whole ++ fraction
  if digits = [] then none
  else
    match readExponent tail with
    | none => none
    | some exponent =>
      let size := nearestFloat (natOfDigits 0 digits) digits.length (exponent - fraction.length)
      some (if negative then -size else size)

end RecordQuery.Decimal

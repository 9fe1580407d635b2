/-!
# Floats as exact numbers

A finite float is a signed `mantissa · 2 ^ exponent`.  Reading it off the bits lets digits,
truncation and remainders be computed in exact integer arithmetic.
-/

namespace RecordQuery.Decimal

/-- The number `mantissa · 2 ^ exponent`. -/
structure Binary where
  /-- The integer that is scaled. -/
  mantissa : Nat
  /-- The power of two it is scaled by. -/
  exponent : Int
  deriving DecidableEq

/-- Whether the sign bit of a float is set. -/
def isNegative (x : Float) : Bool := x.toBits >>> 63 == 1

/-- The eleven exponent bits of a float. -/
def exponentBits (x : Float) : Nat := (x.toBits.toNat >>> 52) % Nat.pow 2 11

/-- The magnitude of a finite float. -/
def magnitude (x : Float) : Binary :=
  let fraction := x.toBits.toNat % Nat.pow 2 52
  if exponentBits x = 0 then ⟨fraction, -1074⟩
  else ⟨Nat.pow 2 52 + fraction, (exponentBits x : Int) - 1075⟩

/-- The magnitude as a quotient of two integers. -/
def Binary.numerator (b : Binary) : Nat := b.mantissa * Nat.pow 2 b.exponent.toNat

/-- The divisor that goes with `numerator`. -/
def Binary.denominator (b : Binary) : Nat := Nat.pow 2 (-b.exponent).toNat

/-- The integer part of a magnitude. -/
def Binary.floor (b : Binary) : Nat := b.numerator / b.denominator

/-- The float with a given sign whose magnitude is `mantissa · 2 ^ exponent`, for a mantissa below
`2 ^ 53` and an exponent from -1074 to 970. -/
def ofBinary (negative : Bool) (b : Binary) : Float :=
  let signBits := if negative then Nat.pow 2 63 else 0
  if b.mantissa = 0 then Float.ofBits (UInt64.ofNat signBits)
  else
    let shift := min (52 - b.mantissa.log2) (b.exponent + 1074).toNat
    let mantissa := b.mantissa * Nat.pow 2 shift
    let exponent := b.exponent - shift
    let bits :=
      if mantissa < Nat.pow 2 52 then mantissa
      else mantissa - Nat.pow 2 52 + (exponent + 1075).toNat * Nat.pow 2 52
    Float.ofBits (UInt64.ofNat (signBits + bits))

/-- The integer that a float is cut to, towards zero; nothing for a float that is not finite. -/
def truncate? (x : Float) : Option Int :=
  if x.isFinite then
    let size : Int := (magnitude x).floor
    some (if isNegative x then -size else size)
  else none

/-- The remainder of the division of two floats, with the sign of the dividend. -/
def remainder (x y : Float) : Float :=
  if x.isNaN || y.isNaN || x.isInf || y == 0.0 then 0.0 / 0.0
  else if y.isInf then x
  else
    let a := magnitude x
    let b := magnitude y
    let exponent := min a.exponent b.exponent
    let scaledX := a.mantissa * Nat.pow 2 (a.exponent - exponent).toNat
    let scaledY := b.mantissa * Nat.pow 2 (b.exponent - exponent).toNat
    ofBinary (isNegative x) ⟨scaledX % scaledY, exponent⟩

end RecordQuery.Decimal

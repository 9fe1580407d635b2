import RecordQuery.Decimal.Shortest

/-!
# Writing floats

A layout says from where on a float is written with a power of ten and when `.0` follows an
integral one; the digits are always the shortest that read back.
-/

namespace RecordQuery.Decimal

/-- The decisions of a float format. -/
structure Layout where
  /-- The power of ten that a magnitude stays below to be written positionally. -/
  positionalBelow : Option Int
  /-- The power of ten that a magnitude other than zero reaches to be written positionally. -/
  positionalFrom : Option Int
  /-- The power of ten that an integral magnitude stays below to be followed by `.0`. -/
  pointBelow : Option Int

/-- The power of ten just above a number other than zero. -/
def Digits.top (d : Digits) : Int := digitCount d.digits + d.exponent

/-- The decimal digits of an integer. -/
def digitChars (n : Nat) : List Char := Nat.toDigits 10 n

/-- A number with all its places and, if it is integral, with `.0` where `point` asks for it. -/
def Digits.positional (d : Digits) (point : Bool) : List Char :=
  let chars := digitChars d.digits
  if 0 ≤ d.exponent then
    let whole := if d.digits = 0 then ['0'] else chars ++ List.replicate d.exponent.toNat '0'
    if point then whole ++ ['.', '0'] else whole
  else
    let places := (-d.exponent).toNat
    let padded := List.replicate (places + 1 - chars.length) '0' ++ chars
    padded.take (padded.length - places) ++ '.' :: padded.drop (padded.length - places)

/-- A number as one digit, its other digits after a point, and a power of ten. -/
def Digits.scientific (d : Digits) : List Char :=
  let chars := digitChars d.digits
  let exponent := d.top - 1
  let power := if exponent < 0 then '-' :: digitChars exponent.natAbs else digitChars exponent.toNat
  match chars with
  | [] => []
  | [digit] => digit :: 'e' :: power
  | digit :: rest => digit :: '.' :: (rest ++ 'e' :: power)

/-- Whether a bound is absent or lies above a power of ten. -/
private def liesBelow (top : Int) : Option Int → Bool
  | none => true
  | some bound => top ≤ bound

/-- A magnitude as a layout writes it. -/
def Layout.digits (layout : Layout) (d : Digits) : List Char :=
  let aboveLeast :=
    match layout.positionalFrom with
    | none => true
    | some least => d.digits = 0 || least < d.top
  if liesBelow d.top layout.positionalBelow && aboveLeast then
    d.positional (d.digits = 0 || liesBelow d.top layout.pointBelow)
  else d.scientific

/-- A float as a layout writes it. -/
def Layout.write (layout : Layout) (x : Float) : String :=
  if x.isNaN then "NaN"
  else
    let sign := if isNegative x then ['-'] else []
    if x.isInf then String.ofList (sign ++ ['i', 'n', 'f'])
    else String.ofList (sign ++ layout.digits (magnitude x).shortest)

end RecordQuery.Decimal

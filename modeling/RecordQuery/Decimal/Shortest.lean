import RecordQuery.Decimal.Binary

/-!
# The fewest digits that read back

Among the decimal numbers that round to a given float, `shortest` picks one with the fewest
digits, and of those the one nearest to the float.  The search goes through the decimal grids with
1, 2, … 17 digits and looks at the two neighbours of the value on each.
-/

namespace RecordQuery.Decimal

/-- The number `digits · 10 ^ exponent`. -/
structure Digits where
  /-- The significant digits as one integer. -/
  digits : Nat
  /-- The power of ten they are scaled by. -/
  exponent : Int
  deriving DecidableEq

/-- Numbers scaled by a common denominator: a value and the ends of the interval that rounds
to it. -/
structure Interval where
  /-- The value times the denominator. -/
  value : Nat
  /-- The lower end times the denominator. -/
  low : Nat
  /-- The upper end times the denominator. -/
  high : Nat
  /-- The common denominator. -/
  denominator : Nat
  /-- Whether the ends themselves round to the value. -/
  closed : Bool

/-- The interval of numbers that round to a positive magnitude: half the distance to each
neighbouring float, the ends included when the mantissa is even. -/
def Binary.interval (b : Binary) : Interval :=
  let scale := Nat.pow 2 b.exponent.toNat
  -- Below a power of two the next float is only half as far away.
  let lowGap := if b.mantissa = Nat.pow 2 52 ∧ b.exponent ≠ -1074 then 1 else 2
  { value := 4 * b.mantissa * scale
    low := (4 * b.mantissa - lowGap) * scale
    high := (4 * b.mantissa + 2) * scale
    denominator := 4 * b.denominator
    closed := b.mantissa % 2 = 0 }

/-- Whether `point / denominator` lies in the interval. -/
def Interval.contains (i : Interval) (point : Nat) : Bool :=
  if i.closed then i.low ≤ point && point ≤ i.high else i.low < point && point < i.high

/-- The interval times `10 ^ power`. -/
def Interval.scaled (i : Interval) (power : Int) : Interval :=
  let up := Nat.pow 10 power.toNat
  { i with
    value := i.value * up
    low := i.low * up
    high := i.high * up
    denominator := i.denominator * Nat.pow 10 (-power).toNat }

/-- The neighbour of the value on the grid of multiples of `10 ^ exponent` that rounds to the
value; of two such neighbours the nearer, and at equal distance the greater. -/
def Interval.onGrid (i : Interval) (exponent : Int) : Option Digits :=
  let grid := i.scaled (-exponent)
  let below := grid.value / grid.denominator
  let lowPoint := below * grid.denominator
  let highPoint := lowPoint + grid.denominator
  let lowFits := grid.contains lowPoint && below != 0
  let highFits := grid.contains highPoint
  if lowFits && (!highFits || grid.value - lowPoint < highPoint - grid.value) then
    some ⟨below, exponent⟩
  else if highFits then some ⟨below + 1, exponent⟩
  else none

/-- The number of digits of an integer. -/
def digitCount (n : Nat) : Nat := (Nat.toDigits 10 n).length

/-- The power of ten just above a positive quotient. -/
def topExponent (numerator denominator : Nat) : Int :=
  if denominator ≤ numerator then digitCount (numerator / denominator)
  else
    -- The quotient lies between `1 / (q + 1)` and `1 / q`.
    let exponent : Int := 1 - digitCount (denominator / numerator)
    if numerator * Nat.pow 10 (-exponent).toNat ≥ denominator then exponent + 1 else exponent

/-- The first grid with a hit, starting with the coarsest. -/
def Interval.search (i : Interval) (top : Int) : List Nat → Option Digits
  | [] => none
  | count :: finer =>
    match i.onGrid (top - count) with
    | some found => some found
    | none => i.search top finer

/-- Digits without trailing zeros. -/
def Digits.trimmed : Nat → Digits → Digits
  | 0, d => d
  | fuel + 1, d =>
    if d.digits ≠ 0 ∧ d.digits % 10 = 0 then trimmed fuel ⟨d.digits / 10, d.exponent + 1⟩ else d

/-- The fewest digits that read back as the magnitude, without trailing zeros. -/
def Binary.shortest (b : Binary) : Digits :=
  if b.mantissa = 0 then ⟨0, 0⟩
  else
    let i := b.interval
    let top := topExponent i.value i.denominator
    match i.search top ((List.range 17).map (· + 1)) with
    | some found => found.trimmed 17
    | none => ⟨b.floor, 0⟩

end RecordQuery.Decimal

import RecordQuery.Value.Basic

/-!
# Arithmetic on values

Integer arithmetic is exact: a result beyond 64 bits is a failure and never wraps.  An operation on
an integer and a float is one on floats, and one on a null is a null.
-/

namespace RecordQuery

/-- The binary operations on numbers. -/
inductive Arithmetic where
  | add
  | subtract
  | multiply
  | divide
  | remainder
  deriving DecidableEq, Repr

namespace Arithmetic

/-- Whether the right operand divides the left one. -/
def divides : Arithmetic → Bool
  | divide | remainder => true
  | _ => false

/-- The exact result on integers: quotients are cut towards zero, and a remainder has the sign of
the dividend. -/
def exact : Arithmetic → Int → Int → Int
  | add, m, n => m + n
  | subtract, m, n => m - n
  | multiply, m, n => m * n
  | divide, m, n => m.tdiv n
  | remainder, m, n => m.tmod n

/-- The result on 64-bit integers, if it fits; a remainder is refused together with its
quotient. -/
def onIntegers (operation : Arithmetic) (m n : Int64) : Option Int64 :=
  match operation with
  | remainder =>
    (Decimal.int64? (divide.exact m.toInt n.toInt)).bind fun _ =>
      Decimal.int64? (remainder.exact m.toInt n.toInt)
  | _ => Decimal.int64? (operation.exact m.toInt n.toInt)

/-- The result on floats. -/
def onFloats : Arithmetic → Float → Float → Float
  | add, x, y => x + y
  | subtract, x, y => x - y
  | multiply, x, y => x * y
  | divide, x, y => x / y
  | remainder, x, y => Decimal.remainder x y

end Arithmetic

namespace Value

/-- Whether a value is a zero. -/
def isZero : Value → Bool
  | integer n => n == 0
  | float x => x == 0.0
  | _ => false

/-- The result of an operation on two values.  Division by zero is refused whatever is divided. -/
def arithmetic (operation : Arithmetic) (left right : Value) : Except Error Value :=
  if operation.divides && right.isZero then .error .divisionByZero
  else
    match left, right with
    | integer m, integer n =>
      match operation.onIntegers m n with
      | some result => .ok (integer result)
      | none => .error (.type (.overflow m n))
    | float x, float y => .ok (float (operation.onFloats x y))
    | integer m, float y => .ok (float (operation.onFloats (floatOfInt64 m) y))
    | float x, integer n => .ok (float (operation.onFloats x (floatOfInt64 n)))
    | _, _ =>
      if left.isNull || right.isNull then .ok (null .float)
      else .error (.type (.unsupportedOperands left.dataType right.dataType))

/-- The sum of two numbers, or two texts in a row. -/
def add : Value → Value → Except Error Value
  | text s, text t => .ok (text (s ++ t))
  | left, right => arithmetic .add left right

/-- The negative of a number. -/
def negate : Value → Except Error Value
  | integer n =>
    match Decimal.int64? (-n.toInt) with
    | some result => .ok (integer result)
    | none => .error (.type (.negationOverflow n))
  | float x => .ok (float (-x))
  | null type => .ok (null type)
  | other => .error (.type (.cannotNegate other.dataType))

end Value

end RecordQuery

import RecordQuery.Decimal.Layout
import RecordQuery.Decimal.Reading
import RecordQuery.Error

/-!
# Values

A value is a null of some type, a scalar, or a reference to a record.  This module holds what can
be read off a single value, the order and the equality of two values, and the conversion of a
value into a domain.
-/

namespace RecordQuery

open Decimal (int64?)

/-- A value of an expression, a cell or a column. -/
inductive Value where
  /-- The absence of a value of some type. -/
  | null (type : DataType)
  | boolean (b : Bool)
  | integer (n : Int64)
  | float (x : Float)
  | text (s : String)
  | record (r : RecordRef)
  deriving DecidableEq

/-- A 64-bit integer as the nearest float. -/
def floatOfInt64 (n : Int64) : Float := Float.ofInt n.toInt

/-- The 64-bit integer nearest to an integer. -/
def clampInt64 (n : Int) : Int64 :=
  if n < Int64.minValue.toInt then Int64.minValue
  else if Int64.maxValue.toInt < n then Int64.maxValue
  else Int64.ofInt n

namespace Value

/-- The null without a known type. -/
def unknown : Value := null .null

/-! ## Reading a value -/

/-- The type of a value. -/
def dataType : Value → DataType
  | null type => type
  | boolean _ => .boolean
  | integer _ => .integer
  | float _ => .float
  | text _ => .text
  | record _ => .record

/-- Whether a value is a null. -/
def isNull : Value → Bool
  | null _ => true
  | _ => false

/-- A value as an integer: floats are cut towards zero and held within 64 bits, what is not a
number counts as 0, truth counts as 0 or 1, and a record as its id. -/
def toInt64? : Value → Option Int64
  | integer n => some n
  | float x =>
    match Decimal.truncate? x with
    | some n => some (clampInt64 n)
    | none => some (if x.isNaN then 0 else if x < 0.0 then Int64.minValue else Int64.maxValue)
  | boolean b => some (if b then 1 else 0)
  | record r => some (Int64.ofNat r.id)
  | _ => none

/-- A number as a float. -/
def toFloat? : Value → Option Float
  | integer n => some (floatOfInt64 n)
  | float x => some x
  | _ => none

/-- The content of a text. -/
def text? : Value → Option String
  | text s => some s
  | _ => none

/-- The record that a value refers to. -/
def record? : Value → Option RecordRef
  | record r => some r
  | _ => none

/-- Whether a value counts as true: a number other than zero, a text that is not empty, a
reference that names a record. -/
def isTruthy : Value → Bool
  | null _ => false
  | boolean b => b
  | integer n => n != 0
  | float x => x != 0.0
  | text s => !s.isEmpty
  | record r => !r.isNil

/-- How a float is shown: with all its places, and with `.0` when it is integral and below
`10 ^ 15`. -/
def floatLayout : Decimal.Layout where
  positionalBelow := none
  positionalFrom := none
  pointBelow := some 15

/-- A value as messages and texts show it. -/
def describe : Value → String
  | null _ => "NULL"
  | boolean b => if b then "true" else "false"
  | integer n => decimal n
  | float x => floatLayout.write x
  | text s => s
  | record r => r.table.describe ++ ":" ++ toString r.id

/-! ## Order and equality -/

/-- The order of floats, with what is not a number above all numbers. -/
def compareFloats (x y : Float) : Ordering :=
  if x < y then .lt
  else if x == y then .eq
  else if y < x then .gt
  else if x.isNaN && y.isNaN then .eq
  else if x.isNaN then .gt
  else .lt

/-- The order of two values; nothing if one is null or their types cannot be compared.  Integers
and floats compare as floats. -/
def compare? : Value → Value → Option Ordering
  | integer m, integer n => some (compare m.toInt n.toInt)
  | float x, float y => some (compareFloats x y)
  | integer m, float y => some (compareFloats (floatOfInt64 m) y)
  | float x, integer n => some (compareFloats x (floatOfInt64 n))
  | text s, text t => some (compare s t)
  | boolean a, boolean b => some (compare a b)
  | record r, record q => if r.table = q.table then some (compare r.id q.id) else none
  | _, _ => none

/-- Whether two values are equal: nulls of any types are, and an integer equals the floats it
converts to. -/
def equals : Value → Value → Bool
  | null _, null _ => true
  | float x, float y => x.isNaN && y.isNaN || x == y
  | integer n, float x | float x, integer n => x == floatOfInt64 n
  | integer m, integer n => m == n
  | text s, text t => s == t
  | boolean a, boolean b => a == b
  | record r, record q => r == q
  | _, _ => false

/-! ## Conversion into a domain -/

/-- A value as a reference to a record of a table: a null is the reference to no record, and an
integer numbers a record. -/
def toRecordOf (table : TableId) : Value → Except CoercionFault Value
  | null _ => .ok (record (.nil table))
  | record r =>
    if r.table = table then .ok (record r) else .error (.mismatch (.table table) .record)
  | integer n =>
    if 0 ≤ n.toInt ∧ n.toInt ≤ RecordRef.maxId then .ok (record ⟨table, n.toInt.toNat⟩)
    else .error (.recordIdOutOfRange n)
  | other => .error (.mismatch (.table table) other.dataType)

/-- A value as a scalar of a type: a null takes the type, an integer widens to a float, and the
null type admits everything. -/
def toScalarOf (type : DataType) : Value → Except CoercionFault Value
  | null _ => .ok (null type)
  | other =>
    if type = .null then .ok other
    else
      match other, type with
      | integer n, .float => .ok (float (floatOfInt64 n))
      | _, _ =>
        if other.dataType = type then .ok other
        else .error (.mismatch (.scalar type) other.dataType)

/-- A value converted so that it fits a domain. -/
def coerce (domain : Domain) (value : Value) : Except CoercionFault Value :=
  match domain with
  | .any => .ok value
  | .table table => value.toRecordOf table
  | .scalar type => value.toScalarOf type

end Value

/-- The value of a domain before any is set: a null, or the reference to no record. -/
def Domain.initial : Domain → Value
  | any => .unknown
  | scalar type => .null type
  | table id => .record (.nil id)

end RecordQuery

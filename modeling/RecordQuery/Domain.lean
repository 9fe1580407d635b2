import RecordQuery.Text.Case

/-!
# Data types, identifiers and domains

A domain says which values a cell, a column or a variable accepts: anything, scalars of one data
type, or records of one table.
-/

namespace RecordQuery

/-! ## Data types -/

/-- The types of values. -/
inductive DataType where
  | null
  | boolean
  | integer
  | float
  | text
  | record
  deriving DecidableEq, Repr

namespace DataType

/-- All data types in the order of their codes. -/
def all : List DataType := [null, boolean, integer, float, text, record]

/-- The stable number of a data type. -/
def code : DataType → Nat
  | null => 0
  | boolean => 1
  | integer => 2
  | float => 3
  | text => 4
  | record => 5

/-- The data type with a code. -/
def ofCode? (code : Nat) : Option DataType := all[code]?

theorem ofCode?_code (type : DataType) : ofCode? type.code = some type := by
  cases type <;> rfl

/-- The name of a data type. -/
def name : DataType → String
  | null => "NULL"
  | boolean => "BOOLEAN"
  | integer => "INTEGER"
  | float => "FLOAT"
  | text => "TEXT"
  | record => "RECORD"

/-- Whether values of the type are numbers. -/
def isNumeric : DataType → Bool
  | integer | float => true
  | _ => false

/-- The names a data type is read from, in upper case. -/
def spellings : DataType → List String
  | null => ["NULL"]
  | boolean => ["BOOLEAN", "BOOL"]
  | integer => ["INTEGER", "INT", "INT32", "INT64", "UINT32"]
  | float => ["FLOAT", "DOUBLE"]
  | text => ["TEXT", "SHORTTEXT", "LONGTEXT", "STRING"]
  | record => ["RECORD", "REFERENCE"]

/-- The data type a name stands for, in any case. -/
def ofName? (name : String) : Option DataType :=
  all.find? fun type => type.spellings.contains (Text.upper name)

end DataType

/-! ## Identifiers -/

/-- A table of a store, numbered from 1. -/
structure TableId where
  /-- The table's number. -/
  number : Nat
  deriving DecidableEq, Repr

/-- A table number as messages show it. -/
def TableId.describe (table : TableId) : String := "#" ++ toString table.number

/-- A column of a table: a stored one, or one of the two that every record has by itself. -/
inductive ColumnId where
  /-- The stored column with an index, from 0. -/
  | stored (index : Nat)
  /-- The record's own id. -/
  | recordId
  | recordKey
  deriving DecidableEq, Repr

namespace ColumnId

/-- The number that stands for the record id column, the greatest of 32 bits. -/
def recordIdNumber : Nat := 4294967295

/-- The number that stands for the record key column. -/
def recordKeyNumber : Nat := 4294967294

/-- The number of a column. -/
def number : ColumnId → Nat
  | stored index => index
  | recordId => recordIdNumber
  | recordKey => recordKeyNumber

/-- The column with a number. -/
def ofNumber (number : Nat) : ColumnId :=
  if number = recordIdNumber then recordId
  else if number = recordKeyNumber then recordKey
  else stored number

/-- Whether the column is not a stored one. -/
def isPseudo : ColumnId → Bool
  | stored _ => false
  | _ => true

end ColumnId

/-- A reference to a record of a table.  Records are numbered from 1; number 0 is no record. -/
structure RecordRef where
  /-- The record's table. -/
  table : TableId
  /-- The record's number in its table. -/
  id : Nat
  deriving DecidableEq, Repr

namespace RecordRef

/-- The reference of a table that names no record. -/
def nil (table : TableId) : RecordRef := ⟨table, 0⟩

/-- Whether the reference names no record. -/
def isNil (record : RecordRef) : Bool := record.id == 0

/-- The greatest number a record can have. -/
def maxId : Nat := 4294967295

end RecordRef

/-! ## Domains -/

/-- The values that a cell, a column or a variable accepts. -/
inductive Domain where
  /-- Every value. -/
  | any
  /-- Scalars of one type. -/
  | scalar (type : DataType)
  /-- Records of one table. -/
  | table (table : TableId)
  deriving DecidableEq, Repr

namespace Domain

/-- The one data type of a domain, if it has one. -/
def dataType? : Domain → Option DataType
  | any => none
  | scalar type => some type
  | table _ => some .record

/-- The table of a record domain. -/
def table? : Domain → Option TableId
  | table id => some id
  | _ => none

/-- The type that a null of this domain has. -/
def nullType (domain : Domain) : DataType := domain.dataType?.getD .null

/-- A domain as messages show it. -/
def describe : Domain → String
  | any => "ANY"
  | scalar type => type.name
  | table id => "TABLE" ++ id.describe

end Domain

end RecordQuery

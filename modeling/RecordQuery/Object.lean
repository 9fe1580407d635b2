import RecordQuery.ScalarFunction.Basic

/-!
# Objects of a store

What names stand for: tables, columns of tables, and functions; and what an expression asks of the
store it reads from.
-/

namespace RecordQuery

/-- A table and its name. -/
structure TableRef where
  /-- The table. -/
  id : TableId
  name : String
  deriving DecidableEq

/-- A column of a table with its full name and the values it holds. -/
structure ColumnRef where
  table : TableId
  /-- The column of the table. -/
  id : ColumnId
  /-- The name of the table and of the column, with a dot between. -/
  name : String
  /-- The domain of its values. -/
  range : Domain
  deriving DecidableEq

/-- What a name stands for. -/
inductive ObjectRef where
  | table (table : TableRef)
  | column (column : ColumnRef)
  | function (function : ScalarFunction)

namespace ObjectRef

/-- The name of an object. -/
def name : ObjectRef → String
  | table t => t.name
  | column c => c.name
  | function f => f.name

/-- Whether two references are to one object; functions of a store differ in their names. -/
def same : ObjectRef → ObjectRef → Bool
  | table s, table t => s == t
  | column c, column d => c == d
  | function f, function g => f.name == g.name
  | _, _ => false

end ObjectRef

/-- A null that stands for a value of a column. -/
def ColumnRef.absent (column : ColumnRef) : Value := .null column.range.nullType

/-- The store that an expression reads from. -/
structure Source where
  /-- The table, column or function of a name. -/
  resolve : String → Except Status ObjectRef
  /-- The column of a table with a name. -/
  column : TableId → String → Except Status ColumnRef
  /-- The value of a column of a record. -/
  value : RecordRef → ColumnId → Except Status Value
  tableName? : TableId → Option String
  /-- The status that the store reports besides its answers. -/
  lastStatus? : Option Status

/-- The failure that the store reports besides its answers. -/
def Source.failure? (source : Source) : Option Status :=
  source.lastStatus?.filter fun status => !status.code.isSuccess

/-! ## Dumps -/

/-- A table number as dumps show it. -/
def TableId.dump (table : TableId) : String := "TableId(" ++ toString table.number ++ ")"

/-- A column number as dumps show it. -/
def ColumnId.dump (column : ColumnId) : String := "ColumnId(" ++ toString column.number ++ ")"

/-- A data type as dumps show it. -/
def DataType.dump : DataType → String
  | null => "Null"
  | boolean => "Boolean"
  | integer => "Integer"
  | float => "Float"
  | text => "Text"
  | record => "Record"

/-- A domain as dumps show it. -/
def Domain.dump : Domain → String
  | any => "Any"
  | scalar type => "Scalar(" ++ type.dump ++ ")"
  | table id => "Table(" ++ id.dump ++ ")"

/-- Named parts as dumps show them. -/
def dumpFields (name : String) (fields : List (String × String)) : String :=
  let parts := fields.map fun (field, value) => field ++ ": " ++ value
  name ++ " \x7b " ++ Text.joined ", " parts ++ " \x7d"

/-- A record as dumps show it. -/
def RecordRef.dump (record : RecordRef) : String :=
  dumpFields "RecordRef" [("table", record.table.dump), ("id", toString record.id)]

/-- How dumps show a float: positionally from `10 ^ -4` to below `10 ^ 16`, and then always with
a point. -/
def dumpFloatLayout : Decimal.Layout where
  positionalBelow := some 16
  positionalFrom := some (-4)
  pointBelow := none

/-- A value as dumps show it. -/
def Value.dump : Value → String
  | null type => "Null(" ++ type.dump ++ ")"
  | boolean b => "Boolean(" ++ (if b then "true" else "false") ++ ")"
  | integer n => "Integer(" ++ decimal n ++ ")"
  | float x => "Float(" ++ dumpFloatLayout.write x ++ ")"
  | text s => "Text(" ++ Text.quoted s ++ ")"
  | record r => "Record(" ++ r.dump ++ ")"

/-- A table as dumps show it. -/
def TableRef.dump (table : TableRef) : String :=
  dumpFields "TableRef" [("id", table.id.dump), ("name", Text.quoted table.name)]

/-- A column as dumps show it. -/
def ColumnRef.dump (column : ColumnRef) : String :=
  dumpFields "ColumnRef" [("table", column.table.dump), ("id", column.id.dump),
    ("name", Text.quoted column.name), ("range", column.range.dump)]

/-- An object as dumps show it. -/
def ObjectRef.dump : ObjectRef → String
  | table t => "Table(" ++ t.dump ++ ")"
  | column c => "Column(" ++ c.dump ++ ")"
  | function f => "Function(" ++ Text.quoted f.name ++ ")"

end RecordQuery

import RecordQuery.MemoryStore.Basic
import RecordQuery.Object

/-!
# Reading from a store in memory

What an expression can ask of a store in memory: objects by name, columns of a table, values of
records.  What does not exist is reported with a status.
-/

namespace RecordQuery.MemoryStore

/-- The status of something that does not exist. -/
private def missing {α : Type} (message : String) : Except Status α :=
  .error (.notFound message)

/-- The table with a number, or the status that there is none. -/
def findTable (store : MemoryStore) (id : TableId) : Except Status Table :=
  match store.table? id with
  | some table => .ok table
  | none => missing ("no such table: " ++ id.describe)

/-- The column of a table by its name there: a stored one, `_id`, or `_key` in a table with keys. -/
def localColumn (table : Table) (name : String) : Except Status (ColumnId × Domain) :=
  if name = "_id" then .ok (.recordId, .scalar .integer)
  else if name = "_key" then
    match table.keyType with
    | some type => .ok (.recordKey, .scalar type)
    | none => missing ("table <" ++ table.name ++ "> has no _key")
  else
    match table.columnIndex? name with
    | some index =>
      .ok (.stored index, (table.columns[index]?.map (·.range)).getD .any)
    | none => missing ("no such column: <" ++ table.name ++ "." ++ name ++ ">")

/-- The column of a table with a name. -/
def column (store : MemoryStore) (id : TableId) (name : String) : Except Status ColumnRef :=
  match store.findTable id with
  | .error status => .error status
  | .ok table =>
    (localColumn table name).map fun (column, range) =>
      ⟨id, column, table.name ++ "." ++ name, range⟩

/-- The object of a name: a column after the name of its table and a dot, a table, or a function. -/
def resolve (store : MemoryStore) (name : String) : Except Status ObjectRef :=
  match Text.splitFirst '.' name.toList with
  | some (tableName, columnName) =>
    match store.tableId? (String.ofList tableName) with
    | some id => (store.column id (String.ofList columnName)).map .column
    | none => missing ("no such table: <" ++ String.ofList tableName ++ ">")
  | none =>
    match store.tableId? name with
    | some id => .ok (.table ⟨id, name⟩)
    | none =>
      match store.functions.find? name with
      | some function => .ok (.function function)
      | none => missing ("no such object: <" ++ name ++ ">")

/-- The domain of a column of a table. -/
def rangeOf (table : Table) : ColumnId → Except Status Domain
  | .recordId => .ok (.scalar .integer)
  | .recordKey => .ok (.scalar (table.keyType.getD .null))
  | .stored index =>
    match table.columns[index]? with
    | some column => .ok column.range
    | none => missing ("no such column: " ++ toString index)

/-- The value of a column in a row. -/
def cellOf (row : Row) : ColumnId → Value
  | .stored index => row.values.getD index .unknown
  | _ => row.key

/-- The value of a column of a record.  A reference answers its own id without a look at the
record, and a reference to no record answers nulls. -/
def value (store : MemoryStore) (record : RecordRef) (column : ColumnId) :
    Except Status Value :=
  match store.findTable record.table with
  | .error status => .error status
  | .ok table =>
    if column = .recordId then .ok (.integer (Int64.ofNat record.id))
    else
      match rangeOf table column with
      | .error status => .error status
      | .ok range =>
        if record.isNil then .ok (.null range.nullType)
        else
          match (table.rowIndex? record.id).bind fun index => table.rows[index]? with
          | some row => .ok (cellOf row column)
          | none =>
            missing ("no such record: <" ++ table.name ++ ":" ++ toString record.id ++ ">")

/-- The store as expressions read it, with the status that it reports besides its answers. -/
def source (store : MemoryStore) (lastStatus : Option Status) : Source where
  resolve := store.resolve
  column := store.column
  value := store.value
  tableName? := fun id => (store.table? id).map (·.name)
  lastStatus? := lastStatus

end RecordQuery.MemoryStore

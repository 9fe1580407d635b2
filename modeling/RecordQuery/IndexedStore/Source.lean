import RecordQuery.IndexedStore.Basic
import RecordQuery.Object

/-!
# Reading from a store with name indexes

What an expression can ask of the store: objects by name, columns of a table, values of records.
What does not exist is reported with a status.
-/

namespace RecordQuery

/-- The status for a read without an answer.  No read of a store goes out of bounds
(`IndexedStore.Aligned.bounded`). -/
def Failure.toStatus : Failure Status → Status
  | reported status => status
  | outOfBounds => { code := .unknownError, message := "index out of bounds" }

namespace IndexedTable

/-- The column by its name in the table: a stored one, `_id`, or `_key` in a table with keys. -/
def localColumn (table : IndexedTable) (name : String) :
    Except (Failure Status) (ColumnId × Domain) :=
  if name = "_id" then .ok (.recordId, .scalar .integer)
  else if name = "_key" then
    match table.keyType with
    | some type => .ok (.recordKey, .scalar type)
    | none => .error (.reported (.notFound ("table <" ++ table.name ++ "> has no _key")))
  else
    match table.columnIndex.find? name with
    | none =>
      .error (.reported (.notFound ("no such column: <" ++ table.name ++ "." ++ name ++ ">")))
    | some index =>
      (elementAt table.columns index).map fun column => (.stored index, column.range)

/-- The domain of a column of the table. -/
def rangeOf (table : IndexedTable) : ColumnId → Except Status Domain
  | .recordId => .ok (.scalar .integer)
  | .recordKey => .ok (.scalar (table.keyType.getD .null))
  | .stored index =>
    match table.columns[index]? with
    | some column => .ok column.range
    | none => .error (.notFound ("no such column: " ++ toString index))

/-- What stands for a column in the vectors at a place. -/
def cellAt (table : IndexedTable) (row : Nat) : ColumnId → Except (Failure Status) Value
  | .stored index =>
    match elementAt table.rows row with
    | .error failure => .error failure
    | .ok values => elementAt values index
  | _ => elementAt table.keys row

end IndexedTable

namespace IndexedStore

/-- The table with a number, or the status that there is none. -/
def findTable (store : IndexedStore) (id : TableId) : Except Status IndexedTable :=
  match store.table? id with
  | some table => .ok table
  | none => .error (.notFound ("no such table: " ++ id.describe))

/-- The column of a table with a name. -/
def column (store : IndexedStore) (id : TableId) (name : String) :
    Except (Failure Status) ColumnRef :=
  match store.findTable id with
  | .error status => .error (.reported status)
  | .ok table =>
    (table.localColumn name).map fun (column, range) =>
      ⟨id, column, table.name ++ "." ++ name, range⟩

/-- The object of a name: a column after the name of its table and a dot, a table, or a function. -/
def resolve (store : IndexedStore) (name : String) : Except (Failure Status) ObjectRef :=
  match Text.splitFirst '.' name.toList with
  | some (tableName, columnName) =>
    match store.tableId? (String.ofList tableName) with
    | some id => (store.column id (String.ofList columnName)).map .column
    | none =>
      .error (.reported (.notFound ("no such table: <" ++ String.ofList tableName ++ ">")))
  | none =>
    match store.tableId? name with
    | some id =>
      match store.findTable id with
      | .error status => .error (.reported status)
      | .ok table => .ok (.table ⟨id, table.name⟩)
    | none =>
      match store.functions.find? name with
      | some function => .ok (.function function)
      | none => .error (.reported (.notFound ("no such object: <" ++ name ++ ">")))

/-- The value of a column of a record.  A reference answers its own id without a look at the
record, and a reference to no record answers nulls. -/
def value (store : IndexedStore) (record : RecordRef) (column : ColumnId) :
    Except (Failure Status) Value :=
  match store.findTable record.table with
  | .error status => .error (.reported status)
  | .ok table =>
    if column = .recordId then .ok (.integer (Int64.ofNat record.id))
    else
      match table.rangeOf column with
      | .error status => .error (.reported status)
      | .ok range =>
        if record.isNil then .ok (.null range.nullType)
        else
          match table.rowIndex? record.id with
          | some row => table.cellAt row column
          | none =>
            .error (.reported (.notFound
              ("no such record: <" ++ table.name ++ ":" ++ toString record.id ++ ">")))

/-- The store as expressions read it, with the status that it reports besides its answers. -/
def source (store : IndexedStore) (lastStatus : Option Status) : Source where
  resolve := fun name => (store.resolve name).mapError Failure.toStatus
  column := fun id name => (store.column id name).mapError Failure.toStatus
  value := fun record column => (store.value record column).mapError Failure.toStatus
  tableName? := fun id => (store.table? id).map (·.name)
  lastStatus? := lastStatus

end IndexedStore

end RecordQuery

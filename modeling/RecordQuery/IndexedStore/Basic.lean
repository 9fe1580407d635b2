import RecordQuery.MemoryStore.Basic
import RecordQuery.NameIndex

/-!
# A store in memory with name indexes

The store that runs.  A table keeps its values and the keys of its records in two vectors side by
side, and beside its columns an index of their names; a store keeps an index of the names of its
tables.  Every call that changes one of these has to change the other with it.

Places in vectors are taken from the indexes and not checked again.  A place beyond the end is
therefore an outcome of its own (`Failure.outOfBounds`), told apart from the errors that a call
reports.
-/

namespace RecordQuery

/-! ## Places in vectors -/

/-- Why a call has no answer. -/
inductive Failure (ε : Type) where
  /-- The call reports an error. -/
  | reported (error : ε)
  /-- The call uses a place beyond the end of a vector. -/
  | outOfBounds
  deriving DecidableEq

/-- The element at a place that was not checked. -/
def elementAt {ε α : Type} (row : List α) (index : Nat) : Except (Failure ε) α :=
  match row[index]? with
  | some element => .ok element
  | none => .error .outOfBounds

/-- The row with another element at a place that was not checked. -/
def replaceAt {ε α : Type} (row : List α) (index : Nat) (element : α) :
    Except (Failure ε) (List α) :=
  if index < row.length then .ok (row.set index element) else .error .outOfBounds

/-! ## Tables -/

/-- A table. -/
structure IndexedTable where
  name : String
  /-- The type of the keys, if records have keys. -/
  keyType : Option DataType
  /-- The columns in the order they were added. -/
  columns : List Column
  /-- The numbers of the columns by their names. -/
  columnIndex : NameIndex Nat
  /-- The values of each record, in the order of the columns. -/
  rows : List (List Value)
  /-- The key of each record; the null without a type in a table without keys. -/
  keys : List Value
  deriving DecidableEq

namespace IndexedTable

/-- The place of a record in the vectors, if there is such a record. -/
def rowIndex? (table : IndexedTable) : Nat → Option Nat
  | 0 => none
  | index + 1 => if index < table.rows.length then some index else none

/-- The table with one more column, whose value in the records there are is the one before any is
set. -/
def addColumn (table : IndexedTable) (column : Column) : IndexedTable :=
  { table with
    columns := table.columns ++ [column]
    columnIndex := table.columnIndex.insert column.name table.columns.length
    rows := table.rows.map fun row => row ++ [column.range.initial] }

/-- The table with one more record without values. -/
def addRow (table : IndexedTable) (key : Value) : IndexedTable :=
  { table with
    rows := table.rows ++ [table.columns.map fun column => column.range.initial]
    keys := table.keys ++ [key] }

/-- The table with another value in a row. -/
def setCell (table : IndexedTable) (row column : Nat) (value : Value) :
    Except (Failure Error) IndexedTable :=
  match elementAt table.rows row with
  | .error failure => .error failure
  | .ok values =>
    (replaceAt values column value).map fun changed =>
      { table with rows := table.rows.set row changed }

/-- The key that a record is added with. -/
def checkKey (table : IndexedTable) (key : Option Value) : Except Error Value :=
  match table.keyType, key with
  | some type, some key => (key.toScalarOf type).mapError CoercionFault.toError
  | some _, none => .error (.invalidArgument (.keyRequired table.name))
  | none, some _ => .error (.invalidArgument (.keyless table.name))
  | none, none => .ok .unknown

end IndexedTable

/-! ## Stores -/

/-- Tables, numbered from 1 in the order they were created, and the functions that names find. -/
structure IndexedStore where
  tables : List IndexedTable
  /-- The numbers of the tables by their names. -/
  tableIndex : NameIndex TableId
  functions : Registry

namespace IndexedStore

/-- The store without tables. -/
def empty (functions : Registry) : IndexedStore := ⟨[], .empty, functions⟩

/-- The table with a number. -/
def table? (store : IndexedStore) (id : TableId) : Option IndexedTable :=
  if id.number = 0 then none else store.tables[id.number - 1]?

/-- The number of the table with a name. -/
def tableId? (store : IndexedStore) (name : String) : Option TableId :=
  store.tableIndex.find? name

/-- The table with a number, which an argument of a caller names. -/
def requireTable (store : IndexedStore) (id : TableId) : Except Error IndexedTable :=
  match store.table? id with
  | some table => .ok table
  | none => .error (.invalidArgument (.tableNotFound id))

/-- The store with another table in place of one. -/
def setTable (store : IndexedStore) (id : TableId) (table : IndexedTable) : IndexedStore :=
  { store with tables := store.tables.set (id.number - 1) table }

/-- Adds a function. -/
def register (store : IndexedStore) (function : ScalarFunction) : IndexedStore :=
  { store with functions := store.functions.register function }

/-- Creates a table; with a key type its records have keys. -/
def createTable (store : IndexedStore) (name : String) (keyType : Option DataType) :
    Except Error (TableId × IndexedStore) :=
  if (store.tableIndex.find? name).isSome then .error (.invalidArgument (.tableExists name))
  else
    let id : TableId := ⟨store.tables.length + 1⟩
    .ok (id, { store with
      tables := store.tables ++ [⟨name, keyType, [], .empty, [], []⟩]
      tableIndex := store.tableIndex.insert name id })

/-- Adds a column to a table.  Names that start with an underscore are kept for the columns that
records have by themselves. -/
def addColumn (store : IndexedStore) (id : TableId) (name : String) (range : Domain) :
    Except Error (ColumnId × IndexedStore) :=
  if name.toList.head? = some '_' then .error (.invalidArgument (.columnReserved name))
  else
    match store.requireTable id with
    | .error error => .error error
    | .ok table =>
      if (table.columnIndex.find? name).isSome then
        .error (.invalidArgument (.columnExists name))
      else
        .ok (.stored table.columns.length, store.setTable id (table.addColumn ⟨name, range⟩))

/-- Adds a record to a table. -/
def addRecord (store : IndexedStore) (id : TableId) (key : Option Value) :
    Except Error (RecordRef × IndexedStore) :=
  match store.requireTable id with
  | .error error => .error error
  | .ok table =>
    match table.checkKey key with
    | .error error => .error error
    | .ok key =>
      let added := table.addRow key
      .ok (⟨id, added.rows.length⟩, store.setTable id added)

/-- Sets the value of a column of a record, converted into the column's domain. -/
def setValue (store : IndexedStore) (record : RecordRef) (column : String) (value : Value) :
    Except (Failure Error) IndexedStore :=
  match store.requireTable record.table with
  | .error error => .error (.reported error)
  | .ok table =>
    match table.columnIndex.find? column with
    | none => .error (.reported (.invalidArgument (.columnNotFound column)))
    | some index =>
      match elementAt table.columns index with
      | .error failure => .error failure
      | .ok found =>
        match table.rowIndex? record.id with
        | none => .error (.reported (.invalidArgument (.recordNotFound record.id)))
        | some row =>
          match value.coerce found.range with
          | .error fault => .error (.reported fault.toError)
          | .ok value => (table.setCell row index value).map (store.setTable record.table)

/-- Sets values of a record one after the other, up to the first that fails. -/
def setValues (store : IndexedStore) (record : RecordRef) :
    List (String × Value) → IndexedStore × Except (Failure Error) Unit
  | [] => (store, .ok ())
  | (column, value) :: later =>
    match store.setValue record column value with
    | .error failure => (store, .error failure)
    | .ok store => store.setValues record later

/-- Adds a record and sets its values.  A value that fails is reported, and the record stays with
the values that were set before it. -/
def insert (store : IndexedStore) (id : TableId) (key : Option Value)
    (values : List (String × Value)) : IndexedStore × Except (Failure Error) RecordRef :=
  match store.addRecord id key with
  | .error error => (store, .error (.reported error))
  | .ok (record, added) =>
    let (filled, outcome) := added.setValues record values
    (filled, outcome.map fun _ => record)

/-- The records of a table in the order they were added; none for a table that does not exist. -/
def records (store : IndexedStore) (id : TableId) : List RecordRef :=
  match store.table? id with
  | some table => (List.range table.rows.length).map fun index => ⟨id, index + 1⟩
  | none => []

end IndexedStore

end RecordQuery

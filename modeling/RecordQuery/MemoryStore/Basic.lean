import RecordQuery.ScalarFunction.Registry
import RecordQuery.Value.Cell

/-!
# A store in memory

Tables of records with typed columns.  Records of a table are numbered from 1 in the order they
were added, and tables with a key type give each record a key.

This is the plain form of a store, in which a row carries its key and names are searched for.  The
store that runs, with its vectors and name indexes, is `IndexedStore`; readers cannot tell the two
apart (`Proofs.IndexedStore.Simulation`).
-/

namespace RecordQuery

/-! ## Tables -/

/-- A column of a table. -/
structure Column where
  name : String
  /-- The domain of its values. -/
  range : Domain
  deriving DecidableEq

/-- A record: its key and its values in the order of the columns. -/
structure Row where
  /-- The key; the null without a type in a table without keys. -/
  key : Value
  values : List Value
  deriving DecidableEq

/-- A table. -/
structure Table where
  name : String
  /-- The type of the keys, if records have keys. -/
  keyType : Option DataType
  /-- The columns in the order they were added. -/
  columns : List Column
  /-- The records in the order they were added. -/
  rows : List Row
  deriving DecidableEq

namespace Table

/-- The index of a column. -/
def columnIndex? (table : Table) (name : String) : Option Nat :=
  table.columns.findIdx? fun column => column.name == name

/-- The index of the row of a record, if there is such a record. -/
def rowIndex? (table : Table) (id : Nat) : Option Nat :=
  if 0 < id ∧ id ≤ table.rows.length then some (id - 1) else none

/-- The table with one more column, whose value in the records there are is the one before any is
set. -/
def addColumn (table : Table) (column : Column) : Table :=
  { table with
    columns := table.columns ++ [column]
    rows := table.rows.map fun row => { row with values := row.values ++ [column.range.initial] } }

/-- The table with one more record without values. -/
def addRow (table : Table) (key : Value) : Table :=
  { table with
    rows := table.rows ++ [⟨key, table.columns.map fun column => column.range.initial⟩] }

/-- The table with another value in a row. -/
def setCell (table : Table) (row column : Nat) (value : Value) : Table :=
  { table with
    rows := table.rows.modify row fun r => { r with values := r.values.set column value } }

/-- The key that a record is added with. -/
def checkKey (table : Table) (key : Option Value) : Except Error Value :=
  match table.keyType, key with
  | some type, some key => (key.toScalarOf type).mapError CoercionFault.toError
  | some _, none => .error (.invalidArgument (.keyRequired table.name))
  | none, some _ => .error (.invalidArgument (.keyless table.name))
  | none, none => .ok .unknown

end Table

/-! ## Stores -/

/-- Tables, numbered from 1 in the order they were created, and the functions that names find. -/
structure MemoryStore where
  tables : List Table
  functions : Registry

namespace MemoryStore

/-- The store without tables. -/
def empty (functions : Registry) : MemoryStore := ⟨[], functions⟩

/-- The table with a number. -/
def table? (store : MemoryStore) (id : TableId) : Option Table :=
  if id.number = 0 then none else store.tables[id.number - 1]?

/-- The number of the table with a name. -/
def tableId? (store : MemoryStore) (name : String) : Option TableId :=
  (store.tables.findIdx? fun table => table.name == name).map fun index => ⟨index + 1⟩

/-- The table with a number, which an argument of a caller names. -/
def requireTable (store : MemoryStore) (id : TableId) : Except Error Table :=
  match store.table? id with
  | some table => .ok table
  | none => .error (.invalidArgument (.tableNotFound id))

/-- The store with another table in place of one. -/
def setTable (store : MemoryStore) (id : TableId) (table : Table) : MemoryStore :=
  { store with tables := store.tables.set (id.number - 1) table }

/-- Adds a function. -/
def register (store : MemoryStore) (function : ScalarFunction) : MemoryStore :=
  { store with functions := store.functions.register function }

/-- Creates a table; with a key type its records have keys. -/
def createTable (store : MemoryStore) (name : String) (keyType : Option DataType) :
    Except Error (TableId × MemoryStore) :=
  if (store.tableId? name).isSome then .error (.invalidArgument (.tableExists name))
  else
    let tables := store.tables ++ [⟨name, keyType, [], []⟩]
    .ok (⟨tables.length⟩, { store with tables := tables })

/-- Adds a column to a table.  Names that start with an underscore are kept for the columns that
records have by themselves. -/
def addColumn (store : MemoryStore) (id : TableId) (name : String) (range : Domain) :
    Except Error (ColumnId × MemoryStore) :=
  if name.toList.head? = some '_' then .error (.invalidArgument (.columnReserved name))
  else
    match store.requireTable id with
    | .error error => .error error
    | .ok table =>
      if (table.columnIndex? name).isSome then
        .error (.invalidArgument (.columnExists name))
      else
        .ok (.stored table.columns.length, store.setTable id (table.addColumn ⟨name, range⟩))

/-- Adds a record to a table. -/
def addRecord (store : MemoryStore) (id : TableId) (key : Option Value) :
    Except Error (RecordRef × MemoryStore) :=
  match store.requireTable id with
  | .error error => .error error
  | .ok table =>
    match table.checkKey key with
    | .error error => .error error
    | .ok key => .ok (⟨id, table.rows.length + 1⟩, store.setTable id (table.addRow key))

/-- Sets the value of a column of a record, converted into the column's domain. -/
def setValue (store : MemoryStore) (record : RecordRef) (column : String) (value : Value) :
    Except Error MemoryStore :=
  match store.requireTable record.table with
  | .error error => .error error
  | .ok table =>
    match table.columnIndex? column with
    | none => .error (.invalidArgument (.columnNotFound column))
    | some index =>
      match table.rowIndex? record.id with
      | none => .error (.invalidArgument (.recordNotFound record.id))
      | some row =>
        let range := (table.columns[index]?.map (·.range)).getD .any
        match value.coerce range with
        | .error fault => .error fault.toError
        | .ok value => .ok (store.setTable record.table (table.setCell row index value))

/-- Sets values of a record one after the other, up to the first that fails. -/
def setValues (store : MemoryStore) (record : RecordRef) :
    List (String × Value) → MemoryStore × Except Error Unit
  | [] => (store, .ok ())
  | (column, value) :: later =>
    match store.setValue record column value with
    | .error error => (store, .error error)
    | .ok store => store.setValues record later

/-- Adds a record and sets its values.  A value that fails is reported, and the record stays with
the values that were set before it. -/
def insert (store : MemoryStore) (id : TableId) (key : Option Value)
    (values : List (String × Value)) : MemoryStore × Except Error RecordRef :=
  match store.addRecord id key with
  | .error error => (store, .error error)
  | .ok (record, added) =>
    let (filled, outcome) := added.setValues record values
    (filled, outcome.map fun _ => record)

/-- The records of a table in the order they were added; none for a table that does not exist. -/
def records (store : MemoryStore) (id : TableId) : List RecordRef :=
  match store.table? id with
  | some table => (List.range table.rows.length).map fun index => ⟨id, index + 1⟩
  | none => []

end MemoryStore

end RecordQuery

import RecordQuery.Compile.Operand

/-!
# Compiling columns

A column is resolved as soon as the table of its record is known; its name then needs no steps.
Otherwise the program resolves it when it runs.
-/

namespace RecordQuery.Compile

/-- Refuses a domain without records. -/
def requireRecord (index : Nat) (domain : Domain) : Except Error Unit :=
  match domain.dataType? with
  | none | some .record | some .null => .ok ()
  | _ => .error (.compile index (.needsRecord domain))

/-- The column that a slot names for records of a domain, if it can be resolved before the program
runs. -/
def columnOf (source : Source) (index : Nat) (name : Slot) (domain : Domain) :
    Except Error (Option ColumnRef) :=
  match name.content with
  | .column c _ =>
    match domain with
    | .table table =>
      if table = c.table then .ok (some c)
      else .error (.compile index (.foreignColumn c.name table))
    | _ => .ok (some c)
  | .value =>
    match name.constant, domain with
    | some (.text columnName), .table table =>
      match source.column table columnName with
      | .ok column => .ok (some column)
      | .error _ => .error (.unresolvedName index columnName)
    | _, _ => .ok none
  | _ => .error (.compile index (.notAColumnName name.describe))

/-- Compiles `GET_VALUE` of a record and the name of a column. -/
def Draft.readColumn (draft : Draft) (scope : Scope) (index : Nat) (record name : Slot) :
    Except Error Draft :=
  match record.requireValue index with
  | .error error => .error error
  | .ok () =>
    match requireRecord index record.domain with
    | .error error => .error error
    | .ok () =>
      match columnOf scope.source index name record.domain with
      | .error error => .error error
      | .ok (some column) =>
        .ok (((draft.truncate name.start).emit (.getColumn column)).push
          (.ofDomain column.range record.start))
      | .ok none => .ok ((draft.emit .getValue).push (.ofDomain .any record.start))

end RecordQuery.Compile

import RecordQuery.Compile.Draft
import RecordQuery.Operation

/-!
# Compiling operands

Every operand makes a slot.  Variables and constants make a step as well, and so does a column when
variable 0 can hold a record to read it from.
-/

namespace RecordQuery.Compile

/-- What compiling depends on besides the operations. -/
structure Scope where
  /-- The store that resolves names. -/
  source : Source
  /-- The variables. -/
  vars : Variables

/-- The greatest number that a step can hold. -/
def maxCount : Nat := 65535

/-- Whether variable 0 can hold a record to read a column from. -/
def Scope.recordFits (scope : Scope) (column : ColumnRef) : Bool :=
  match scope.vars.domain? 0 with
  | some (.table table) => table == column.table
  | some .any => true
  | _ => false

/-- The domain of a constant: the domain of its cell or, if that admits everything, the one its
value shows. -/
def constantDomain (cell : Cell) : Domain :=
  match cell.domain, cell.value with
  | .any, .record r => .table r.table
  | .any, value => .scalar value.dataType
  | domain, _ => domain

/-- Pushes an object of the store. -/
def Draft.pushObject (draft : Draft) (scope : Scope) (object : ObjectRef) : Draft :=
  let start := draft.ops.size
  match object with
  | .table t => draft.push ⟨.table t, .table t.id, none, [], start⟩
  | .function f => draft.push ⟨.function f, f.range, none, [], start⟩
  | .column c =>
    if scope.recordFits c then
      ((draft.emit (.loadVariable 0)).emit (.getColumn c)).push
        ⟨.column c true, c.range, none, [], start⟩
    else draft.push ⟨.column c false, c.range, none, [], start⟩

/-- Pushes an operand. -/
def Draft.pushOperand (draft : Draft) (scope : Scope) (index : Nat) (operand : Operand) :
    Except Error Draft :=
  let start := draft.ops.size
  match operand with
  | .variableAt position =>
    match scope.vars.domain? position with
    | none => .error (.compile index (.noVariable position))
    | some domain =>
      if maxCount < position then .error (.compile index (.variableTooLarge position))
      else .ok ((draft.emit (.loadVariable position)).push (.ofDomain domain start))
  | .constant cell =>
    .ok ((draft.emit (.load cell.value)).push
      { Slot.ofDomain (constantDomain cell) start with constant := some cell.value })
  | .object object => .ok (draft.pushObject scope object)
  | .name name =>
    match scope.source.resolve name with
    | .error _ => .error (.unresolvedName index name)
    | .ok object => .ok (draft.pushObject scope object)

end RecordQuery.Compile

import RecordQuery.Program.Machine

/-!
# Slots

A slot is a place on the stack as it is known before the program runs: what it holds, what is known
of it, and where its steps begin.  Tables, functions and columns without a record have slots too,
though no step stands for them.
-/

namespace RecordQuery.Compile

/-- What a slot holds. -/
inductive Content where
  | value
  /-- A column; `materialized` says whether steps read its value. -/
  | column (column : ColumnRef) (materialized : Bool)
  | table (table : TableRef)
  | function (function : ScalarFunction)

/-- A place on the stack. -/
structure Slot where
  /-- What it holds. -/
  content : Content
  /-- The domain of its value. -/
  domain : Domain
  /-- Its value, if it is a constant. -/
  constant : Option Value
  /-- The keywords of the searches it is made of. -/
  keywords : List String
  /-- The number of steps before its own. -/
  start : Nat

namespace Slot

/-- A slot for a value that is no constant. -/
def ofDomain (domain : Domain) (start : Nat) : Slot := ⟨.value, domain, none, [], start⟩

/-- Whether the slot is a constant. -/
def isConstant (slot : Slot) : Bool := slot.constant.isSome

/-- What a slot holds as messages show it. -/
def describe (slot : Slot) : String :=
  match slot.content with
  | .value => "value"
  | .column c _ => "column " ++ c.name
  | .table t => "table " ++ t.name
  | .function f => "function " ++ f.name

/-- Refuses a slot that no step stands for where a value is due. -/
def requireValue (slot : Slot) (index : Nat) : Except Error Unit :=
  match slot.content with
  | .value | .column _ true => .ok ()
  | .column c false => .error (.compile index (.columnNeedsRecord c.name))
  | _ => .error (.compile index (.notAValue slot.describe))

/-- Refuses the first slot that no step stands for. -/
def requireValues (index : Nat) : List Slot → Except Error Unit
  | [] => .ok ()
  | slot :: later =>
    match slot.requireValue index with
    | .error error => .error error
    | .ok () => requireValues index later

end Slot

end RecordQuery.Compile

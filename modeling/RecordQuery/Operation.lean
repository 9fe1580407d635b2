import RecordQuery.Object
import RecordQuery.Value.Cell

/-!
# Operation records

An expression is written as a list of operation records in postfix order: each pushes an operand,
applies an operator to the values on top of a stack, or does both.  Nothing is checked before the
list is compiled.
-/

namespace RecordQuery

/-- What an operation pushes. -/
inductive Operand where
  /-- The variable at a position. -/
  | variableAt (position : Nat)
  /-- An object of the store. -/
  | object (object : ObjectRef)
  /-- A name that the store resolves when the list is compiled. -/
  | name (name : String)
  | constant (cell : Cell)

/-- One step of an expression. -/
structure Operation where
  operator : Operator
  /-- The number of values the operator takes. -/
  arity : Int
  /-- What is pushed first. -/
  operand : Option Operand

namespace Operand

/-- A constant of any domain. -/
def ofValue (value : Value) : Operand := constant (.free value)

/-- An operand as descriptions show it. -/
def describe : Operand → String
  | variableAt position => "$" ++ toString position
  | object o => "<" ++ o.name ++ ">"
  | name s => s
  | constant cell =>
    match cell.value with
    | .text s => Text.quoted s
    | value => value.describe

end Operand

namespace Operation

/-- The operation that pushes an operand. -/
def push (operand : Operand) : Operation := ⟨.push, 1, some operand⟩

/-- The operation that pushes a value. -/
def pushValue (value : Value) : Operation := push (.ofValue value)

/-- The operation that applies an operator. -/
def apply (operator : Operator) (arity : Int) : Operation := ⟨operator, arity, none⟩

/-- An operation as descriptions show it. -/
def describe (operation : Operation) : String :=
  let applied := operation.operator.name ++ "(" ++ toString operation.arity ++ ")"
  match operation.operand with
  | none => applied
  | some operand =>
    if operation.operator = .push then operand.describe else operand.describe ++ " " ++ applied

/-- The operations that read a column, by name, of the record below them. -/
def readColumn (name : String) : List Operation :=
  [pushValue (.text name), apply .getValue 2]

/-- The operations that follow a path of columns from the record in variable 0. -/
def readPath (path : List String) : List Operation :=
  push (.variableAt 0) :: path.flatMap readColumn

end Operation

end RecordQuery

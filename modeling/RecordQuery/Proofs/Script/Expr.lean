import RecordQuery.Operation

/-!
# Script expressions

The structure of a script, and the operations it stands for: operands first, each operator behind
them.
-/

namespace RecordQuery.Script

/-- A script. -/
inductive Expr where
  | literal (value : Value)
  /-- A column of the record in variable 0. -/
  | column (name : String)
  /-- A column of the record that an expression gives. -/
  | member (record : Expr) (name : String)
  | call (function : String) (arguments : List Expr)
  | negate (operand : Expr)
  | not (operand : Expr)
  | binary (operator : Operator) (left right : Expr)

mutual

/-- The operations of an expression. -/
def Expr.operations : Expr → List Operation
  | .literal value => [.pushValue value]
  | .column name => Operation.readPath [name]
  | .member record name => record.operations ++ Operation.readColumn name
  | .call function arguments =>
    Operation.push (.name function) ::
      (operationsOfAll arguments ++ [.apply .call arguments.length])
  | .negate operand => operand.operations ++ [.apply .negate 1]
  | .not operand => operand.operations ++ [.apply .not 1]
  | .binary operator left right =>
    left.operations ++ (right.operations ++ [.apply operator 2])

/-- The operations of several expressions in a row. -/
def operationsOfAll : List Expr → List Operation
  | [] => []
  | e :: rest => e.operations ++ operationsOfAll rest

end

end RecordQuery.Script

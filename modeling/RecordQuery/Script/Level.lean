import RecordQuery.Operator

/-!
# Levels of script operators

How tightly the operators of a script bind.
-/

namespace RecordQuery.Script

/-- How tightly an operator binds. -/
abbrev Level := Nat

namespace Level

/-- Below every operator. -/
def lowest : Level := 1

/-- The level of `-` and `!` before an operand. -/
def sign : Level := 8

/-- The level of the dot between a record and a column. -/
def dot : Level := 9

end Level

/-- The operators between two operands with their spellings and levels. -/
def binaryOperators : List (String × Level × Operator) := [
  ("||", 2, .or), ("&&", 3, .and), ("&!", 3, .andNot), ("==", 4, .equal), ("!=", 4, .notEqual),
  ("@", 4, .contains), ("@^", 4, .startsWith), ("@$", 4, .endsWith), ("@~", 4, .regexp),
  ("<", 5, .less), (">", 5, .greater), ("<=", 5, .lessEqual), (">=", 5, .greaterEqual),
  ("+", 6, .plus), ("-", 6, .minus), ("*", 7, .times), ("/", 7, .divide), ("%", 7, .modulo)]

/-- The level and the operator of a spelling between two operands. -/
def binaryOperator? (spelling : String) : Option (Level × Operator) :=
  binaryOperators.lookup spelling

/-- The level of a spelling between two operands. -/
def levelOf (spelling : String) : Level :=
  if spelling = "." then Level.dot
  else
    match binaryOperator? spelling with
    | some (level, _) => level
    | none => Level.lowest

end RecordQuery.Script

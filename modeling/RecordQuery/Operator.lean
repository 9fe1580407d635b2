import RecordQuery.Text.Case
import RecordQuery.Text.Split

/-!
# Operators

The operators of the operation records that expressions are made of, with their codes, names and
the numbers of operands they accept.
-/

namespace RecordQuery

/-- The operators that operation records apply. -/
inductive Operator where
  /-- Pushes the operand. -/
  | push
  /-- Discards the top of the stack. -/
  | pop
  /-- Reads a column, by name, of a record. -/
  | getValue
  /-- Calls the function below the arguments. -/
  | call
  /-- True when all operands are. -/
  | and
  /-- True when some operand is. -/
  | or
  /-- True when the first operand is and none of the others. -/
  | andNot
  /-- The opposite truth. -/
  | not
  /-- Case-insensitive containment. -/
  | contains
  /-- Text at the start. -/
  | startsWith
  /-- Text at the end. -/
  | endsWith
  /-- A regular expression found in the text. -/
  | regexp
  | equal
  | notEqual
  | less
  | greater
  | lessEqual
  | greaterEqual
  | plus
  | minus
  | times
  | divide
  | modulo
  /-- Unary minus. -/
  | negate
  deriving DecidableEq, Repr

namespace Operator

/-- All operators in the order of their codes. -/
def all : List Operator := [
  push, pop, getValue, call, and, or, andNot, not, contains, startsWith, endsWith, regexp, equal,
  notEqual, less, greater, lessEqual, greaterEqual, plus, minus, times, divide, modulo, negate]

/-- The stable number of an operator. -/
def code (operator : Operator) : Nat := all.idxOf operator

/-- The operator with a code. -/
def ofCode? (code : Nat) : Option Operator := all[code]?

theorem ofCode?_code (operator : Operator) : ofCode? operator.code = some operator := by
  cases operator <;> rfl

/-- The name of an operator. -/
def name : Operator → String
  | push => "PUSH"
  | pop => "POP"
  | getValue => "GET_VALUE"
  | call => "CALL"
  | and => "AND"
  | or => "OR"
  | andNot => "AND_NOT"
  | not => "NOT"
  | contains => "MATCH"
  | startsWith => "PREFIX"
  | endsWith => "SUFFIX"
  | regexp => "REGEXP"
  | equal => "EQUAL"
  | notEqual => "NOT_EQUAL"
  | less => "LESS"
  | greater => "GREATER"
  | lessEqual => "LESS_EQUAL"
  | greaterEqual => "GREATER_EQUAL"
  | plus => "PLUS"
  | minus => "MINUS"
  | times => "STAR"
  | divide => "SLASH"
  | modulo => "MOD"
  | negate => "NEGATE"

/-- Names read besides the operators' own. -/
def aliases : List (String × Operator) := [
  ("BUT", andNot), ("EQ", equal), ("==", equal), ("NE", notEqual), ("!=", notEqual)]

/-- The operator a name stands for: blanks around it and its case do not matter, and `-` counts
as `_`. -/
def ofName? (name : String) : Option Operator :=
  let trimmed := String.ofList (Text.trim name.toList)
  let key := String.ofList ((Text.upper trimmed).toList.map fun c => if c = '-' then '_' else c)
  match aliases.lookup key with
  | some operator => some operator
  | none => all.find? fun operator => operator.name == key

/-! ## Arity -/

/-- The number that stands for any number of operands. -/
def unboundedArity : Int := 2147483647

/-- The least and the greatest number of operands. -/
def arityBounds : Operator → Int × Int
  | push | pop | not | negate => (1, 1)
  | call => (0, unboundedArity)
  | and | or | andNot => (1, unboundedArity)
  | _ => (2, 2)

/-- Whether an operator takes a number of operands. -/
def acceptsArity (operator : Operator) (arity : Int) : Bool :=
  let (least, greatest) := operator.arityBounds
  least ≤ arity && (greatest = unboundedArity || arity ≤ greatest)

theorem acceptsArity_iff {operator : Operator} {arity : Int} :
    operator.acceptsArity arity = true ↔
      operator.arityBounds.1 ≤ arity ∧
        (operator.arityBounds.2 = unboundedArity ∨ arity ≤ operator.arityBounds.2) := by
  simp [acceptsArity]

/-! ## Classes of operators -/

/-- Orderings and equalities. -/
def isComparison : Operator → Bool
  | equal | notEqual | less | greater | lessEqual | greaterEqual => true
  | _ => false

/-- Operators that a query term can apply to its column. -/
def isMode : Operator → Bool
  | contains | startsWith | endsWith | regexp => true
  | operator => operator.isComparison

/-- Operators that can stand between the clauses of a query. -/
def isConnective : Operator → Bool
  | and | or | andNot => true
  | _ => false

/-- Operators whose right operand is a keyword of the search. -/
def isTextSearch : Operator → Bool
  | contains | startsWith | endsWith | equal => true
  | _ => false

/-- Binary operators on numbers. -/
def isArithmetic : Operator → Bool
  | plus | minus | times | divide | modulo => true
  | _ => false

end Operator

end RecordQuery

import RecordQuery.Object
import RecordQuery.Value.Arithmetic
import RecordQuery.Value.Search

/-!
# Steps of programs

A program is a list of steps on a stack of values.  Names are resolved and constant patterns are
read before a program runs, and every step takes and leaves a fixed number of values.
-/

namespace RecordQuery

/-! ## Operations on values -/

/-- The operations on two values. -/
inductive Binary where
  | contains
  | startsWith
  | endsWith
  | regexp
  | equal
  | notEqual
  | less
  | greater
  | lessEqual
  | greaterEqual
  | plus
  | minus
  | times
  | divide
  | modulo
  deriving DecidableEq, Repr

namespace Binary

/-- The result of an operation on two values. -/
def apply [Regexp.Matcher] : Binary → Value → Value → Except Error Value
  | contains, left, right => .ok (left.containsText right)
  | startsWith, left, right => .ok (left.testTexts Text.startsWith right)
  | endsWith, left, right => .ok (left.testTexts Text.endsWith right)
  | regexp, left, right => left.matchesPattern right
  | equal, left, right => .ok (left.testEquality true right)
  | notEqual, left, right => .ok (left.testEquality false right)
  | less, left, right => .ok (left.testOrder (· == .lt) right)
  | greater, left, right => .ok (left.testOrder (· == .gt) right)
  | lessEqual, left, right => .ok (left.testOrder (· != .gt) right)
  | greaterEqual, left, right => .ok (left.testOrder (· != .lt) right)
  | plus, left, right => left.add right
  | minus, left, right => left.arithmetic .subtract right
  | times, left, right => left.arithmetic .multiply right
  | divide, left, right => left.arithmetic .divide right
  | modulo, left, right => left.arithmetic .remainder right

end Binary

/-- The operation of an operator on two values. -/
def Operator.binary? : Operator → Option Binary
  | contains => some .contains
  | startsWith => some .startsWith
  | endsWith => some .endsWith
  | regexp => some .regexp
  | equal => some .equal
  | notEqual => some .notEqual
  | less => some .less
  | greater => some .greater
  | lessEqual => some .lessEqual
  | greaterEqual => some .greaterEqual
  | plus => some .plus
  | minus => some .minus
  | times => some .times
  | divide => some .divide
  | modulo => some .modulo
  | _ => none

/-- The operations on any number of truths. -/
inductive Connective where
  | and
  | or
  /-- The first one and none of the others. -/
  | andNot
  deriving DecidableEq, Repr

/-- The truth that a connective makes of values. -/
def Connective.holds : Connective → List Value → Bool
  | and, values => values.all Value.isTruthy
  | or, values => values.any Value.isTruthy
  | andNot, [] => false
  | andNot, first :: others => first.isTruthy && !others.any Value.isTruthy

/-- The connective of an operator. -/
def Operator.connective? : Operator → Option Connective
  | and => some .and
  | or => some .or
  | andNot => some .andNot
  | _ => none

/-! ## Steps -/

/-- A step of a program. -/
inductive Op where
  /-- Pushes a constant. -/
  | load (value : Value)
  /-- Pushes the value of a variable. -/
  | loadVariable (position : Nat)
  /-- Pushes a column of the record in a variable. -/
  | loadVariableColumn (position : Nat) (column : ColumnRef)
  /-- Replaces a record by the value of a column. -/
  | getColumn (column : ColumnRef)
  /-- Replaces a record and the name of a column by the column's value. -/
  | getValue
  /-- Discards the top. -/
  | pop
  /-- Replaces arguments by the result of a function. -/
  | call (function : ScalarFunction) (count : Nat)
  /-- Replaces values by the truth that a connective makes of them. -/
  | connect (connective : Connective) (count : Nat)
  /-- Replaces a value by the opposite truth. -/
  | not
  /-- Replaces two values by the result of an operation. -/
  | binary (operation : Binary)
  /-- Replaces a value by whether a keyword occurs in it. -/
  | containsNeedle (needle : Needle)
  /-- Replaces a value by whether it matches a regular expression. -/
  | matchesRegexp (regexp : Regexp)
  /-- Replaces a number by its negative. -/
  | negate

namespace Op

/-- The change of the stack's depth that a step makes. -/
def stackEffect : Op → Int
  | load _ | loadVariable _ | loadVariableColumn .. => 1
  | getColumn _ | not | negate | containsNeedle _ | matchesRegexp _ => 0
  | pop | getValue | binary _ => -1
  | call _ count | connect _ count => 1 - (count : Int)

/-! ## Dumps -/

/-- The name of an operation in dumps. -/
def binaryDump : Binary → String
  | .contains => "Match"
  | .startsWith => "Prefix"
  | .endsWith => "Suffix"
  | .regexp => "Regexp"
  | .equal => "Eq"
  | .notEqual => "Ne"
  | .less => "Lt"
  | .greater => "Gt"
  | .lessEqual => "Le"
  | .greaterEqual => "Ge"
  | .plus => "Add"
  | .minus => "Sub"
  | .times => "Mul"
  | .divide => "Div"
  | .modulo => "Mod"

/-- The name of a connective in dumps. -/
def connectiveDump : Connective → String
  | .and => "And"
  | .or => "Or"
  | .andNot => "AndNot"

/-- A step as dumps show it. -/
def dump : Op → String
  | load value => "LoadConst(" ++ value.dump ++ ")"
  | loadVariable position => "LoadVariable(" ++ toString position ++ ")"
  | loadVariableColumn position column =>
    "LoadVariableColumn(" ++ toString position ++ ", " ++ column.dump ++ ")"
  | getColumn column => "GetColumn(" ++ column.dump ++ ")"
  | getValue => "GetValue"
  | pop => "Pop"
  | call function count =>
    dumpFields "Call" [("function", function.dump), ("argc", toString count)]
  | connect connective count => connectiveDump connective ++ "(" ++ toString count ++ ")"
  | not => "Not"
  | binary operation => binaryDump operation
  | containsNeedle needle => "MatchConst(" ++ Text.quoted needle.text ++ ")"
  | matchesRegexp regexp => "RegexpConst(Regex(" ++ Text.quoted regexp.source ++ "))"
  | negate => "Negate"

end Op

end RecordQuery

import RecordQuery.Domain
import RecordQuery.Operator
import RecordQuery.ParseError
import RecordQuery.Status

/-!
# Failures

Every failure of the library is an `Error`: a cause with the data that shows it.  `Error.message`
words it, `Error.phase` says at which stage of work it belongs.
-/

namespace RecordQuery

/-- The stage of work a failure belongs to. -/
inductive Phase where
  | construction
  | parse
  | compile
  | runtime
  | argument
  deriving DecidableEq, Repr

/-- The words for a stage. -/
def Phase.describe : Phase → String
  | construction => "construction error"
  | parse => "parse error"
  | compile => "compile error"
  | runtime => "runtime error"
  | argument => "argument error"

/-! ## Causes -/

/-- Why a value does not fit a domain. -/
inductive CoercionFault where
  /-- An integer that numbers no record. -/
  | recordIdOutOfRange (id : Int64)
  /-- A value of another type. -/
  | mismatch (expected : Domain) (got : DataType)
  deriving DecidableEq

/-- What is wrong with a number of arguments. -/
inductive ArityFault where
  | tooFew (least : Nat) (got : Nat)
  | tooMany (most : Nat) (got : Nat)
  deriving DecidableEq

/-- What is wrong with an argument of a caller. -/
inductive ArgumentFault where
  | unknownDataType (name : String)
  | unknownOperator (name : String)
  | recordIdOutOfRange (id : Int64)
  | tableExists (name : String)
  | tableNotFound (table : TableId)
  | columnReserved (name : String)
  | columnExists (name : String)
  | columnNotFound (name : String)
  | recordNotFound (id : Nat)
  | keyRequired (table : String)
  | keyless (table : String)
  | arity (fault : ArityFault)
  /-- A built-in function called with a wrong number of arguments. -/
  | functionArity (function : String) (fault : ArityFault)
  /-- The absolute value of the least integer. -/
  | noMagnitude (n : Int64)
  /-- More arguments than variables. -/
  | tooManyArguments (given : Nat) (count : Nat)
  /-- A snippet of no characters. -/
  | snippetWidth
  /-- A snippet of no fragments. -/
  | snippetResults
  /-- A tag that is no pair of an opening and a closing text. -/
  | badTag (index : Nat) (items : Nat)
  /-- A condition on a column that its table does not have. -/
  | unknownColumn (name : String) (table : String) (reason : String)
  /-- A failure in words of its own. -/
  | stated (message : String)
  deriving DecidableEq

/-- Why operands do not suit an operation at run time. -/
inductive TypeFault where
  /-- A column read from something that is no record. -/
  | cannotRead (column : String) (type : DataType)
  /-- A column read from a record of another table. -/
  | foreignColumn (column : String) (table : TableId)
  /-- A column name that is no text. -/
  | columnNameNotText (type : DataType)
  /-- A pattern that is no regular expression. -/
  | invalidPattern
  /-- An exact result beyond 64 bits. -/
  | overflow (x : Int64) (y : Int64)
  /-- The negative of the least integer. -/
  | negationOverflow (n : Int64)
  | cannotNegate (type : DataType)
  | unsupportedOperands (left : DataType) (right : DataType)
  /-- An absolute value of something that is no number. -/
  | notANumber (type : DataType)
  /-- A result outside the domain found at compile time. -/
  | resultDoesNotFit (range : Domain) (fault : CoercionFault)
  /-- A failure in words of its own. -/
  | stated (message : String)
  deriving DecidableEq

/-- Why an evaluation cannot go on. -/
inductive EvaluationFault where
  | stackUnderflow
  /-- Fewer values on the stack than a call takes. -/
  | missingArguments (function : String) (count : Nat)
  /-- A failure in words of its own. -/
  | stated (message : String)
  deriving DecidableEq

/-- Why an operation cannot be compiled. -/
inductive CompileFault where
  | pushNeedsOperand
  | noVariable (position : Nat)
  | variableTooLarge (position : Nat)
  /-- A column without a record to read it from. -/
  | columnNeedsRecord (column : String)
  /-- A table or a function where a value is due. -/
  | notAValue (object : String)
  /-- A column read from a domain without records. -/
  | needsRecord (domain : Domain)
  | foreignColumn (column : String) (table : TableId)
  /-- A table or a function where a column name is due. -/
  | notAColumnName (object : String)
  | notCallable (object : String)
  | arity (fault : ArityFault)
  | tooManyArguments (function : String)
  | tooManyOperands (operator : Operator)
  | cannotNegate (domain : Domain)
  | invalidPattern
  | coercion (fault : CoercionFault)
  deriving DecidableEq

/-- An option of parsing. -/
inductive OptionName where
  | defaultMode
  | defaultJoin
  | defaultColumn
  deriving DecidableEq

/-- The name of an option. -/
def OptionName.name : OptionName → String
  | defaultMode => "default_mode"
  | defaultJoin => "default_join_operator"
  | defaultColumn => "default_column"

/-- What an expression was asked to do in a state that forbids it. -/
inductive Action where
  | defineVariable
  | append
  | parse
  | execute
  | extractSnippets
  deriving DecidableEq

/-- The words for an action. -/
def Action.describe : Action → String
  | defineVariable => "define a variable in"
  | append => "append to"
  | parse => "parse into"
  | execute => "execute"
  | extractSnippets => "extract snippets from"

/-- The life of an expression. -/
inductive Stage where
  | building
  | compiled
  | evaluated
  deriving DecidableEq, Repr

/-- The word for a stage. -/
def Stage.name : Stage → String
  | building => "building"
  | compiled => "compiled"
  | evaluated => "evaluated"

/-! ## Errors -/

/-- A failure. -/
inductive Error where
  | invalidState (action : Action) (stage : Stage)
  | unknownGrammar (name : String)
  | emptyTagList
  | invalidOption (option : OptionName) (value : String)
  | parse (error : ParseError)
  | emptyExpression
  | invalidArity (index : Nat) (operator : Operator) (arity : Int)
  | stackUnderflow (index : Nat) (operator : Operator) (needed : Nat) (depth : Nat)
  | unresolvedName (index : Nat) (name : String)
  | compile (index : Nat) (fault : CompileFault)
  | unbalancedStack (index : Nat) (depth : Nat)
  | divisionByZero
  | type (fault : TypeFault)
  | evaluation (fault : EvaluationFault)
  | invalidArgument (fault : ArgumentFault)
  | variableNotFound (name : String)
  | variableOutOfRange (offset : Nat) (count : Nat)
  | domainMismatch (expected : Domain) (got : DataType)
  | store (phase : Phase) (status : Status)
  deriving DecidableEq

/-- A value that does not fit a domain as an error of the caller. -/
def CoercionFault.toError : CoercionFault → Error
  | recordIdOutOfRange id => .invalidArgument (.recordIdOutOfRange id)
  | mismatch expected got => .domainMismatch expected got

/-! ## Wording -/

/-- A 64-bit integer in decimal. -/
def decimal (n : Int64) : String := toString n.toInt

private def recordIdMessage (id : Int64) : String := "record id out of range: " ++ decimal id

private def mismatchMessage (expected : Domain) (got : DataType) : String :=
  "value of type " ++ got.name ++ " does not fit domain " ++ expected.describe

private def argumentMessage (message : String) : String := "invalid argument: " ++ message

/-- The words for a value that does not fit. -/
def CoercionFault.message : CoercionFault → String
  | recordIdOutOfRange id => argumentMessage (recordIdMessage id)
  | mismatch expected got => mismatchMessage expected got

/-- The words for a wrong number of arguments. -/
def ArityFault.message : ArityFault → String
  | tooFew least got =>
    "expected at least " ++ toString least ++ " arguments, got " ++ toString got
  | tooMany most got =>
    "expected at most " ++ toString most ++ " arguments, got " ++ toString got

/-- The words for a wrong argument. -/
def ArgumentFault.message : ArgumentFault → String
  | unknownDataType name => "unknown data type: " ++ name
  | unknownOperator name => "unknown operator: " ++ name
  | recordIdOutOfRange id => recordIdMessage id
  | tableExists name => "table '" ++ name ++ "' already exists"
  | tableNotFound table => "table " ++ table.describe ++ " not found"
  | columnReserved name => "column name '" ++ name ++ "' is reserved"
  | columnExists name => "column '" ++ name ++ "' already exists"
  | columnNotFound name => "column '" ++ name ++ "' not found"
  | recordNotFound id => "record " ++ toString id ++ " not found"
  | keyRequired table => "table '" ++ table ++ "' requires a key"
  | keyless table => "table '" ++ table ++ "' has no key"
  | arity fault => fault.message
  | functionArity function fault => function ++ "(): " ++ argumentMessage fault.message
  | noMagnitude n => "abs(): " ++ decimal n ++ " has no magnitude in range"
  | tooManyArguments given count =>
    toString given ++ " argument(s) given, expression has " ++ toString count ++
      " variable(s)"
  | snippetWidth => "snippet width must be positive"
  | snippetResults => "snippet max_results must be positive"
  | badTag index items =>
    "tag #" ++ toString index ++ " must be an [open, close] pair, got " ++ toString items ++
      " item(s)"
  | unknownColumn name table reason =>
    "unknown column <" ++ Text.quoted name ++ "> for table <" ++ table ++ ">: " ++ reason
  | stated message => message

private def cannotReadMessage (column : String) (type : DataType) : String :=
  "cannot read " ++ column ++ " from " ++ type.name

private def foreignColumnMessage (column : String) (table : TableId) : String :=
  "column " ++ column ++ " does not belong to table " ++ table.describe

private def invalidPatternMessage : String := "invalid regular expression"

/-- The words for unsuitable operands. -/
def TypeFault.message : TypeFault → String
  | cannotRead column type => cannotReadMessage column type
  | foreignColumn column table => foreignColumnMessage column table
  | columnNameNotText type => "column name must be text, got " ++ type.name
  | invalidPattern => invalidPatternMessage
  | overflow x y =>
    "integer overflow in arithmetic operation: " ++ decimal x ++ " and " ++ decimal y
  | negationOverflow n => "integer overflow negating " ++ decimal n
  | cannotNegate type => "cannot negate " ++ type.name
  | unsupportedOperands left right =>
    "unsupported operand types " ++ left.name ++ " and " ++ right.name
  | notANumber type => "abs(): " ++ type.name ++ " is not a number"
  | resultDoesNotFit range fault =>
    "result does not fit " ++ range.describe ++ ": " ++ fault.message
  | stated message => message

/-- The words for a stopped evaluation. -/
def EvaluationFault.message : EvaluationFault → String
  | stackUnderflow => "stack underflow"
  | missingArguments function count =>
    function ++ " expects " ++ toString count ++ " argument(s) on the stack"
  | stated message => message

/-- The words for an operation that cannot be compiled. -/
def CompileFault.message : CompileFault → String
  | pushNeedsOperand => "PUSH requires an operand"
  | noVariable position => "no variable at position " ++ toString position
  | variableTooLarge position => "variable position " ++ toString position ++ " too large"
  | columnNeedsRecord column =>
    "column " ++ column ++ " needs a record variable of its table at position 0"
  | notAValue object => object ++ " cannot be used as a value"
  | needsRecord domain => "GET_VALUE needs a record, got " ++ domain.describe
  | foreignColumn column table => foreignColumnMessage column table
  | notAColumnName object => object ++ " is not a column name"
  | notCallable object => object ++ " is not callable"
  | arity fault => argumentMessage fault.message
  | tooManyArguments function => function ++ " has too many arguments"
  | tooManyOperands operator => operator.name ++ " has too many operands"
  | cannotNegate domain => "cannot negate " ++ domain.describe
  | invalidPattern => invalidPatternMessage
  | coercion fault => fault.message

private def atOperation (index : Nat) (message : String) : String :=
  "operation #" ++ toString index ++ ": " ++ message

namespace Error

/-- The words for a failure. -/
def message : Error → String
  | invalidState action stage =>
    "cannot " ++ action.describe ++ " expression in " ++ stage.name ++ " state"
  | unknownGrammar name =>
    "unknown grammar: <" ++ name ++ ">: available grammars: [query, column_query, script]"
  | emptyTagList => "tags must not be empty"
  | invalidOption option value => "invalid option " ++ option.name ++ ": <" ++ value ++ ">"
  | parse error => error.describe
  | emptyExpression => "cannot compile an empty expression"
  | invalidArity index operator arity =>
    atOperation index (operator.name ++ " does not accept arity " ++ toString arity)
  | stackUnderflow index operator needed depth =>
    atOperation index
      (operator.name ++ " needs " ++ toString needed ++ " operand(s), stack has " ++
        toString depth)
  | unresolvedName index name => atOperation index ("unresolved name '" ++ name ++ "'")
  | compile index fault => atOperation index fault.message
  | unbalancedStack index depth =>
    atOperation index
      ("expression leaves " ++ toString depth ++ " value(s) on the stack, expected 1")
  | divisionByZero => "division by zero"
  | type fault => "type error: " ++ fault.message
  | evaluation fault => "expression evaluation failed: " ++ fault.message
  | invalidArgument fault => argumentMessage fault.message
  | variableNotFound name => "variable '" ++ name ++ "' not found"
  | variableOutOfRange offset count =>
    "variable offset " ++ toString offset ++ " out of range (0.." ++ toString count ++ ")"
  | domainMismatch expected got => mismatchMessage expected got
  | store phase status => phase.describe ++ ": " ++ status.describe

/-- The stage of work a failure belongs to. -/
def phase : Error → Phase
  | invalidState .. | unknownGrammar _ | emptyTagList | invalidOption .. => .construction
  | parse _ => .parse
  | emptyExpression | invalidArity .. | stackUnderflow .. | unresolvedName .. | compile ..
  | unbalancedStack .. => .compile
  | divisionByZero | type _ | evaluation _ => .runtime
  | invalidArgument _ | variableNotFound _ | variableOutOfRange .. | domainMismatch .. =>
    .argument
  | store phase _ => phase

/-- The index of the operation that could not be compiled. -/
def operationIndex? : Error → Option Nat
  | invalidArity index .. | stackUnderflow index .. | unresolvedName index _ | compile index _
  | unbalancedStack index _ => some index
  | _ => none

/-- The parse error that a failure is. -/
def parseError? : Error → Option ParseError
  | parse error => some error
  | _ => none

/-- Whether something did not exist. -/
def isNotFound : Error → Bool
  | variableNotFound _ | unresolvedName .. => true
  | store _ status => status.code == .noSuchObject
  | _ => false

end Error

end RecordQuery

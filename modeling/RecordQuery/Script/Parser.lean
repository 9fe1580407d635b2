import RecordQuery.Operation
import RecordQuery.Script.Level
import RecordQuery.Script.Lexer

/-!
# Reading a script

Operators of higher levels bind tighter, those of one level group to the left, and the signs `-`
and `!` take the tightest operand that follows them.  The first token out of place is reported.

The readers write operations as they go, behind those that are written already: operands where they
stand, and each operator when its last operand is read.
-/

namespace RecordQuery.Script

open Text (Position)

/-- What a reader answers: all operations that are written so far, and the tokens behind. -/
abbrev Emission := Except ParseError (Array Operation × List Token)

/-- A failure that a token shows. -/
def failAt (token : Token) (fault : ParseFault) : ParseError :=
  { fault := fault, position := token.position, fragment := token.spelling }

/-- The failure of a token out of place. -/
def unexpected (token : Token) : ParseError :=
  match token.kind with
  | .bad fault => failAt token (.badToken fault)
  | .finish => failAt token .unexpectedEnd
  | _ => failAt token (.unexpectedToken token.spelling)

/-- The failure of a script whose tokens do not end with the one that marks the end. -/
def unfinished : ParseError := { fault := .unexpectedEnd, position := .start }

/-- The tokens behind a closing mark. -/
def closing (mark : String) : List Token → Except ParseError (List Token)
  | [] => .error unfinished
  | token :: rest =>
    if token.isMark mark then .ok rest
    else if token.isFinish then
      .error { fault := .markMissing mark, position := token.position }
    else .error (failAt token (.markExpected mark token.spelling))

/-- The value of a keyword. -/
def keywordValue (spelling : String) : Value :=
  if spelling = "true" then .boolean true
  else if spelling = "false" then .boolean false
  else .unknown

/-- The level at which a token continues an expression. -/
def Token.level (token : Token) : Level :=
  match token.kind with
  | .operator => levelOf token.spelling
  | .punctuator => if token.spelling = "." then Level.dot else Level.lowest
  | _ => Level.lowest

/-- Whether the next token is a certain punctuator. -/
def startsWithMark (mark : String) : List Token → Bool
  | token :: _ => token.isMark mark
  | [] => false

mutual

/-- Writes an expression whose operators bind tighter than a level.  The first argument bounds the
depth of the reading. -/
def emitExpr (record : Bool) : Nat → Level → Array Operation → List Token → Emission
  | 0, _, _, _ => .error unfinished
  | fuel + 1, level, ops, tokens =>
    match emitOperand record fuel ops tokens with
    | .error error => .error error
    | .ok (ops, rest) => emitOperators record fuel level ops rest

/-- Writes an operand: a literal, a column, a call, a sign with its operand, or a group. -/
def emitOperand (record : Bool) : Nat → Array Operation → List Token → Emission
  | 0, _, _ => .error unfinished
  | _ + 1, _, [] => .error unfinished
  | fuel + 1, ops, token :: rest =>
    match token.kind with
    | .integer =>
      match Decimal.readInt64 token.spelling.toList with
      | some n => .ok (ops.push (.pushValue (.integer n)), rest)
      | none => .error (failAt token .integerOutOfRange)
    | .float =>
      match Decimal.readFloat token.spelling.toList with
      | some x => .ok (ops.push (.pushValue (.float x)), rest)
      | none => .error (failAt token .invalidFloat)
    | .string => .ok (ops.push (.pushValue (.text token.spelling)), rest)
    | .keyword => .ok (ops.push (.pushValue (keywordValue token.spelling)), rest)
    | .identifier =>
      if startsWithMark "(" rest then emitCall record fuel token.spelling ops (rest.drop 1)
      else if record then .ok (ops ++ Operation.readPath [token.spelling], rest)
      else .error (failAt token .columnNeedsRecord)
    | .operator =>
      if token.spelling = "-" then
        match emitExpr record fuel Level.sign ops rest with
        | .error error => .error error
        | .ok (ops, rest) => .ok (ops.push (.apply .negate 1), rest)
      else if token.spelling = "!" then
        match emitExpr record fuel Level.sign ops rest with
        | .error error => .error error
        | .ok (ops, rest) => .ok (ops.push (.apply .not 1), rest)
      else .error (unexpected token)
    | .punctuator =>
      if token.spelling = "(" then
        match emitExpr record fuel Level.lowest ops rest with
        | .error error => .error error
        | .ok (ops, rest) =>
          match closing ")" rest with
          | .error error => .error error
          | .ok rest => .ok (ops, rest)
      else .error (unexpected token)
    | _ => .error (unexpected token)

/-- Writes the call of a function, from behind its opening parenthesis: the function, the arguments
and how many there are. -/
def emitCall (record : Bool) : Nat → String → Array Operation → List Token → Emission
  | 0, _, _, _ => .error unfinished
  | fuel + 1, function, ops, tokens =>
    let named := ops.push (Operation.push (.name function))
    if startsWithMark ")" tokens then .ok (named.push (.apply .call 0), tokens.drop 1)
    else
      match emitArguments record fuel 0 named tokens with
      | .error error => .error error
      | .ok (count, ops, rest) => .ok (ops.push (.apply .call count), rest)

/-- Writes the arguments of a call up to its closing parenthesis, and counts them. -/
def emitArguments (record : Bool) :
    Nat → Nat → Array Operation → List Token →
      Except ParseError (Nat × Array Operation × List Token)
  | 0, _, _, _ => .error unfinished
  | fuel + 1, count, ops, tokens =>
    match emitExpr record fuel Level.lowest ops tokens with
    | .error error => .error error
    | .ok (ops, rest) =>
      if startsWithMark "," rest then emitArguments record fuel (count + 1) ops (rest.drop 1)
      else
        match closing ")" rest with
        | .error error => .error error
        | .ok rest => .ok (count + 1, ops, rest)

/-- Writes the operators behind an operand that bind tighter than a level, each behind its right
operand. -/
def emitOperators (record : Bool) : Nat → Level → Array Operation → List Token → Emission
  | 0, _, _, _ => .error unfinished
  | _ + 1, _, ops, [] => .ok (ops, [])
  | fuel + 1, level, ops, token :: rest =>
    if level < token.level then
      if token.isMark "." then
        match rest with
        | [] => .error unfinished
        | name :: rest =>
          if name.kind = .identifier then
            emitOperators record fuel level (ops ++ Operation.readColumn name.spelling) rest
          else .error (unexpected name)
      else
        match binaryOperator? token.spelling with
        | none => .error (unexpected token)
        | some (tighter, operator) =>
          match emitExpr record fuel tighter ops rest with
          | .error error => .error error
          | .ok (ops, rest) =>
            emitOperators record fuel level (ops.push (.apply operator 2)) rest
    else .ok (ops, token :: rest)

end

/-- The operations that tokens stand for, all of them up to the one that marks the end. -/
def emitTokens (record : Bool) (tokens : List Token) : Except ParseError (Array Operation) :=
  match tokens with
  | [] => .error unfinished
  | first :: _ =>
    if first.isFinish then .error { fault := .emptyScript, position := first.position }
    else
      -- Every call reads a token or hands the tokens to a call that does.
      match emitExpr record (2 * tokens.length + 2) Level.lowest #[] tokens with
      | .error error => .error error
      | .ok (ops, rest) =>
        match rest with
        | [] => .ok ops
        | token :: _ => if token.isFinish then .ok ops else .error (unexpected token)

/-- The operations of a script; `record` says whether there is a record to read columns of. -/
def emit (record : Bool) (script : String) : Except ParseError (Array Operation) :=
  emitTokens record (tokenize script)

end RecordQuery.Script

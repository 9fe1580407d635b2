import RecordQuery.Text.Position
import RecordQuery.Text.Quoted
import RecordQuery.Text.Split

/-!
# Failures of reading a query text

A parse error has a cause, the place and the fragment that show it, and, once they are known, the
whole query text and a description of the expression it was read for.
-/

namespace RecordQuery

open Text (Position)

/-- Why a piece of a script is no token. -/
inductive TokenFault where
  /-- A string without its closing quote. -/
  | unterminatedString
  /-- Operator characters that form no operator. -/
  | unknownOperator (spelling : String)
  /-- A character that starts no token. -/
  | unrecognizedCharacter (c : Char)
  deriving DecidableEq, Repr

/-- The words for a piece that is no token. -/
def TokenFault.message : TokenFault → String
  | unterminatedString => "unterminated string literal"
  | unknownOperator spelling => "unknown operator: " ++ spelling
  | unrecognizedCharacter c => "unrecognized character: " ++ Text.quotedChar c

/-- Why a text belongs to no grammar. -/
inductive ParseFault where
  /-- A script without tokens. -/
  | emptyScript
  /-- A piece of a script that is no token. -/
  | badToken (fault : TokenFault)
  /-- A script that stops where an expression has to follow. -/
  | unexpectedEnd
  /-- A token out of place. -/
  | unexpectedToken (spelling : String)
  /-- A script that stops before a closing mark. -/
  | markMissing (mark : String)
  /-- Another token where a closing mark is due. -/
  | markExpected (mark : String) (found : String)
  /-- An integer beyond 64 bits. -/
  | integerOutOfRange
  /-- A float without digits in its exponent. -/
  | invalidFloat
  /-- A column in an expression without a record variable. -/
  | columnNeedsRecord
  /-- A query for an expression without a record variable. -/
  | termsNeedRecord
  /-- A phrase without its closing quote. -/
  | unterminatedPhrase
  /-- A query without tokens. -/
  | emptyQuery
  /-- `OR` before the first clause. -/
  | orNeedsLeft
  /-- A connective or a sign before no clause. -/
  | connectiveNeedsRight (spelling : String)
  /-- A group without its closing parenthesis. -/
  | unbalancedGroup
  /-- A group without clauses. -/
  | emptyGroup
  /-- A term that names no column where there is no default one. -/
  | noColumn (keyword : String)
  /-- A column clause without a value. -/
  | missingValue (column : String)
  /-- A query that stops where a term has to follow. -/
  | termExpected
  /-- A failure in words of its own. -/
  | stated (message : String)
  deriving DecidableEq, Repr

/-- The words for a parse failure. -/
def ParseFault.message : ParseFault → String
  | emptyScript => "empty script"
  | badToken fault => fault.message
  | unexpectedEnd => "unexpected end of script"
  | unexpectedToken spelling => "unexpected '" ++ spelling ++ "'"
  | markMissing mark => "expected '" ++ mark ++ "' before end of script"
  | markExpected mark found => "expected '" ++ mark ++ "', found '" ++ found ++ "'"
  | integerOutOfRange => "integer literal out of range"
  | invalidFloat => "invalid float literal"
  | columnNeedsRecord => "column reference needs a record variable at position 0"
  | termsNeedRecord => "query terms need a record variable at position 0"
  | unterminatedPhrase => "unterminated quoted phrase"
  | emptyQuery => "empty query"
  | orNeedsLeft => "OR needs a left operand"
  | connectiveNeedsRight spelling => "'" ++ spelling ++ "' needs a right operand"
  | unbalancedGroup => "unbalanced parenthesis"
  | emptyGroup => "empty group"
  | noColumn keyword => "no column for term '" ++ keyword ++ "' and no default column"
  | missingValue column => "missing value for column '" ++ column ++ "'"
  | termExpected => "expected a query term"
  | stated message => message

/-- A failure to read a query text. -/
structure ParseError where
  /-- Why it failed. -/
  fault : ParseFault
  /-- Where it failed. -/
  position : Position
  /-- The piece of text that shows the failure, or nothing. -/
  fragment : String := ""
  /-- The whole text. -/
  query : String := ""
  /-- The expression and the options the text was read with, or nothing. -/
  context : String := ""
  deriving DecidableEq, Repr

namespace ParseError

/-- A parse error in one line. -/
def describe (error : ParseError) : String :=
  let shown := if error.fragment.isEmpty then "" else ": <" ++ error.fragment ++ ">"
  error.fault.message ++ " at " ++ error.position.describe ++ shown

/-- The line of the query that holds the error, if there is such a line. -/
def sourceLine? (error : ParseError) : Option String :=
  if error.position.line = 0 then none
  else ((Text.lines error.query.toList)[error.position.line - 1]?).map String.ofList

/-- A parse error with the line it lies in, a caret below its place, and its context. -/
def report (error : ParseError) : String :=
  let marked :=
    match error.sourceLine? with
    | none => error.describe
    | some line =>
      let indent := String.ofList (List.replicate (error.position.column - 1) ' ')
      error.describe ++ "\n" ++ line ++ "\n" ++ indent ++ "^"
  if error.context.isEmpty then marked else marked ++ "\n" ++ error.context

end ParseError

end RecordQuery

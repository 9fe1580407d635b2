import RecordQuery.ParseError
import RecordQuery.Text.Letter

/-!
# Tokens of the script grammar

A token has a kind, its spelling and its place.  Strings are spelled without their quotes and
escapes.
-/

namespace RecordQuery.Script

open Text (Position)

/-- What a token is. -/
inductive TokenKind where
  /-- A piece that is no token. -/
  | bad (fault : TokenFault)
  /-- The end of the text. -/
  | finish
  | identifier
  | keyword
  | string
  | integer
  | float
  | operator
  | punctuator
  deriving DecidableEq, Repr

/-- The name of a kind. -/
def TokenKind.name : TokenKind → String
  | bad _ => "ERROR"
  | finish => "EOF"
  | identifier => "IDENTIFIER"
  | keyword => "KEYWORD"
  | string => "STRING"
  | integer => "INTEGER"
  | float => "FLOAT"
  | operator => "OPERATOR"
  | punctuator => "PUNCTUATOR"

/-- A token. -/
structure Token where
  kind : TokenKind
  spelling : String
  /-- The place of its first character. -/
  position : Position
  deriving DecidableEq, Repr

/-- The keywords. -/
def keywords : List String := ["true", "false", "null"]

/-- The operators. -/
def operators : List String := [
  "==", "!=", "<=", ">=", "<", ">", "@^", "@$", "@~", "@", "&&", "&!", "||", "!", "+", "-", "*",
  "/", "%"]

/-- The punctuators. -/
def punctuators : List Char := [',', '(', ')', '.']

/-- The characters that operators start with. -/
def operatorChars : List Char := ['=', '!', '<', '>', '@', '&', '|', '+', '-', '*', '/', '%']

/-- Whether a word is a keyword. -/
def isKeyword (word : String) : Bool := keywords.contains word

/-- Whether a spelling is an operator. -/
def isOperator (spelling : String) : Bool := operators.contains spelling

/-- Whether a character is a punctuator. -/
def isPunctuator (c : Char) : Bool := punctuators.contains c

/-- Whether operators start with a character. -/
def isOperatorChar (c : Char) : Bool := operatorChars.contains c

/-- Whether a character can start an identifier. -/
def startsIdentifier (c : Char) : Bool := Text.isAlphabetic c || c == '_'

/-- Whether a character can continue an identifier. -/
def continuesIdentifier (c : Char) : Bool := Text.isAlphanumeric c || c == '_'

namespace Token

/-- Whether the token ends the text. -/
def isFinish (token : Token) : Bool := token.kind == .finish

/-- The fault of a piece that is no token. -/
def fault? (token : Token) : Option TokenFault :=
  match token.kind with
  | .bad fault => some fault
  | _ => none

/-- Whether the token is a certain punctuator. -/
def isMark (token : Token) (mark : String) : Bool :=
  token.kind == .punctuator && token.spelling == mark

/-- A token as messages show it. -/
def describe (token : Token) : String :=
  let place := " at " ++ token.position.describe
  match token.kind with
  | .bad fault => token.kind.name ++ ": " ++ fault.message ++ place
  | .finish => "end of input" ++ place
  | _ => token.kind.name ++ ": '" ++ token.spelling ++ "'" ++ place

end Token

end RecordQuery.Script

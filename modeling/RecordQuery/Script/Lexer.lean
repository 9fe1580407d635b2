import RecordQuery.Script.Token

/-!
# Cutting a script into tokens

The lexer reads one token after the other, skipping blanks between them, up to the token that marks
the end.  A piece that belongs to no token becomes a bad token, and reading goes on behind it.
-/

namespace RecordQuery.Script

open Text (Position)

/-- A place in a script with the text behind it. -/
structure Cursor where
  /-- The place. -/
  position : Position
  /-- The text from the place on. -/
  rest : List Char
  deriving DecidableEq

/-- The place after a character of a script; U+0000 takes no column. -/
def step (p : Position) (c : Char) : Position :=
  if c = '\x00' then { p with offset := p.offset + 1 } else p.advance c

/-- The place after a row of characters of a script. -/
def stepAll (p : Position) (text : List Char) : Position := text.foldl step p

/-! ## Lengths of tokens

Each reader answers how many characters a token takes, and its spelling where that is not those
characters. -/

/-- The number of digits that a text starts with. -/
def digitsLength (text : List Char) : Nat := (text.takeWhile Char.isDigit).length

/-- The length of a fraction: a point and at least one digit. -/
def fractionLength : List Char → Nat
  | '.' :: d :: rest => if d.isDigit then 1 + digitsLength (d :: rest) else 0
  | _ => 0

/-- The length of an exponent: its mark and a digit, or its mark, a sign and any digits. -/
def exponentLength : List Char → Nat
  | mark :: next :: rest =>
    if mark = 'e' ∨ mark = 'E' then
      if next.isDigit then 1 + digitsLength (next :: rest)
      else if next = '+' ∨ next = '-' then 2 + digitsLength rest
      else 0
    else 0
  | _ => 0

/-- The length of the number that a text starts with. -/
def numberLength (text : List Char) : Nat :=
  let whole := digitsLength text
  let fraction := fractionLength (text.drop whole)
  whole + fraction + exponentLength (text.drop (whole + fraction))

/-- Whether a number is spelled as a float. -/
def isFloatSpelling (spelling : List Char) : Bool :=
  spelling.any fun c => c == '.' || c == 'e' || c == 'E'

/-- What a character after a backslash stands for. -/
def unescape (c : Char) : Char :=
  if c = 'n' then '\n' else if c = 't' then '\t' else if c = 'r' then '\r' else c

/-- The content of a string up to its closing quote, with the number of characters taken; without
a closing quote all characters are taken and the second part is false. -/
def readString (quote : Char) : List Char → List Char × Bool × Nat
  | [] => ([], false, 0)
  | ['\\'] => ([], false, 1)
  | '\\' :: c :: rest =>
    let (content, closed, length) := readString quote rest
    (unescape c :: content, closed, length + 2)
  | c :: rest =>
    if c = quote then ([], true, 1)
    else
      let (content, closed, length) := readString quote rest
      (c :: content, closed, length + 1)

/-- The operator that a text starts with, of two characters if possible. -/
def operatorSpelling (first : Char) (rest : List Char) : List Char :=
  match rest with
  | second :: _ =>
    if isOperator (String.ofList [first, second]) then [first, second] else [first]
  | [] => [first]

/-- The kind and the spelling of the token that starts with a character, and the number of
characters it takes. -/
def readToken (c : Char) (rest : List Char) : TokenKind × List Char × Nat :=
  if c = '"' ∨ c = '\'' then
    let (content, closed, length) := readString c rest
    if closed then (.string, content, length + 1)
    else (.bad .unterminatedString, c :: content, length + 1)
  else if c.isDigit then
    let length := numberLength (c :: rest)
    let spelling := (c :: rest).take length
    (if isFloatSpelling spelling then .float else .integer, spelling, length)
  else if isPunctuator c then (.punctuator, [c], 1)
  else if isOperatorChar c then
    let spelling := operatorSpelling c rest
    let name := String.ofList spelling
    (if isOperator name then .operator else .bad (.unknownOperator name), spelling,
      spelling.length)
  else if startsIdentifier c then
    let spelling := c :: rest.takeWhile continuesIdentifier
    (if isKeyword (String.ofList spelling) then .keyword else .identifier, spelling,
      spelling.length)
  else (.bad (.unrecognizedCharacter c), [c], 1)

/-! ## Reading tokens -/

namespace Cursor

/-- The start of a script. -/
def start (text : List Char) : Cursor := ⟨.start, text⟩

/-- The cursor behind a number of characters. -/
def skip (cursor : Cursor) (count : Nat) : Cursor :=
  ⟨stepAll cursor.position (cursor.rest.take count), cursor.rest.drop count⟩

/-- The cursor behind the blanks it stands before. -/
def skipBlanks (cursor : Cursor) : Cursor :=
  cursor.skip (cursor.rest.takeWhile Text.isBlank).length

/-- The next token and the cursor behind it; at the end the token that marks it, for ever. -/
def next (cursor : Cursor) : Token × Cursor :=
  let found := cursor.skipBlanks
  match found.rest with
  | [] => (⟨.finish, "", found.position⟩, found)
  | c :: rest =>
    let (kind, spelling, length) := readToken c rest
    (⟨kind, String.ofList spelling, found.position⟩, found.skip length)

/-- The tokens from a cursor to the end, at most `fuel` before the one that marks it. -/
def tokens : Nat → Cursor → List Token
  | 0, cursor => [cursor.next.1]
  | fuel + 1, cursor =>
    let (token, later) := cursor.next
    if token.isFinish then [token] else token :: tokens fuel later

end Cursor

/-- The tokens of a script, the last of which marks the end. -/
def tokenize (script : String) : List Token :=
  (Cursor.start script.toList).tokens script.toList.length

end RecordQuery.Script

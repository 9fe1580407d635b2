import RecordQuery.ParseOptions
import RecordQuery.Query.Clause
import RecordQuery.Query.Token

/-!
# Reading a query

A query is read clause by clause.  Where a clause fails, the clauses before it stay read and the
failure is reported with the token that shows it.
-/

namespace RecordQuery.Query

open Text (Position)

/-! ## Terms -/

/-- The modes that a column clause can name, the longer spellings first. -/
def modes : List (List Char × Operator) := [
  (['<', '='], .lessEqual), (['>', '='], .greaterEqual), (['@'], .contains), (['!'], .notEqual),
  (['<'], .less), (['>'], .greater), (['^'], .startsWith), (['$'], .endsWith), (['~'], .regexp)]

/-- Whether a character can stand in the name of a column. -/
def isColumnChar (c : Char) : Bool := Text.isAlphanumeric c || c == '_'

/-- Whether a text is a path of column names. -/
def isColumnPath (path : List Char) : Bool :=
  (Text.splitAll '.' path).all fun segment => !segment.isEmpty && segment.all isColumnChar

/-- The mode that a text starts with and the text behind it; without a mode it is equality. -/
def readMode (text : List Char) : Operator × List Char :=
  match modes.find? fun mode => mode.1.isPrefixOf text with
  | some (spelling, mode) => (mode, text.drop spelling.length)
  | none => (.equal, text)

/-- A word such as `column:>=5` cut into its path, its mode and its value. -/
def columnClause? (word : List Char) : Option (List Char × Operator × List Char) :=
  match Text.splitFirst ':' word with
  | none => none
  | some (path, rest) =>
    if isColumnPath path then
      let (mode, value) := readMode rest
      some (path, mode, value)
    else none

/-- Whether a text is made of the characters of numbers. -/
def isNumberLike (text : List Char) : Bool :=
  text.all (fun c => c.isDigit || ['.', 'e', 'E', '+', '-'].contains c) && text.any Char.isDigit

/-- The value of a text without quotes: an integer, else a float, else a text. -/
def bareValue (text : List Char) : Value :=
  match Decimal.readInt64 text with
  | some n => .integer n
  | none =>
    match (if isNumberLike text then Decimal.readFloat text else none) with
    | some x => .float x
    | none => .text (String.ofList text)

/-! ## Clauses -/

/-- What the reading of a query depends on. -/
structure Setting where
  options : ParseOptions
  /-- Whether words can name columns. -/
  columnClauses : Bool
  /-- The place behind the text. -/
  finish : Position

/-- A failure that a token shows. -/
def failAt (token : Token) (fault : ParseFault) : ParseError :=
  { fault := fault, position := token.position, fragment := token.source }

/-- The term that looks for a keyword in the default column. -/
def defaultTerm (options : ParseOptions) (token : Token) (keyword : String) :
    Except ParseError Term :=
  match options.defaultColumn with
  | none => .error (failAt token (.noColumn keyword))
  | some path => .ok ⟨Text.segments path, options.defaultMode, .text keyword⟩

/-- The value of a column clause with the tokens behind it: what follows the mode or, if that is
nothing, the phrase that the word is glued to. -/
def clauseValue (token : Token) (path value : List Char) (rest : List Token) :
    Except ParseError (Value × List Token) :=
  if value.isEmpty then
    match rest with
    | ⟨.phrase phrase, _, _, true⟩ :: later => .ok (.text phrase, later)
    | _ => .error (failAt token (.missingValue (String.ofList path)))
  else .ok (bareValue value, rest)

/-- The term of a word and the tokens behind it. -/
def wordTerm (setting : Setting) (token : Token) (word : String) (rest : List Token) :
    Except ParseError (Term × List Token) :=
  match (if setting.columnClauses then columnClause? word.toList else none) with
  | some (path, mode, value) =>
    (clauseValue token path value rest).map fun (value, later) =>
      (⟨Text.segments (String.ofList path), mode, value⟩, later)
  | none => (defaultTerm setting.options token word).map fun term => (term, rest)

/-- Refuses a connective or a sign that no clause follows. -/
def expectClause (connective : Token) (rest : List Token) : Except ParseError Unit :=
  let failure := failAt connective (.connectiveNeedsRight connective.source)
  match rest with
  | [] => .error failure
  | token :: _ =>
    match token.kind with
    | .closing | .or => .error failure
    | _ => .ok ()

/-- Reads `OR`, which only a later clause can have. -/
def readOr (isFirst : Bool) : List Token → Except ParseError (Bool × List Token)
  | [] => .ok (false, [])
  | token :: rest =>
    if token.kind = .or then
      if isFirst then .error (failAt token .orNeedsLeft)
      else (expectClause token rest).map fun _ => (true, rest)
    else .ok (false, token :: rest)

/-- Reads a sign; true stands for minus. -/
def readSign : List Token → Except ParseError (Option Bool × List Token)
  | [] => .ok (none, [])
  | token :: rest =>
    if token.kind = .plus ∨ token.kind = .minus then
      (expectClause token rest).map fun _ => (some (token.kind == .minus), rest)
    else .ok (none, token :: rest)

/-- How a clause joins the ones before it, by what precedes it. -/
def linkOf (join : Operator) (isFirst afterOr : Bool) (sign : Option Bool) : Link where
  connective :=
    if isFirst then none
    else if afterOr then some .or
    else
      match sign with
      | some true => some .andNot
      | some false => some .and
      | none => some join
  negated := sign == some true && (isFirst || afterOr)

mutual

/-- The clauses up to the end of the tokens or, in a group, up to a closing parenthesis; then the
tokens from there on, or the failure of the clause behind the ones that were read.  The first number
bounds the depth of the reading. -/
def readClauses (setting : Setting) (inGroup : Bool) :
    Nat → (isFirst : Bool) → List Token → List Clause × Except ParseError (List Token)
  | 0, _, tokens => ([], .ok tokens)
  | _ + 1, _, [] => ([], .ok [])
  | fuel + 1, isFirst, token :: rest =>
    if token.kind = .closing then
      if inGroup then ([], .ok (token :: rest))
      else ([], .error (failAt token (.unexpectedToken ")")))
    else
      match readClause setting fuel isFirst (token :: rest) with
      | .error error => ([], .error error)
      | .ok (clause, rest) =>
        let (later, outcome) := readClauses setting inGroup fuel false rest
        (clause :: later, outcome)

/-- A clause with what precedes it, and the tokens behind it. -/
def readClause (setting : Setting) :
    Nat → (isFirst : Bool) → List Token → Except ParseError (Clause × List Token)
  | 0, _, _ => .error { fault := .termExpected, position := setting.finish }
  | fuel + 1, isFirst, tokens =>
    match readOr isFirst tokens with
    | .error error => .error error
    | .ok (afterOr, rest) =>
      match readSign rest with
      | .error error => .error error
      | .ok (sign, rest) =>
        readPrimary setting fuel (linkOf setting.options.defaultJoin isFirst afterOr sign) rest

/-- A term or a group, and the tokens behind it. -/
def readPrimary (setting : Setting) :
    Nat → Link → List Token → Except ParseError (Clause × List Token)
  | 0, _, _ | _, _, [] => .error { fault := .termExpected, position := setting.finish }
  | fuel + 1, link, token :: rest =>
    match token.kind with
    | .opening =>
      let (clauses, outcome) := readClauses setting true fuel true rest
      match outcome with
      | .error error => .error error
      | .ok [] => .error (failAt token .unbalancedGroup)
      | .ok (_ :: rest) =>
        if clauses.isEmpty then .error (failAt token .emptyGroup)
        else .ok (.group link clauses, rest)
    | .phrase phrase =>
      (defaultTerm setting.options token phrase).map fun term => (.term link term, rest)
    | .word word =>
      (wordTerm setting token word rest).map fun (term, rest) => (.term link term, rest)
    | .closing | .or | .plus | .minus =>
      .error (failAt token (.unexpectedToken token.source))

end

/-! ## Queries -/

/-- The clauses that were read before the end or before a failure, and the failure. -/
structure Reading where
  clauses : List Clause
  /-- The failure, if there is one. -/
  failure : Option ParseError

/-- A reading that fails before its first clause. -/
def Reading.failed (error : ParseError) : Reading := ⟨[], some error⟩

/-- Reads a query.  `record` says whether there is a record to read columns of and `columnClauses`
whether words can name columns. -/
def parse (options : ParseOptions) (columnClauses record : Bool) (query : String) : Reading :=
  if !record then .failed { fault := .termsNeedRecord, position := .start }
  else
    match tokenize query with
    | .error error => .failed error
    | .ok [] => .failed { fault := .emptyQuery, position := .start }
    | .ok tokens =>
      let setting : Setting :=
        ⟨options, columnClauses, Position.start.advanceAll query.toList⟩
      -- Every clause takes a token, and a group takes its parenthesis first.
      let (clauses, outcome) :=
        readClauses setting false (3 * tokens.length + 3) true tokens
      match outcome with
      | .error error => ⟨clauses, some error⟩
      | .ok _ => ⟨clauses, none⟩

end RecordQuery.Query

import RecordQuery.ParseError
import RecordQuery.Text.Letter

/-!
# Tokens of the query grammars

Words, quoted phrases, parentheses, the connective `OR` and signs.  A sign counts as one only where
a clause can begin; elsewhere it belongs to a word.
-/

namespace RecordQuery.Query

open Text (Position)

/-- What a token is. -/
inductive TokenKind where
  | word (word : String)
  | phrase (phrase : String)
  | opening
  | closing
  | or
  | plus
  | minus
  deriving DecidableEq, Repr

/-- A token. -/
structure Token where
  kind : TokenKind
  /-- The place of its first character. -/
  position : Position
  /-- The characters it takes. -/
  source : String
  /-- Whether no blank separates it from the token before. -/
  glued : Bool
  deriving DecidableEq, Repr

/-- Whether a character belongs to a word that has begun. -/
def isWordChar (c : Char) : Bool :=
  !Text.isBlank c && c != '(' && c != ')' && c != '"'

/-- The content of a phrase up to its closing quote and the number of characters taken, if there is
a closing quote.  Only quotes and backslashes are escaped. -/
def readPhrase : List Char → Option (List Char × Nat)
  | [] => none
  | '"' :: _ => some ([], 1)
  | '\\' :: '"' :: rest =>
    (readPhrase rest).map fun (content, length) => ('"' :: content, length + 2)
  | '\\' :: '\\' :: rest =>
    (readPhrase rest).map fun (content, length) => ('\\' :: content, length + 2)
  | c :: rest => (readPhrase rest).map fun (content, length) => (c :: content, length + 1)

/-- The kind of the token that starts with a character and the number of characters it takes; none
for a phrase without a closing quote. -/
def readToken (signAllowed : Bool) (c : Char) (rest : List Char) : Option (TokenKind × Nat) :=
  if c = '(' then some (.opening, 1)
  else if c = ')' then some (.closing, 1)
  else if c = '"' then
    (readPhrase rest).map fun (content, length) => (.phrase (String.ofList content), length + 1)
  else if c = '+' ∧ signAllowed then some (.plus, 1)
  else if c = '-' ∧ signAllowed then some (.minus, 1)
  else
    let word := (c :: rest).takeWhile isWordChar
    if word = ['O', 'R'] then some (.or, 2)
    else some (.word (String.ofList word), word.length)

/-- The tokens of a text from a place on.  `glued` says whether a token ends at that place and
`opened` whether the token before is an opening parenthesis. -/
def tokensFrom : Nat → Position → (glued opened : Bool) → List Char →
    Except ParseError (List Token)
  | 0, _, _, _, _ => .ok []
  | _ + 1, _, _, _, [] => .ok []
  | fuel + 1, position, glued, opened, c :: rest =>
    if Text.isBlank c then tokensFrom fuel (position.advance c) false opened rest
    else
      match readToken (!glued || opened) c rest with
      | none =>
        .error
          { fault := .unterminatedPhrase, position := position,
            fragment := String.ofList (c :: rest) }
      | some (kind, length) =>
        let source := (c :: rest).take length
        let later :=
          tokensFrom fuel (position.advanceAll source) true (kind == .opening)
            ((c :: rest).drop length)
        later.map fun tokens => ⟨kind, position, String.ofList source, glued⟩ :: tokens

/-- The tokens of a query. -/
def tokenize (query : String) : Except ParseError (List Token) :=
  tokensFrom query.toList.length .start false false query.toList

end RecordQuery.Query

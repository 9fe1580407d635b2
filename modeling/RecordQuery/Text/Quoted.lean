import RecordQuery.Text.VisibleTable

/-!
# Quoted text

A text or a character as a literal: between marks, with what cannot be seen written by name or by
number.
-/

namespace RecordQuery.Text

/-- Whether a character is shown as itself inside a literal. -/
def isVisible (c : Char) : Bool :=
  !unprintableRanges.contains c.toNat && !extendRanges.contains c.toNat

/-- A character written by its code point, such as `\u{200b}`. -/
def numbered (c : Char) : List Char :=
  ['\\', 'u', '{'] ++ Nat.toDigits 16 c.toNat ++ ['}']

/-- A character inside a literal that stands between `mark`s. -/
def escaped (mark : Char) (c : Char) : List Char :=
  if c = mark ∨ c = '\\' then ['\\', c]
  else if c = '\x00' then ['\\', '0']
  else if c = '\t' then ['\\', 't']
  else if c = '\r' then ['\\', 'r']
  else if c = '\n' then ['\\', 'n']
  else if isVisible c then [c]
  else numbered c

/-- The literal of a text, between `mark`s. -/
def literal (mark : Char) (text : List Char) : List Char :=
  mark :: (text.flatMap (escaped mark) ++ [mark])

/-- A text between double quotes. -/
def quoted (text : String) : String := String.ofList (literal '"' text.toList)

/-- A character between single quotes. -/
def quotedChar (c : Char) : String := String.ofList (literal '\'' [c])

end RecordQuery.Text

import RecordQuery.Regexp.Folding

/-!
# Character sets

What a class of a regular expression stands for, as an expression over ranges and named classes.
-/

namespace RecordQuery.Regexp

/-- Whether a character is a decimal digit of some script. -/
def isDecimalDigit (c : Char) : Bool :=
  if Text.isAscii c then c.isDigit else decimalRanges.contains c.toNat

/-- Whether a character belongs to words: letters, marks, decimal digits, connecting punctuation
and join controls. -/
def isWordChar (c : Char) : Bool :=
  if Text.isAscii c then c.isAlphanum || c == '_' else wordRanges.contains c.toNat

/-- A set of characters. -/
inductive CharSet where
  | nothing
  /-- The characters from the first to the last one. -/
  | range (first last : Char)
  | digit
  | blank
  | word
  | union (left right : CharSet)
  | intersection (left right : CharSet)
  | difference (left right : CharSet)
  | exclusive (left right : CharSet)
  | complement (set : CharSet)
  /-- The characters that fold like some member. -/
  | folded (set : CharSet)
  /-- The characters that are a member up to the case of ASCII letters. -/
  | asciiFolded (set : CharSet)
  deriving DecidableEq

namespace CharSet

/-- The set of one character. -/
def single (c : Char) : CharSet := range c c

/-- The set of the members of several ranges. -/
def ofRanges (ranges : List (Char × Char)) : CharSet :=
  ranges.foldl (fun set (first, last) => union set (range first last)) nothing

/-- All characters. -/
def any : CharSet := complement nothing

/-- Whether a character is a member. -/
def contains : CharSet → Char → Bool
  | nothing, _ => false
  | range first last, c => first ≤ c && c ≤ last
  | digit, c => isDecimalDigit c
  | blank, c => Text.isBlank c
  | word, c => isWordChar c
  | union left right, c => left.contains c || right.contains c
  | intersection left right, c => left.contains c && right.contains c
  | difference left right, c => left.contains c && !right.contains c
  | exclusive left right, c => left.contains c != right.contains c
  | complement set, c => !set.contains c
  | folded set, c => (caseVariants c).any set.contains
  | asciiFolded set, c => (asciiCaseVariants c).any set.contains

end CharSet

end RecordQuery.Regexp

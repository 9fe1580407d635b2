import RecordQuery.Regexp.CharSet

/-!
# Patterns of the standard notation

The structure of a regular expression: assertions about a place in the text, and patterns made of
them and of character sets.  Which of several matches a quantifier prefers does not matter here,
because the library only asks whether there is one.
-/

namespace RecordQuery.Regexp

/-- A condition on a place in the text. -/
inductive Assertion where
  | textStart
  | textEnd
  /-- After a line break or at the start; `crlf` also counts carriage returns. -/
  | lineStart (crlf : Bool)
  /-- Before a line break or at the end. -/
  | lineEnd (crlf : Bool)
  /-- Between a word character and another one. -/
  | wordBoundary (wordChars : CharSet)
  | notWordBoundary (wordChars : CharSet)
  | wordStart (wordChars : CharSet)
  | wordEnd (wordChars : CharSet)
  /-- After no word character. -/
  | wordStartHalf (wordChars : CharSet)
  /-- Before no word character. -/
  | wordEndHalf (wordChars : CharSet)
  deriving DecidableEq

/-- Whether an optional neighbour is a member of a set. -/
def isMember (set : CharSet) : Option Char → Bool
  | some c => set.contains c
  | none => false

/-- Whether an assertion holds between two neighbours, which are absent at the ends of the
text. -/
def Assertion.holds : Assertion → (before after : Option Char) → Bool
  | textStart, before, _ => before.isNone
  | textEnd, _, after => after.isNone
  | lineStart crlf, before, after =>
    before.isNone || before == some '\n' ||
      crlf && before == some '\r' && after != some '\n'
  | lineEnd crlf, before, after =>
    after.isNone || (if crlf then after == some '\r' || after == some '\n' && before != some '\r'
      else after == some '\n')
  | wordBoundary wordChars, before, after => isMember wordChars before != isMember wordChars after
  | notWordBoundary wordChars, before, after =>
    isMember wordChars before == isMember wordChars after
  | wordStart wordChars, before, after => !isMember wordChars before && isMember wordChars after
  | wordEnd wordChars, before, after => isMember wordChars before && !isMember wordChars after
  | wordStartHalf wordChars, before, _ => !isMember wordChars before
  | wordEndHalf wordChars, _, after => !isMember wordChars after

/-- What a regular expression of the standard notation stands for. -/
inductive Pattern where
  /-- The empty text. -/
  | empty
  /-- One character of a set. -/
  | one (set : CharSet)
  /-- The empty text at a place where an assertion holds. -/
  | assert (assertion : Assertion)
  | sequence (first second : Pattern)
  | choice (left right : Pattern)
  /-- A part whose match could be asked for. -/
  | capture (body : Pattern)
  /-- At least `least` and at most `most` times in a row. -/
  | repetition (body : Pattern) (least : Nat) (most : Option Nat)
  deriving DecidableEq

end RecordQuery.Regexp

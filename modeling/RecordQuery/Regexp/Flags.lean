import RecordQuery.Regexp.Pattern

/-!
# Flags

The flags in force at a place of a regular expression decide what its classes and assertions mean
and which characters of the notation are passed over.
-/

namespace RecordQuery.Regexp

/-- The flags in force at a place of the expression. -/
structure Flags where
  /-- Upper and lower case are the same. -/
  caseInsensitive : Bool := false
  /-- `^` and `$` also hold at line breaks. -/
  multiLine : Bool := false
  /-- `.` also matches a line break. -/
  dotAll : Bool := false
  /-- Blanks and comments in the expression are skipped. -/
  extended : Bool := false
  /-- Classes range over all characters rather than ASCII. -/
  unicode : Bool := true
  /-- Carriage returns belong to line breaks. -/
  crlf : Bool := false

namespace Flags

/-- Sets or clears the flag of a letter; preferring short matches changes nothing here. -/
def set (flags : Flags) (letter : Char) (on : Bool) : Option Flags :=
  match letter with
  | 'i' => some { flags with caseInsensitive := on }
  | 'm' => some { flags with multiLine := on }
  | 's' => some { flags with dotAll := on }
  | 'x' => some { flags with extended := on }
  | 'u' => some { flags with unicode := on }
  | 'R' => some { flags with crlf := on }
  | 'U' => some flags
  | _ => none

/-! ## What the notation means under the flags -/

/-- A set as the flags read it. -/
def fold (flags : Flags) (set : CharSet) : CharSet :=
  if !flags.caseInsensitive then set
  else if flags.unicode then .folded set
  else .asciiFolded set

/-- The complement of a set as the flags read it.  Case is set aside before the complement is
taken; without Unicode the complement would match parts of characters and is refused. -/
def complement? (flags : Flags) (set : CharSet) : Option CharSet :=
  if flags.unicode then some (.complement (flags.fold set)) else none

/-- The decimal digits that the flags admit. -/
def digit (flags : Flags) : CharSet := if flags.unicode then .digit else .range '0' '9'

/-- The blanks that the flags admit. -/
def blank (flags : Flags) : CharSet :=
  if flags.unicode then .blank else .ofRanges [('\t', '\r'), (' ', ' ')]

/-- The word characters that the flags admit. -/
def word (flags : Flags) : CharSet :=
  if flags.unicode then .word
  else .ofRanges [('0', '9'), ('A', 'Z'), ('_', '_'), ('a', 'z')]

/-- What `.` matches; it is refused where it would match parts of a character. -/
def dot? (flags : Flags) : Option CharSet :=
  if !flags.unicode then none
  else if flags.dotAll then some .any
  else if flags.crlf then some (.complement (.ofRanges [('\n', '\n'), ('\r', '\r')]))
  else some (.complement (.single '\n'))

/-- What `^` asserts. -/
def lineStart (flags : Flags) : Assertion :=
  if flags.multiLine then .lineStart flags.crlf else .textStart

/-- What `$` asserts. -/
def lineEnd (flags : Flags) : Assertion :=
  if flags.multiLine then .lineEnd flags.crlf else .textEnd

end Flags

/-! ## Blanks and comments in the notation -/

/-- Drops blanks and comments, which end with their line. -/
def skipExtended (inComment : Bool) : List Char → List Char
  | [] => []
  | c :: rest =>
    if inComment then skipExtended (c != '\n') rest
    else if Text.isBlank c then skipExtended false rest
    else if c = '#' then skipExtended true rest
    else c :: rest

/-- Drops what the flags skip. -/
def Flags.skip (flags : Flags) (input : List Char) : List Char :=
  if flags.extended then skipExtended false input else input

/-- The longest run of characters with a property and what follows it, where blanks and comments
between them are passed over. -/
def spanExtended (p : Char → Bool) (inComment : Bool) : List Char → List Char × List Char
  | [] => ([], [])
  | c :: rest =>
    if inComment then spanExtended p (c != '\n') rest
    else if p c then
      let (run, after) := spanExtended p false rest
      (c :: run, after)
    else if Text.isBlank c then spanExtended p false rest
    else if c = '#' then spanExtended p true rest
    else ([], c :: rest)

/-- The longest run of characters with a property and what follows it, as the flags read them. -/
def Flags.span (flags : Flags) (p : Char → Bool) (input : List Char) : List Char × List Char :=
  if flags.extended then spanExtended p false input else input.span p

end RecordQuery.Regexp

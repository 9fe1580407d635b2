import RecordQuery.Regexp.Flags

/-!
# Escapes

What a backslash and the characters after it stand for: a literal, a class or an assertion.
-/

namespace RecordQuery.Regexp

/-- What an escape stands for. -/
inductive Escape where
  | literal (c : Char)
  | charSet (set : CharSet)
  | assertion (assertion : Assertion)

/-! ## Characters by number -/

/-- The value of a hexadecimal digit. -/
def hexValue? (c : Char) : Option Nat :=
  if c.isDigit then some (c.toNat - '0'.toNat)
  else if 'a' ≤ c ∧ c ≤ 'f' then some (c.toNat - 'a'.toNat + 10)
  else if 'A' ≤ c ∧ c ≤ 'F' then some (c.toNat - 'A'.toNat + 10)
  else none

/-- The character that hexadecimal digits number. -/
def hexChar? (digits : List Char) : Option Char :=
  match digits.mapM hexValue? with
  | some (value :: values) =>
    let code := (value :: values).foldl (fun total value => total * 16 + value) 0
    if code.isValidChar then some (Char.ofNat code) else none
  | _ => none

/-- The first `count` characters that the flags do not skip. -/
def takeSkipping (flags : Flags) : Nat → List Char → Option (List Char × List Char)
  | 0, input => some ([], input)
  | count + 1, input =>
    match flags.skip input with
    | [] => none
    | c :: rest => (takeSkipping flags count rest).map fun (taken, after) => (c :: taken, after)

/-- A character by number in braces, after the opening one. -/
def readBracedHex (flags : Flags) (input : List Char) : Option (Escape × List Char) :=
  match flags.span (fun c => (hexValue? c).isSome) input with
  | (digits, '}' :: after) => (hexChar? digits).map fun c => (.literal c, after)
  | _ => none

/-- A character by a number of `count` digits. -/
def readFixedHex (flags : Flags) (count : Nat) (input : List Char) :
    Option (Char × List Char) :=
  match takeSkipping flags count input with
  | some (digits, after) => (hexChar? digits).map fun c => (c, after)
  | none => none

/-- A character by number: `count` digits, or any number of them in braces.  Two digits without
Unicode stand for a byte, which is refused when it is only a part of a character. -/
def readHex (flags : Flags) (count : Nat) (input : List Char) : Option (Escape × List Char) :=
  match flags.skip input with
  | '{' :: rest => readBracedHex flags rest
  | rest =>
    match readFixedHex flags count rest with
    | some (c, after) =>
      if count = 2 ∧ !flags.unicode ∧ !Text.isAscii c then none else some (.literal c, after)
    | none => none

/-! ## Word boundaries -/

/-- The named assertion after `\b`. -/
def boundary? (wordChars : CharSet) (name : List Char) : Option Assertion :=
  [("start", Assertion.wordStart wordChars), ("end", .wordEnd wordChars),
    ("start-half", .wordStartHalf wordChars), ("end-half", .wordEndHalf wordChars)].lookup
    (String.ofList name)

/-- Whether a character can belong to the name of an assertion. -/
def isBoundaryNameChar (c : Char) : Bool := c.isAlpha || c == '-'

/-- The assertion of `\b`, with the name in braces that may follow it; braces around anything else
are left to be read as a quantifier. -/
def readBoundary (flags : Flags) (input : List Char) : Option (Assertion × List Char) :=
  match input with
  | '{' :: rest =>
    match flags.span isBoundaryNameChar rest with
    | ([], []) => none
    | ([], _) => some (.wordBoundary flags.word, input)
    | (name, '}' :: after) => (boundary? flags.word name).map fun assertion => (assertion, after)
    | _ => none
  | _ => some (.wordBoundary flags.word, input)

/-! ## All escapes -/

/-- What follows a backslash. -/
def readEscape (flags : Flags) : List Char → Option (Escape × List Char)
  | [] => none
  | c :: rest =>
    match c with
    | 'd' => some (.charSet flags.digit, rest)
    | 'D' => if flags.unicode then some (.charSet (.complement .digit), rest) else none
    | 's' => some (.charSet flags.blank, rest)
    | 'S' => if flags.unicode then some (.charSet (.complement .blank), rest) else none
    | 'w' => some (.charSet flags.word, rest)
    | 'W' => if flags.unicode then some (.charSet (.complement .word), rest) else none
    | 'x' => readHex flags 2 rest
    | 'u' => readHex flags 4 rest
    | 'U' => readHex flags 8 rest
    | 'a' => some (.literal '\x07', rest)
    | 'f' => some (.literal '\x0c', rest)
    | 't' => some (.literal '\t', rest)
    | 'n' => some (.literal '\n', rest)
    | 'r' => some (.literal '\r', rest)
    | 'v' => some (.literal '\x0b', rest)
    | 'A' => some (.assertion .textStart, rest)
    | 'z' => some (.assertion .textEnd, rest)
    | 'b' =>
      (readBoundary flags rest).map fun (assertion, after) => (.assertion assertion, after)
    | 'B' => some (.assertion (.notWordBoundary flags.word), rest)
    | '<' => some (.assertion (.wordStart flags.word), rest)
    | '>' => some (.assertion (.wordEnd flags.word), rest)
    | _ =>
      if Text.isAscii c && !c.isAlphanum then some (.literal c, rest) else none

end RecordQuery.Regexp

import RecordQuery.Text.LetterTable

/-!
# Letters, numbers and blanks

The character classes that scanners ask for.  ASCII characters are decided without a table.
-/

namespace RecordQuery.Text

/-- Whether a character lies below code point 128. -/
def isAscii (c : Char) : Bool := c.val < 128

/-- Whether a character is alphabetic. -/
def isAlphabetic (c : Char) : Bool :=
  if isAscii c then c.isAlpha else alphabeticRanges.contains c.toNat

/-- Whether a character is a number of any kind, such as `7`, `²` or `Ⅷ`. -/
def isNumeric (c : Char) : Bool :=
  if isAscii c then c.isDigit else numericRanges.contains c.toNat

/-- Whether a character is alphabetic or a number. -/
def isAlphanumeric (c : Char) : Bool := isAlphabetic c || isNumeric c

/-- Code points with the property `White_Space`. -/
def blankRanges : Ranges := [
  (9, 13), (32, 32), (133, 133), (160, 160), (5760, 5760), (8192, 8202), (8232, 8233),
  (8239, 8239), (8287, 8287), (12288, 12288)]

/-- Whether a character is white space. -/
def isBlank (c : Char) : Bool := blankRanges.contains c.toNat

end RecordQuery.Text

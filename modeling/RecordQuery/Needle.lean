import RecordQuery.Text.Case
import RecordQuery.Text.Slice

/-!
# Keywords to search for

A needle is a keyword in lower case.  It is found in a text when it occurs in the text's lower
case.  The search compares encoded bytes, and it takes a text as it is when lower case would not
change it.
-/

namespace RecordQuery

/-- A keyword in lower case. -/
structure Needle where
  /-- The keyword. -/
  text : String
  deriving DecidableEq

namespace Needle

/-- The needle of a keyword in any case. -/
def ofKeyword (keyword : String) : Needle := ⟨Text.lower keyword⟩

/-- The bytes that encode a text. -/
def bytes (text : String) : List UInt8 := text.toUTF8.data.toList

/-- Whether a text is ASCII without capital letters. -/
def isPlain (text : String) : Bool := text.toList.all fun c => Text.isAscii c && !c.isUpper

/-- Whether the keyword occurs in a text, whatever the case of either. -/
def occursIn (needle : Needle) (text : String) : Bool :=
  Text.occursIn (bytes needle.text) (bytes (if isPlain text then text else Text.lower text))

end Needle

end RecordQuery

/-!
# Regular expressions

What texts are regular expressions and what these find is up to a matcher.  Values, programs and the
compiler ask a matcher only to read an expression and then to search texts for it.
-/

namespace RecordQuery

/-- A regular expression that has been read. -/
structure Regexp where
  /-- The text of the expression. -/
  source : String
  /-- Whether some part of a text matches. -/
  occursIn : String → Bool

/-- A notation of regular expressions. -/
class Regexp.Matcher where
  /-- The search that the text of an expression stands for, if it is one. -/
  search? : (source : String) → Option (String → Bool)

/-- The regular expression that a text stands for, if it is one. -/
def Regexp.ofText? [Regexp.Matcher] (source : String) : Option Regexp :=
  (Regexp.Matcher.search? source).map fun occursIn => ⟨source, occursIn⟩

end RecordQuery

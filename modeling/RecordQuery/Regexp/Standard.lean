import RecordQuery.Regexp.Basic
import RecordQuery.Regexp.Matching
import RecordQuery.Regexp.Reading

/-!
# The standard matcher

The matcher that runs unless another one is given.
-/

namespace RecordQuery.Regexp

/-- Expressions of the standard notation, and what their patterns find. -/
instance standard : Matcher where
  search? source := (Pattern.ofText? source).map Pattern.occursIn

end RecordQuery.Regexp

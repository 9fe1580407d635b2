import RecordQuery.Needle
import RecordQuery.Regexp.Basic
import RecordQuery.Value.Basic

/-!
# Tests on values

Comparisons and text searches of two values.  A test on a null is a null; a search in a number or a
truth value reads the text that shows it.
-/

namespace RecordQuery.Value

/-- The null that a test answers when it cannot decide. -/
def undecided : Value := null .boolean

/-- The text that a search reads. -/
def searchText? : Value → Option String
  | text s => some s
  | integer n => some (describe (integer n))
  | float x => some (describe (float x))
  | boolean b => some (describe (boolean b))
  | _ => none

/-- A test on the texts of two values. -/
def testTexts (test : String → String → Bool) (subject keyword : Value) : Value :=
  match subject.searchText?, keyword.searchText? with
  | some s, some k => boolean (test s k)
  | _, _ => undecided

/-- Whether a keyword occurs in a value, in any case. -/
def containsNeedle (subject : Value) (needle : Needle) : Value :=
  match subject.searchText? with
  | some s => boolean (needle.occursIn s)
  | none => undecided

/-- Whether the text of one value occurs in another one's, in any case. -/
def containsText (subject keyword : Value) : Value :=
  testTexts (fun s k => (Needle.ofKeyword k).occursIn s) subject keyword

/-- Whether a value matches a regular expression. -/
def matchesRegexp (subject : Value) (regexp : Regexp) : Value :=
  match subject.searchText? with
  | some s => boolean (regexp.occursIn s)
  | none => undecided

/-- Whether a value matches the regular expression in another one. -/
def matchesPattern [Regexp.Matcher] (subject pattern : Value) : Except Error Value :=
  match subject.searchText?, pattern.text? with
  | some s, some source =>
    match Regexp.ofText? source with
    | some regexp => .ok (boolean (regexp.occursIn s))
    | none => .error (.type .invalidPattern)
  | _, _ => .ok undecided

/-- Whether two values are equal, or with `wanted` false whether they differ; values that cannot be
compared differ. -/
def testEquality (wanted : Bool) (left right : Value) : Value :=
  if left.isNull || right.isNull then undecided
  else boolean ((left.compare? right == some .eq) == wanted)

/-- Whether the order of two values is an accepted one. -/
def testOrder (accepted : Ordering → Bool) (left right : Value) : Value :=
  match left.compare? right with
  | some order => boolean (accepted order)
  | none => undecided

end RecordQuery.Value

import RecordQuery.Regexp.ClassTable
import RecordQuery.Text.Letter

/-!
# Case folding

Two characters fold alike when simple case folding takes them to the same character, such as `k`,
`K` and the Kelvin sign.
-/

namespace RecordQuery.Regexp

/-- The simple case folding of a character. -/
def foldChar (c : Char) : Char :=
  if Text.isAscii c then c.toLower
  else
    match Text.mapByRuns foldRuns c.toNat with
    | some code => Char.ofNat code
    | none => c

/-- The characters beyond ASCII that fold to `folded`. -/
def foldSources (folded : Char) : List Char :=
  foldRuns.filterMap fun run =>
    let source := ((folded.toNat : Int) - run.offset).toNat
    if run.contains source && run.target source == folded.toNat then some (Char.ofNat source)
    else none

/-- All characters that fold like `c`. -/
def caseVariants (c : Char) : List Char :=
  let folded := foldChar c
  let ascii := if Text.isAscii folded then [folded.toUpper] else []
  folded :: (ascii ++ foldSources folded)

/-- The ASCII letters that differ from `c` in case at most, and `c` itself. -/
def asciiCaseVariants (c : Char) : List Char := [c, c.toLower, c.toUpper]

end RecordQuery.Regexp

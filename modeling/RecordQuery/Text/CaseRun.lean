/-!
# Runs of characters that change case together

Case mappings are mostly regular: the characters of a run all move by one offset.
-/

namespace RecordQuery.Text

/-- The code points `first`, `first + stride`, … up to `last`, each mapped `offset` further. -/
structure CaseRun where
  /-- The first code point of the run. -/
  first : Nat
  /-- The last code point of the run. -/
  last : Nat
  /-- The distance from one member to the next. -/
  stride : Nat
  /-- What is added to a member. -/
  offset : Int

/-- Whether a code point is a member of the run. -/
def CaseRun.contains (run : CaseRun) (code : Nat) : Bool :=
  run.first ≤ code && code ≤ run.last && (code - run.first) % run.stride == 0

/-- Where the run takes a member. -/
def CaseRun.target (run : CaseRun) (code : Nat) : Nat :=
  (code + run.offset).toNat

/-- The image of a code point under the first run that holds it. -/
def mapByRuns (runs : List CaseRun) (code : Nat) : Option Nat :=
  (runs.find? fun run => run.contains code).map fun run => run.target code

end RecordQuery.Text

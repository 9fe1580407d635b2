import RecordQuery.Snippet.Occurrence

/-!
# Choosing the windows of a snippet

Each occurrence proposes the window that starts at it, moved left where the text ends too soon.
Both edges of the proposed windows only move forward, so the occurrences inside a window are kept
as a queue with a counter per keyword.  Windows with more distinct keywords come first, then
earlier ones, and windows that overlap a chosen one are dropped.
-/

namespace RecordQuery.Snippet

/-- A part of a text with the number of distinct keywords inside. -/
structure Window where
  /-- The offset of its first character. -/
  start : Nat
  /-- The offset behind its last character. -/
  stop : Nat
  /-- The number of distinct keywords that occur wholly inside. -/
  score : Nat
  deriving DecidableEq, Repr

/-- Whether two windows share a character. -/
def Window.overlaps (first second : Window) : Bool :=
  first.start < second.stop && second.start < first.stop

/-- The edges of the window that an occurrence proposes in a text of `length` characters. -/
def Occurrence.bounds (width length : Nat) (occurrence : Occurrence) : Nat × Nat :=
  if width ≤ occurrence.stop - occurrence.start then (occurrence.start, occurrence.stop)
  else
    let start := min occurrence.start (length - width)
    (start, min (start + width) length)

/-! ## Counting along the text -/

/-- The occurrences inside the current window and the ones behind it. -/
structure Counter where
  /-- The occurrences inside, in order. -/
  inside : List Occurrence
  /-- The occurrences that have not been inside yet, in order. -/
  ahead : List Occurrence
  /-- How many occurrences of each keyword are inside. -/
  counts : List Nat
  /-- How many keywords have an occurrence inside. -/
  distinct : Nat

namespace Counter

/-- The counter before the first window. -/
def start (keywordCount : Nat) (occurrences : List Occurrence) : Counter :=
  ⟨[], occurrences, List.replicate keywordCount 0, 0⟩

/-- Counts an occurrence that enters. -/
def count (counter : Counter) (occurrence : Occurrence) : Counter :=
  let isNew := counter.counts.getD occurrence.keyword 0 = 0
  { counter with
    counts := counter.counts.modify occurrence.keyword (· + 1)
    distinct := if isNew then counter.distinct + 1 else counter.distinct }

/-- Stops counting an occurrence that leaves. -/
def discount (counter : Counter) (occurrence : Occurrence) : Counter :=
  let isLast := counter.counts.getD occurrence.keyword 0 = 1
  { counter with
    counts := counter.counts.modify occurrence.keyword (· - 1)
    distinct := if isLast then counter.distinct - 1 else counter.distinct }

/-- Moves the right edge: occurrences that end by `stop` enter. -/
def enter (counter : Counter) (stop : Nat) : Counter :=
  let entering := counter.ahead.takeWhile (·.stop ≤ stop)
  entering.foldl count
    { counter with
      inside := counter.inside ++ entering
      ahead := counter.ahead.dropWhile (·.stop ≤ stop) }

/-- Moves the left edge: occurrences that start before `start` leave. -/
def leave (counter : Counter) (start : Nat) : Counter :=
  (counter.inside.takeWhile (·.start < start)).foldl discount
    { counter with inside := counter.inside.dropWhile (·.start < start) }

end Counter

/-- The proposed windows in text order.  `previous` is the start of the window proposed last; an
occurrence whose window starts there too proposes nothing. -/
def candidates (width length : Nat) (counter : Counter) (previous : Option Nat) :
    List Occurrence → List Window
  | [] => []
  | occurrence :: later =>
    let (start, stop) := occurrence.bounds width length
    if previous = some start then candidates width length counter previous later
    else
      let moved := (counter.enter stop).leave start
      if moved.distinct = 0 then candidates width length moved previous later
      else ⟨start, stop, moved.distinct⟩ :: candidates width length moved (some start) later

/-! ## Choosing -/

/-- Whether a window is to be chosen no later than another one: more keywords first, then the
earlier start. -/
def Window.precedes (first second : Window) : Bool :=
  second.score < first.score ||
    first.score == second.score && first.start ≤ second.start

/-- Takes windows in order while there is room, passing over those that overlap one taken. -/
def choose (limit : Nat) (chosen : List Window) : List Window → List Window
  | [] => chosen
  | window :: later =>
    if chosen.length = limit then chosen
    else if chosen.any window.overlaps then choose limit chosen later
    else choose limit (chosen ++ [window]) later

/-- The windows of a snippet in text order. -/
def windows (width limit keywordCount length : Nat) (occurrences : List Occurrence) :
    List Window :=
  let proposed :=
    candidates width length (.start keywordCount occurrences) none occurrences
  (choose limit [] (proposed.mergeSort Window.precedes)).mergeSort
    fun first second => first.start ≤ second.start

end RecordQuery.Snippet

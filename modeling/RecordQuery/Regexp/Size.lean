import RecordQuery.Regexp.Pattern

/-!
# The size of an expression

An expression is refused when it would take too much room with all its repetitions written out.
The room is counted in bytes of a matcher that steps through the bytes of a text: a step between
two bytes takes `stepRoom`, and a branch takes a little more for each way that leaves it.  Classes
beyond ASCII count with the steps of their shared beginnings.
-/

namespace RecordQuery.Regexp

/-- The room of one step. -/
def stepRoom : Nat := 32

/-- The most room that an expression may take: ten mebibytes. -/
def maxRoom : Nat := 10 * Nat.pow 2 20

namespace CharSet

/-- Whether a set is written with ASCII characters alone. -/
def isAscii : CharSet → Bool
  | nothing => true
  | range _ last => Text.isAscii last
  | digit | blank | word | complement _ => false
  | union left right | exclusive left right => left.isAscii && right.isAscii
  | intersection left right => left.isAscii || right.isAscii
  | difference left _ => left.isAscii
  | folded set => set.isAscii && !set.contains 'k' && !set.contains 's' &&
      !set.contains 'K' && !set.contains 'S'
  | asciiFolded set => set.isAscii

/-- The room of the ways that leave a branch over the members of a set.  The named classes and their
complements count with the numbers that their tables come to; other sets are added up from their
parts. -/
def branchRoom : CharSet → Nat
  | nothing => 0
  | range first last =>
    if Text.isAscii last then 8
    else if first = last then stepRoom * last.utf8Size + 4
    else 6 * stepRoom
  | digit => 5052
  | blank => 616
  | word => 49772
  | union left right | exclusive left right => left.branchRoom + right.branchRoom
  | intersection left right => max left.branchRoom right.branchRoom
  | difference left _ => left.branchRoom
  | complement digit => 12656
  | complement blank => 1860
  | complement word => 46356
  | complement set => set.branchRoom + 936
  | folded set => if set.isAscii then 2 * set.branchRoom + 100 else 2 * set.branchRoom
  | asciiFolded set => 2 * set.branchRoom

/-- The room of one character of a set. -/
def room : CharSet → Nat
  | range first last =>
    if first = last then stepRoom * first.utf8Size else 2 * stepRoom + (range first last).branchRoom
  | folded (range first last) =>
    if first = last ∧ Text.isAscii first ∧ !first.isAlpha then stepRoom
    else 2 * stepRoom + (folded (range first last)).branchRoom
  | set => 2 * stepRoom + set.branchRoom

end CharSet

namespace Pattern

/-- Whether a pattern matches nothing but the empty text. -/
def isZeroWidth : Pattern → Bool
  | empty | assert _ => true
  | one _ => false
  | sequence first second => first.isZeroWidth && second.isZeroWidth
  | choice left right => left.isZeroWidth && right.isZeroWidth
  | capture body => body.isZeroWidth
  | repetition body _ most => body.isZeroWidth || most == some 0

/-- The room that copies of a body take: `least` of them in a row and the optional ones after
them, or a loop where there is no bound. -/
def copiesRoom (bodyRoom least : Nat) : Option Nat → Nat
  | none => max least 1 * bodyRoom + stepRoom + 8
  | some most => least * bodyRoom + (most - least) * (bodyRoom + stepRoom + 8)

/-- The room that a pattern takes.  Nothing is gained by matching the empty text more than once, so
a body without width is written out at most once. -/
def room : Pattern → Nat
  | empty | assert _ => stepRoom
  | one set => set.room
  | sequence first second => first.room + second.room
  | choice left right => left.room + right.room + 4
  | capture body => body.room + 2 * stepRoom
  | repetition body least most =>
    if most = some 0 then stepRoom
    else if body.isZeroWidth then copiesRoom body.room (min least 1) (some 1)
    else copiesRoom body.room least most

end Pattern

end RecordQuery.Regexp

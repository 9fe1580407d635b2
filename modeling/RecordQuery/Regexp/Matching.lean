import RecordQuery.Regexp.Pattern

/-!
# Searching for a regular expression

A set of places in a text is a number whose bit `i` stands for the place before character `i`.  A
pattern takes the places where it may start to the places where it may end, so the search for a
match is one pass over the pattern, however many ways of matching there are.
-/

namespace RecordQuery.Regexp

/-- The places at which a condition on the neighbours holds, from place `index` on. -/
def placesFrom (holds : Option Char → Option Char → Bool) (before : Option Char) (index : Nat) :
    List Char → Nat
  | [] => if holds before none then 1 <<< index else 0
  | c :: rest =>
    (if holds before (some c) then 1 <<< index else 0) |||
      placesFrom holds (some c) (index + 1) rest

/-- The places of a text before members of a set. -/
def CharSet.places (set : CharSet) (text : List Char) : Nat :=
  placesFrom (fun _ after => isMember set after) none 0 text

/-- The places of a text where an assertion holds. -/
def Assertion.places (assertion : Assertion) (text : List Char) : Nat :=
  placesFrom assertion.holds none 0 text

/-- The places after exactly `count` steps; a set that a step leaves as it is stays. -/
def stepTimes (step : Nat → Nat) : Nat → Nat → Nat
  | 0, places => places
  | count + 1, places =>
    let next := step places
    if next = places then places else stepTimes step count next

/-- The places after at most `count` steps. -/
def stepUpTo (step : Nat → Nat) : Nat → Nat → Nat
  | 0, places => places
  | count + 1, places =>
    let next := places ||| step places
    if next = places then places else stepUpTo step count next

/-- The places where matches end that start at one of the given places. -/
def Pattern.advance (text : List Char) : Pattern → Nat → Nat
  | empty, places => places
  | one set, places => (places &&& set.places text) <<< 1
  | assert assertion, places => places &&& assertion.places text
  | sequence first second, places => second.advance text (first.advance text places)
  | choice left right, places => left.advance text places ||| right.advance text places
  | capture body, places => body.advance text places
  | repetition body least most, places =>
    -- Beyond one more round than there are characters nothing new can be reached.
    let further :=
      match most with
      | none => text.length + 1
      | some most => most - least
    stepUpTo (body.advance text) further (stepTimes (body.advance text) least places)

/-- All places of a text. -/
def allPlaces (text : List Char) : Nat := Nat.pow 2 (text.length + 1) - 1

/-- Whether some part of a text matches. -/
def Pattern.occursIn (pattern : Pattern) (text : String) : Bool :=
  pattern.advance text.toList (allPlaces text.toList) != 0

end RecordQuery.Regexp

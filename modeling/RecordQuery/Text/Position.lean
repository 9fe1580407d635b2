/-!
# Positions in a text

A position counts characters from the start of a text and, for readers, lines and columns from 1.
-/

namespace RecordQuery.Text

/-- A place in a text. -/
structure Position where
  /-- The number of characters before it. -/
  offset : Nat
  /-- The number of its line, from 1. -/
  line : Nat
  /-- The number of its column, from 1. -/
  column : Nat
  deriving DecidableEq, Repr

namespace Position

/-- The start of every text. -/
def start : Position := ⟨0, 1, 1⟩

/-- The place after a character. -/
def advance (p : Position) (c : Char) : Position :=
  if c = '\n' then ⟨p.offset + 1, p.line + 1, 1⟩ else ⟨p.offset + 1, p.line, p.column + 1⟩

/-- The place after a row of characters. -/
def advanceAll (p : Position) (text : List Char) : Position := text.foldl advance p

/-- A position as messages name it. -/
def describe (p : Position) : String :=
  "line " ++ toString p.line ++ ", column " ++ toString p.column

@[simp] theorem offset_advance (p : Position) (c : Char) :
    (p.advance c).offset = p.offset + 1 := by
  unfold advance; split <;> rfl

@[simp] theorem advanceAll_nil (p : Position) : p.advanceAll [] = p := rfl

@[simp] theorem advanceAll_cons (p : Position) (c : Char) (text : List Char) :
    p.advanceAll (c :: text) = (p.advance c).advanceAll text := rfl

theorem advanceAll_append (p : Position) (first second : List Char) :
    p.advanceAll (first ++ second) = (p.advanceAll first).advanceAll second := by
  simp [advanceAll]

end Position

end RecordQuery.Text

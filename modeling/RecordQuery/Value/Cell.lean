import RecordQuery.Value.Basic

/-!
# Cells

A cell holds a value of a fixed domain.  Whatever is set is converted into the domain first; what
does not fit leaves the cell as it was.
-/

namespace RecordQuery

/-- A value and the domain it belongs to. -/
structure Cell where
  value : Value
  /-- The values that the cell accepts. -/
  domain : Domain
  deriving DecidableEq

namespace Cell

/-- A cell before any value is set. -/
def empty (domain : Domain) : Cell := ⟨domain.initial, domain⟩

/-- A cell that holds a value, if it fits. -/
def holding (domain : Domain) (value : Value) : Except CoercionFault Cell :=
  (value.coerce domain).map fun fitted => ⟨fitted, domain⟩

/-- A cell of the domain of all values. -/
def free (value : Value) : Cell := ⟨value, .any⟩

/-- The cell with another value, if it fits. -/
def set (cell : Cell) (value : Value) : Except CoercionFault Cell := holding cell.domain value

/-- The cell before any value is set. -/
def clear (cell : Cell) : Cell := empty cell.domain

/-- Whether the cell holds the value that it has before any is set. -/
def isInitial (cell : Cell) : Bool := cell.value.equals cell.domain.initial

end Cell

end RecordQuery

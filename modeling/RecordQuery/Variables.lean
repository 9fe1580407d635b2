import RecordQuery.NameIndex
import RecordQuery.Value.Cell

/-!
# Variables

The variables of an expression, numbered from 0 in the order they are defined.  A name may be
defined again; it then stands for the latest variable of that name, which an index finds.
-/

namespace RecordQuery

/-- A variable: an optional name, its position and the cell of its value. -/
structure Variable where
  name : Option String
  /-- The number of variables that were defined before it. -/
  position : Nat
  /-- The value and its domain. -/
  cell : Cell
  deriving DecidableEq

/-! ## The index of names -/

/-- The index with the name of a variable entered, if it has one. -/
def NameIndex.enter (index : NameIndex Nat) (name : Option String) (position : Nat) :
    NameIndex Nat :=
  match name with
  | some name => index.insert name position
  | none => index

/-- The index of variables in the order they are defined. -/
def nameIndex (entries : List Variable) : NameIndex Nat :=
  entries.foldl (fun index v => index.enter v.name v.position) .empty

theorem nameIndex_append (entries : List Variable) (v : Variable) :
    nameIndex (entries ++ [v]) = (nameIndex entries).enter v.name v.position := by
  simp [nameIndex]

/-- The index is one of names and positions alone. -/
theorem nameIndex_congr {entries others : List Variable}
    (h : entries.map (fun v => (v.name, v.position)) =
      others.map fun v => (v.name, v.position)) : nameIndex entries = nameIndex others := by
  have hpairs (row : List Variable) :
      nameIndex row = (row.map fun v => (v.name, v.position)).foldl
        (fun index entry => index.enter entry.1 entry.2) .empty := by
    rw [List.foldl_map]
    rfl
  rw [hpairs, hpairs, h]

/-! ## Variables -/

/-- The variables of an expression in the order they were defined. -/
structure Variables where
  /-- The variables. -/
  entries : Array Variable
  /-- The position that each name stands for. -/
  byName : NameIndex Nat
  /-- Positions are without gaps. -/
  dense : ∀ (position : Nat) (v : Variable), entries[position]? = some v → v.position = position
  /-- The index is that of the variables. -/
  indexed : byName = nameIndex entries.toList
  deriving DecidableEq

namespace Variables

/-- No variables. -/
def empty : Variables := ⟨#[], .empty, by simp, rfl⟩

/-- The number of variables. -/
def size (vars : Variables) : Nat := vars.entries.size

/-- The variable at a position. -/
def get? (vars : Variables) (position : Nat) : Option Variable := vars.entries[position]?

/-- The variables with one more, whose position is the former number of variables. -/
def define (vars : Variables) (name : Option String) (domain : Domain) : Variables where
  entries := vars.entries.push ⟨name, vars.size, .empty domain⟩
  byName := vars.byName.enter name vars.size
  dense position v hv := by
    rw [Array.getElem?_push] at hv
    split at hv
    · rename_i hposition
      rw [← Option.some.inj hv, hposition]
      rfl
    · exact vars.dense position v hv
  indexed := by rw [Array.toList_push, nameIndex_append, vars.indexed]

/-- The position of the latest variable of a name. -/
def lookup (vars : Variables) (name : String) : Except Error Nat :=
  match vars.byName.find? name with
  | some position => .ok position
  | none => .error (.variableNotFound name)

/-- The variable at a position, or the failure that there is none. -/
def get (vars : Variables) (position : Nat) : Except Error Variable :=
  match vars.get? position with
  | some v => .ok v
  | none => .error (.variableOutOfRange position vars.size)

/-- The value of the variable at a position. -/
def value? (vars : Variables) (position : Nat) : Option Value :=
  (vars.get? position).map (·.cell.value)

/-- The domain of the variable at a position. -/
def domain? (vars : Variables) (position : Nat) : Option Domain :=
  (vars.get? position).map (·.cell.domain)

/-- The variables with another cell in the variable at a position. -/
def setCell (vars : Variables) (position : Nat) (cell : Cell) : Variables where
  entries := vars.entries.modify position fun v => { v with cell := cell }
  byName := vars.byName
  dense other v hv := by
    rw [Array.getElem?_modify] at hv
    split at hv
    · obtain ⟨before, hbefore, rfl⟩ := Option.map_eq_some_iff.mp hv
      exact vars.dense other before hbefore
    · exact vars.dense other v hv
  indexed := by
    rw [vars.indexed]
    refine nameIndex_congr (List.ext_getElem? fun other => ?_)
    simp only [List.getElem?_map, Array.getElem?_toList, Array.getElem?_modify]
    split
    · rw [Option.map_map]
      rfl
    · rfl

/-- Sets the value of the variable at a position, converted into its domain. -/
def bind (vars : Variables) (position : Nat) (value : Value) : Except Error Variables :=
  match vars.get? position with
  | none => .error (.variableOutOfRange position vars.size)
  | some v =>
    match v.cell.set value with
    | .error fault => .error fault.toError
    | .ok cell => .ok (vars.setCell position cell)

end Variables

end RecordQuery

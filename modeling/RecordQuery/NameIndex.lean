/-!
# Name indexes

A map from names, which tables and stores keep beside the rows that it points into.  Entering a name
again hides its earlier entry.
-/

namespace RecordQuery

/-- A map from names. -/
structure NameIndex (α : Type) where
  /-- The entries, the newest first. -/
  entries : List (String × α)
  deriving DecidableEq

namespace NameIndex

variable {α : Type}

/-- The map of no names. -/
def empty : NameIndex α := ⟨[]⟩

/-- What a name finds. -/
def find? (index : NameIndex α) (name : String) : Option α := index.entries.lookup name

/-- Enters a name, in place of an earlier entry of it. -/
def insert (index : NameIndex α) (name : String) (value : α) : NameIndex α :=
  ⟨(name, value) :: index.entries⟩

@[simp] theorem find?_empty (name : String) : (empty : NameIndex α).find? name = none := rfl

theorem find?_insert (index : NameIndex α) (name : String) (value : α) (other : String) :
    (index.insert name value).find? other =
      if other = name then some value else index.find? other := by
  by_cases hname : other = name
  · rw [if_pos hname, find?, insert, List.lookup_cons, beq_iff_eq.mpr hname]
  · rw [if_neg hname, find?, insert, List.lookup_cons, beq_false_of_ne hname, find?]

end NameIndex

end RecordQuery

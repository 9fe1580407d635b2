import RecordQuery.ScalarFunction.Builtin

/-!
# Function registries

A registry finds functions by name, whatever the case of the name.
-/

namespace RecordQuery

/-- Functions by their names in upper case; no name occurs twice. -/
structure Registry where
  /-- The names and their functions. -/
  entries : List (String × ScalarFunction)

namespace Registry

/-- The registry without functions. -/
def empty : Registry := ⟨[]⟩

/-- Adds a function in place of any other one of its name. -/
def register (registry : Registry) (function : ScalarFunction) : Registry :=
  let key := Text.upper function.name
  ⟨(key, function) :: registry.entries.filter fun entry => entry.1 != key⟩

/-- The registry of the built-in functions. -/
def standard : Registry := ScalarFunction.builtins.foldl register empty

/-- The function of a name, taken as it is or else in upper case. -/
def find? (registry : Registry) (name : String) : Option ScalarFunction :=
  match registry.entries.lookup name with
  | some function => some function
  | none => registry.entries.lookup (Text.upper name)

/-- The names of all functions in order. -/
def names (registry : Registry) : List String :=
  (registry.entries.map Prod.fst).mergeSort fun a b => decide (a ≤ b)

end Registry

end RecordQuery

import RecordQuery.Program.Op

/-!
# Programs

A program is a list of steps and the depth of stack that running them takes.  Making a program
joins two steps into one where a single step does the work of both.
-/

namespace RecordQuery

/-- The steps of a compiled expression. -/
structure Program where
  /-- The steps. -/
  ops : List Op

namespace Program

/-! ## Joining steps -/

/-- Steps with neighbours joined: a variable and a column of it, a constant keyword and the search
for it. -/
def fuse : List Op → List Op
  | .loadVariable position :: .getColumn column :: rest =>
    .loadVariableColumn position column :: fuse rest
  | .load (.text keyword) :: .binary .contains :: rest =>
    .containsNeedle (.ofKeyword keyword) :: fuse rest
  | op :: rest => op :: fuse rest
  | [] => []

/-- The program of steps with neighbours joined. -/
def ofOps (ops : List Op) : Program := ⟨fuse ops⟩

/-! ## Depth -/

/-- The depths after each step, starting from a depth. -/
def depths (depth : Int) : List Op → List Int
  | [] => []
  | op :: rest => (depth + op.stackEffect) :: depths (depth + op.stackEffect) rest

/-- The depth of stack that running the program takes, at least 1. -/
def maxStackDepth (program : Program) : Nat :=
  ((depths 0 program.ops).foldl max 1).toNat

/-! ## Listings -/

/-- The number of a step in a listing, with four digits at least. -/
def lineNumber (index : Nat) : String :=
  let digits := Decimal.digitChars index
  String.ofList (List.replicate (4 - digits.length) '0' ++ digits)

/-- The lines of a listing from a step on. -/
def listingFrom (index : Nat) : List Op → String
  | [] => ""
  | op :: rest => lineNumber index ++ ": " ++ op.dump ++ "\n" ++ listingFrom (index + 1) rest

/-- The steps of the program, one a line. -/
def listing (program : Program) : String := listingFrom 0 program.ops

/-- A program as dumps show it. -/
def dump (program : Program) : String :=
  dumpFields "Program" [("ops_count", toString program.ops.length),
    ("max_stack_depth", toString program.maxStackDepth)]

end Program

end RecordQuery

import RecordQuery.Compile.Basic

/-!
# Expressions

An expression collects operations and variables, is compiled against a store, and is then executed
as often as wanted.  Operations and variables can only be added while it is being built.
-/

namespace RecordQuery

/-- An expression. -/
structure Expression where
  /-- The name, for descriptions. -/
  name : Option String
  /-- Where in its life the expression is. -/
  stage : Stage
  /-- The operations in the order they were added. -/
  operations : Array Operation
  /-- The variables. -/
  vars : Variables
  /-- What compiling made of the operations. -/
  compiled : Option Compiled
  /-- The result of the latest successful execution. -/
  result : Cell
  /-- The text that the latest execution last read from a column. -/
  lastText : Option String

namespace Expression

/-- An expression without operations. -/
def empty (name : Option String) : Expression :=
  ⟨name, .building, #[], .empty, none, .empty .any, none⟩

/-- The program, once compiled. -/
def program? (e : Expression) : Option Program := e.compiled.map (·.program)

/-- The domain of the results, once compiled. -/
def range? (e : Expression) : Option Domain := e.compiled.map (·.range)

/-- The keywords of the searches, once compiled. -/
def keywords (e : Expression) : List String :=
  match e.compiled with
  | some compiled => compiled.keywords
  | none => []

/-! ## Descriptions -/

/-- A variable as descriptions show it. -/
def describeVariable (v : Variable) : String :=
  v.name.getD ("$" ++ toString v.position) ++ ":" ++ v.cell.domain.describe

/-- The expression with its variables and operations and, once compiled, its program. -/
def describe (e : Expression) : String :=
  let name :=
    match e.name with
    | some name => " " ++ name
    | none => ""
  let vars := e.vars.entries.toList.map describeVariable
  let operations := e.operations.toList.map Operation.describe
  let listing :=
    match e.program? with
    | some program => "\n" ++ program.listing
    | none => ""
  "#<Expression" ++ name ++ " vars=[" ++ Text.joined ", " vars ++ "] ops=[" ++
    Text.joined ", " operations ++ "]>" ++ listing

/-- A stage as dumps show it. -/
def stageDump : Stage → String
  | .building => "Building"
  | .compiled => "Compiled"
  | .evaluated => "Evaluated"

/-- The expression as dumps show it. -/
def dump (e : Expression) : String :=
  let name :=
    match e.name with
    | some name => "Some(" ++ Text.quoted name ++ ")"
    | none => "None"
  dumpFields "Expression" [("name", name), ("state", stageDump e.stage),
    ("operations", toString e.operations.size), ("variables", toString e.vars.size)]

end Expression

end RecordQuery

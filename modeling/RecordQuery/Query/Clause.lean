import RecordQuery.Operation

/-!
# Queries

A query is a row of clauses.  Each clause is a term or a group of clauses, and says how it joins the
clauses before it.  Its operations follow those of the clauses before it, so a row of clauses is
joined from the left.
-/

namespace RecordQuery.Query

/-- A comparison of a column with a value. -/
structure Term where
  /-- The columns to follow from the record. -/
  path : List String
  /-- The operator. -/
  mode : Operator
  value : Value

/-- How a clause joins the clauses before it. -/
structure Link where
  /-- The operator between them; none for the first clause. -/
  connective : Option Operator
  /-- Whether the clause itself is negated. -/
  negated : Bool
  deriving DecidableEq

/-- A part of a query. -/
inductive Clause where
  | term (link : Link) (term : Term)
  | group (link : Link) (clauses : List Clause)

/-- The operations of a term. -/
def Term.operations (term : Term) : List Operation :=
  Operation.readPath term.path ++ [.pushValue term.value, .apply term.mode 2]

/-- The operations that join a clause to the ones before it. -/
def Link.operations (link : Link) : List Operation :=
  let negation := if link.negated then [Operation.apply .not 1] else []
  match link.connective with
  | none => negation
  | some connective => negation ++ [.apply connective 2]

mutual

/-- The operations of a clause. -/
def Clause.operations : Clause → List Operation
  | .term link term => term.operations ++ link.operations
  | .group link clauses => operationsOfAll clauses ++ link.operations

/-- The operations of a row of clauses. -/
def operationsOfAll : List Clause → List Operation
  | [] => []
  | clause :: later => clause.operations ++ operationsOfAll later

end

end RecordQuery.Query

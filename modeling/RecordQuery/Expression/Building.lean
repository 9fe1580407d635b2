import RecordQuery.Expression.Basic
import RecordQuery.Parse

/-!
# Building expressions

Variables, operations and whole texts are added to an expression that is being built; later every
such step is refused and changes nothing.
-/

namespace RecordQuery.Expression

/-- Refuses an action on an expression that is no longer being built. -/
def requireBuilding (e : Expression) (action : Action) : Except Error Unit :=
  if e.stage = .building then .ok () else .error (.invalidState action e.stage)

/-- Defines a variable; its position is the former number of variables. -/
def defineVariable (e : Expression) (name : Option String) (domain : Domain) :
    Except Error Expression :=
  match e.requireBuilding .defineVariable with
  | .error error => .error error
  | .ok () => .ok { e with vars := e.vars.define name domain }

/-- Adds an operation. -/
def append (e : Expression) (operation : Operation) : Except Error Expression :=
  match e.requireBuilding .append with
  | .error error => .error error
  | .ok () => .ok { e with operations := e.operations.push operation }

/-- Adds the operation that pushes an operand and applies an operator. -/
def appendObject (e : Expression) (operand : Operand) (operator : Operator) (arity : Int) :
    Except Error Expression :=
  e.append ⟨operator, arity, some operand⟩

/-- Adds the operation that pushes a constant and applies an operator. -/
def appendConstant (e : Expression) (value : Value) (operator : Operator) (arity : Int) :
    Except Error Expression :=
  e.appendObject (.ofValue value) operator arity

/-- Adds the operation that applies an operator. -/
def appendOperation (e : Expression) (operator : Operator) (arity : Int) :
    Except Error Expression :=
  e.append (.apply operator arity)

/-- Adds operations in order. -/
def appendAll (e : Expression) : List Operation → Except Error Expression
  | [] => .ok e
  | operation :: later =>
    match e.append operation with
    | .error error => .error error
    | .ok e => e.appendAll later

/-- Adds the operations of a text.  Of a text that fails the clauses before the failure are added,
and the failure carries a description of the expression with them. -/
def parse (e : Expression) (text : String) (options : ParseOptions) :
    Expression × Except Error Unit :=
  match e.requireBuilding .parse with
  | .error error => (e, .error error)
  | .ok () =>
    match options.check with
    | .error error => (e, .error error)
    | .ok () =>
      let parsed := parseText options (e.vars.size != 0) text
      let extended := { e with operations := e.operations ++ parsed.operations }
      match parsed.outcome with
      | .ok _ => (extended, .ok ())
      | .error error =>
        let context := extended.describe ++ " options=" ++ options.describe
        (extended, .error (.parse { error with context := context }))

end RecordQuery.Expression

import RecordQuery.Program.Machine

/-!
# Engines

An engine is a machine that is used again and again.  It works on one stack and one buffer for the
arguments of functions, and a step takes its operands off the stack before it can fail.  So whatever
a run leaves, a failed one included, stays in the engine until the next run.
-/

namespace RecordQuery

open Machine (State)

/-- A machine with what earlier runs have left in it. -/
structure Engine extends State where
  /-- The arguments of the latest call of a function. -/
  arguments : List Value

namespace Engine

/-- A change of an engine that answers or fails, and is made in either case. -/
abbrev Action (α : Type) : Type := EStateM Error Engine α

/-- An engine that was never used, or has been told to forget everything. -/
def fresh : Engine := ⟨.start, []⟩

/-- The answer of what is computed outside the engine. -/
def ofExcept {α : Type} : Except Error α → Action α
  | .ok answer => pure answer
  | .error error => throw error

/-! ## The stack -/

/-- Puts a value onto the stack. -/
def push (value : Value) : Action Unit :=
  modify fun engine => { engine with stack := value :: engine.stack }

/-- Takes the top off the stack, if there is one. -/
def pop? : Action (Option Value) := do
  match (← get).stack with
  | value :: below =>
    modify fun engine => { engine with stack := below }
    return some value
  | [] => return none

/-- Takes the top off the stack. -/
def pop : Action Value := do
  match ← pop? with
  | some value => return value
  | none => throw (.evaluation .stackUnderflow)

/-- Takes values off the stack, the first of which was pushed first, unless there are fewer. -/
def take (count : Nat) (fault : EvaluationFault) : Action (List Value) := do
  let stack := (← get).stack
  if stack.length < count then throw (.evaluation fault)
  modify fun engine => { engine with stack := stack.drop count }
  return (stack.take count).reverse

/-- Replaces the top by the result of a rule. -/
def mapTop (rule : Value → Except Error Value) : Action Unit := do
  let value ← pop
  push (← ofExcept (rule value))

/-- Replaces the two values on top by the result of a rule. -/
def mapTopTwo (rule : Value → Value → Except Error Value) : Action Unit := do
  let right ← pop
  let left ← pop
  push (← ofExcept (rule left right))

/-! ## Columns -/

/-- The value of a column of a record; a text that comes from the store is remembered. -/
def readColumn (source : Source) (record : Value) (column : ColumnRef) : Action Value := do
  match ← ofExcept (Machine.readColumn source record column) with
  | (.text s, true) =>
    modify fun engine => { engine with lastText := some s }
    return .text s
  | (value, _) => return value

/-- The value of the column that a value names. -/
def readNamed (source : Source) (record name : Value) : Action Value :=
  match name with
  | .text columnName =>
    match record with
    | .record r =>
      match source.column r.table columnName with
      | .error status => throw (.store .runtime status)
      | .ok column => readColumn source record column
    | .null _ => return .unknown
    | other => throw (.type (.cannotRead columnName other.dataType))
  | other => throw (.type (.columnNameNotText other.dataType))

/-! ## Runs -/

variable [Regexp.Matcher]

/-- Makes a step. -/
def perform (env : Environment) : Op → Action Unit
  | .load value => push value
  | .loadVariable position => do push (← ofExcept (env.variable position))
  | .loadVariableColumn position column => do
    let record ← ofExcept (env.variable position)
    push (← readColumn env.source record column)
  | .getColumn column => do
    let record ← pop
    push (← readColumn env.source record column)
  | .getValue => do
    let name ← pop
    let record ← pop
    push (← readNamed env.source record name)
  | .pop => do let _ ← pop
  | .call function count => do
    let arguments ← take count (.missingArguments function.name count)
    modify fun engine => { engine with arguments := arguments }
    push (← ofExcept (function.evaluate arguments))
  | .connect connective count => do
    if count = 0 then throw (.evaluation .stackUnderflow)
    push (.boolean (connective.holds (← take count .stackUnderflow)))
  | .not => mapTop fun value => .ok (.boolean !value.isTruthy)
  | .binary operation => mapTopTwo operation.apply
  | .containsNeedle needle => mapTop fun value => .ok (value.containsNeedle needle)
  | .matchesRegexp regexp => mapTop fun value => .ok (value.matchesRegexp regexp)
  | .negate => mapTop Value.negate

/-- Makes steps one after the other, up to the first that fails. -/
def performAll (env : Environment) : List Op → Action Unit
  | [] => pure ()
  | op :: later => do
    perform env op
    performAll env later

/-- Runs a program.  The stack and the text that was read last are cleared first.  The result is the
top of the stack that the steps leave or, of an empty stack, the null without a type. -/
def run (env : Environment) (program : Program) : Action Value := do
  modify fun engine => { engine with stack := [], lastText := none }
  performAll env program.ops
  return (← pop?).getD .unknown

/-- The engine after a run of a program, and the answer of the run. -/
def execute (engine : Engine) (env : Environment) (program : Program) :
    Engine × Except Error Value :=
  match run env program engine with
  | .ok value left => (left, .ok value)
  | .error error left => (left, .error error)

end Engine

end RecordQuery

import RecordQuery.Program.Basic
import RecordQuery.Variables

/-!
# Running programs

A machine runs the steps of a program on a stack that starts empty.  All operands are evaluated, and
the first failure ends the run.  Besides the result a run leaves the text that was last read from a
column.
-/

namespace RecordQuery

/-- What a run reads from. -/
structure Environment where
  /-- The store. -/
  source : Source
  /-- The variables, if there are any. -/
  vars : Option Variables

/-- The value of a variable. -/
def Environment.variable (env : Environment) (position : Nat) : Except Error Value :=
  match env.vars with
  | none => .error (.variableOutOfRange position 0)
  | some vars =>
    match vars.value? position with
    | some value => .ok value
    | none => .error (.variableOutOfRange position vars.size)

namespace Machine

/-- The state between two steps. -/
structure State where
  /-- The values, the top first. -/
  stack : List Value
  /-- The text that was last read from a column in this run. -/
  lastText : Option String
  deriving DecidableEq

/-- The state before the first step. -/
def State.start : State := ⟨[], none⟩

/-- A run that a failing step ended. -/
structure Stop where
  /-- The failure of the step. -/
  error : Error
  /-- The text that was last read from a column before it. -/
  lastText : Option String
  deriving DecidableEq

/-- What a run leaves. -/
structure Outcome where
  /-- The value on top of the stack, or the failure. -/
  result : Except Error Value
  /-- The text that was last read from a column. -/
  lastText : Option String

/-- The failure of a step that finds too few values. -/
def underflow {α : Type} : Except Error α := .error (.evaluation .stackUnderflow)

/-- The state with the stack replaced by a value on top of other ones. -/
def State.put (state : State) (value : Value) (below : List Value) : State :=
  { state with stack := value :: below }

/-- The state with one more value. -/
def State.push (state : State) (value : Value) : State := state.put value state.stack

/-- The state after a value was read from a column; a text is remembered. -/
def State.read (state : State) (value : Value) (below : List Value) : State :=
  match value with
  | .text s => ⟨value :: below, some s⟩
  | _ => state.put value below

/-! ## Reading columns -/

/-- The value of a column of a record, and whether it comes from the store: a null and a reference
to no record have nulls instead. -/
def readColumn (source : Source) (record : Value) (column : ColumnRef) :
    Except Error (Value × Bool) :=
  match record with
  | .null _ => .ok (column.absent, false)
  | .record r =>
    if r.isNil then .ok (column.absent, false)
    else if r.table ≠ column.table then
      .error (.type (.foreignColumn column.name r.table))
    else
      match source.value r column.id with
      | .ok value => .ok (value, true)
      | .error status => .error (.store .runtime status)
  | other => .error (.type (.cannotRead column.name other.dataType))

/-- The state after a column of a record was read onto other values. -/
def State.readColumn (state : State) (source : Source) (record : Value) (column : ColumnRef)
    (below : List Value) : Except Error State :=
  match Machine.readColumn source record column with
  | .error error => .error error
  | .ok (value, true) => .ok (state.read value below)
  | .ok (value, false) => .ok (state.put value below)

/-- The state after a column was read that a value names. -/
def State.readNamed (state : State) (source : Source) (record name : Value)
    (below : List Value) : Except Error State :=
  match name with
  | .text columnName =>
    match record with
    | .record r =>
      match source.column r.table columnName with
      | .error status => .error (.store .runtime status)
      | .ok column => state.readColumn source record column below
    | .null _ => .ok (state.put .unknown below)
    | other => .error (.type (.cannotRead columnName other.dataType))
  | other => .error (.type (.columnNameNotText other.dataType))

/-! ## Steps -/

/-- The state with the result of a rule in place of the top. -/
def State.mapTop (state : State) (rule : Value → Except Error Value) : Except Error State :=
  match state.stack with
  | value :: below => (rule value).map fun result => state.put result below
  | [] => underflow

/-- The state with the result of a rule in place of the two values on top. -/
def State.mapTopTwo (state : State) (rule : Value → Value → Except Error Value) :
    Except Error State :=
  match state.stack with
  | right :: left :: below => (rule left right).map fun result => state.put result below
  | _ => underflow

variable [Regexp.Matcher]

/-- The state after a step. -/
def step (env : Environment) (state : State) : Op → Except Error State
  | .load value => .ok (state.push value)
  | .loadVariable position => (env.variable position).map state.push
  | .loadVariableColumn position column =>
    match env.variable position with
    | .error error => .error error
    | .ok record => state.readColumn env.source record column state.stack
  | .getColumn column =>
    match state.stack with
    | record :: below => state.readColumn env.source record column below
    | [] => underflow
  | .getValue =>
    match state.stack with
    | name :: record :: below => state.readNamed env.source record name below
    | _ => underflow
  | .pop =>
    match state.stack with
    | _ :: below => .ok { state with stack := below }
    | [] => underflow
  | .call function count =>
    if state.stack.length < count then
      .error (.evaluation (.missingArguments function.name count))
    else
      (function.evaluate (state.stack.take count).reverse).map fun result =>
        state.put result (state.stack.drop count)
  | .connect connective count =>
    if count = 0 ∨ state.stack.length < count then underflow
    else
      .ok (state.put (.boolean (connective.holds (state.stack.take count).reverse))
        (state.stack.drop count))
  | .not => state.mapTop fun value => .ok (.boolean !value.isTruthy)
  | .binary operation => state.mapTopTwo operation.apply
  | .containsNeedle needle => state.mapTop fun value => .ok (value.containsNeedle needle)
  | .matchesRegexp regexp => state.mapTop fun value => .ok (value.matchesRegexp regexp)
  | .negate => state.mapTop Value.negate

/-! ## Runs -/

/-- The state after steps one after the other, up to the first that fails. -/
def steps (env : Environment) (state : State) : List Op → Except Stop State
  | [] => .ok state
  | op :: rest =>
    match step env state op with
    | .error error => .error ⟨error, state.lastText⟩
    | .ok next => steps env next rest

@[simp] theorem steps_nil (env : Environment) (state : State) : steps env state [] = .ok state :=
  rfl

/-- Steps in a row are the later ones from the state that the earlier ones leave. -/
theorem steps_append (env : Environment) (state : State) (first second : List Op) :
    steps env state (first ++ second) =
      (steps env state first).bind fun next => steps env next second := by
  induction first generalizing state with
  | nil => rfl
  | cons op rest ih =>
    simp only [List.cons_append, steps]
    split
    · rfl
    · exact ih _

/-- What is left of a run: the value on top of the stack or, of an empty stack, the null without a
type. -/
def Outcome.ofRun : Except Stop State → Outcome
  | .ok state => ⟨.ok (state.stack.headD .unknown), state.lastText⟩
  | .error stop => ⟨.error stop.error, stop.lastText⟩

/-- What a run of steps leaves that starts with an empty stack. -/
def runOps (env : Environment) (ops : List Op) : Outcome := .ofRun (steps env .start ops)

/-- What a run of a program leaves. -/
def run (env : Environment) (program : Program) : Outcome := runOps env program.ops

end Machine

end RecordQuery

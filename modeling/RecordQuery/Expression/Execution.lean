import RecordQuery.Expression.Building

/-!
# Compiling and executing expressions

An expression is compiled once and then executed with arguments for its variables.  All arguments
are converted before any is bound, and variables without an argument keep their values.
-/

namespace RecordQuery.Expression

variable [Regexp.Matcher]

/-- Compiles an expression that is being built; later nothing is left to do. -/
def compile (e : Expression) (source : Source) : Except Error Expression :=
  if e.stage = .building then
    match RecordQuery.compile source e.vars e.operations.toList with
    | .error error => .error error
    | .ok compiled =>
      match source.failure? with
      | some status => .error (.store .compile status)
      | none =>
        .ok
          { e with
            stage := .compiled
            compiled := some compiled
            result := .empty compiled.range }
  else .ok e

/-! ## Arguments -/

/-- The arguments converted into the domains of the variables at their positions, up to the first
that does not fit. -/
def coerceArguments : List Value → List Variable → Except Error (List Value)
  | value :: values, v :: vars =>
    match value.coerce v.cell.domain with
    | .error fault => .error fault.toError
    | .ok fitted => (coerceArguments values vars).map fun later => fitted :: later
  | _, _ => .ok []

/-- The variables with values bound to positions from one on. -/
def bindFrom (vars : Variables) (position : Nat) : List Value → Except Error Variables
  | [] => .ok vars
  | value :: later =>
    match vars.bind position value with
    | .error error => .error error
    | .ok vars => bindFrom vars (position + 1) later

/-- The variables with arguments bound to them. -/
def bindArguments (vars : Variables) (arguments : List Value) : Except Error Variables :=
  if vars.size < arguments.length then
    .error (.invalidArgument (.tooManyArguments arguments.length vars.size))
  else
    match coerceArguments arguments vars.entries.toList with
    | .error error => .error error
    | .ok fitted => bindFrom vars 0 fitted

/-! ## Execution -/

/-- Keeps the value of a run as the result, unless the store reports a failure or the value does not
fit the domain found at compile time. -/
def keepResult (e : Expression) (source : Source) (range : Domain) (value : Value) :
    Expression × Except Error Value :=
  match source.failure? with
  | some status => (e, .error (.store .runtime status))
  | none =>
    match e.result.set value with
    | .error fault => (e, .error (.type (.resultDoesNotFit range fault)))
    | .ok result => ({ e with result := result, stage := .evaluated }, .ok value)

/-- Runs the program of an expression whose arguments are bound. -/
def runProgram (e : Expression) (source : Source) : Expression × Except Error Value :=
  match e.compiled with
  | none => (e, .error (.invalidState .execute e.stage))
  | some compiled =>
    let outcome := Machine.run ⟨source, some e.vars⟩ compiled.program
    let run := { e with lastText := outcome.lastText }
    match outcome.result with
    | .error error => (run, .error error)
    | .ok value => run.keepResult source compiled.range value

/-- Compiles the expression if need be and executes it. -/
def execute (e : Expression) (source : Source) (arguments : List Value) :
    Expression × Except Error Value :=
  match e.compile source with
  | .error error => (e, .error error)
  | .ok ready =>
    match bindArguments ready.vars arguments with
    | .error error => (ready, .error error)
    | .ok vars => { ready with vars := vars }.runProgram source

/-- The expression as it was before it was compiled, with its operations and variables. -/
def reset (e : Expression) : Expression :=
  { e with stage := .building, compiled := none, result := .empty .any, lastText := none }

/-! ## Variables and snippets -/

/-- A variable by name or by position. -/
inductive VariableKey where
  | name (name : String)
  | position (position : Nat)

/-- The value of a variable. -/
def variableValue (e : Expression) : VariableKey → Except Error Value
  | .name name =>
    match e.vars.lookup name with
    | .error error => .error error
    | .ok position => (e.vars.get position).map (·.cell.value)
  | .position position => (e.vars.get position).map (·.cell.value)

/-- The snippet for the keywords of the expression. -/
def snippet (e : Expression) (tags : List Tag) (options : Snippet.Options) :
    Except Error Snippet :=
  match e.compiled with
  | none => .error (.invalidState .extractSnippets e.stage)
  | some compiled => Snippet.make compiled.keywords tags options

/-- The fragments of the text that the latest execution last read from a column. -/
def fragments (e : Expression) (tags : List Tag) (options : Snippet.Options) :
    Except Error (List String) :=
  (e.snippet tags options).map fun snippet =>
    match e.lastText with
    | some text => snippet.fragments text
    | none => []

end RecordQuery.Expression

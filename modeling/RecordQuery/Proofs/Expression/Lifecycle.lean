import RecordQuery.Expression.Execution
import RecordQuery.Proofs.Variables

/-!
# The life of an expression

An expression is changed by calls only (`Expression.Call`).  Every call keeps its parts consistent
with each other (`Expression.Coherent`) and only adds operations and variables at the end
(`Expression.GrowsTo`), so both hold after any calls, failing ones included.  What an execution can
do is said once by `Expression.Executes`; that the program is there when it is needed follows from
the consistency.

`performAll_lawful` puts the laws of an expression after any calls together (`Expression.Lawful`).
-/

namespace RecordQuery.Expression

/-! ## Calls -/

/-- A call that can change an expression. -/
inductive Call where
  | defineVariable (name : Option String) (domain : Domain)
  | appendObject (operand : Operand) (operator : Operator) (arity : Int)
  | appendConstant (value : Value) (operator : Operator) (arity : Int)
  | appendOperation (operator : Operator) (arity : Int)
  | parse (text : String) (options : ParseOptions)
  | compile (source : Source)
  | execute (source : Source) (arguments : List Value)
  | reset

/-- The expression that a computation answers or, where it fails, the one there was. -/
def orKept (e : Expression) : Except Error Expression → Expression × Except Error Unit
  | .ok later => (later, .ok ())
  | .error error => (e, .error error)

/-- The expression after a call, and whether the call failed. -/
def perform [Regexp.Matcher] (e : Expression) : Call → Expression × Except Error Unit
  | .defineVariable name domain => e.orKept (e.defineVariable name domain)
  | .appendObject operand operator arity => e.orKept (e.appendObject operand operator arity)
  | .appendConstant value operator arity => e.orKept (e.appendConstant value operator arity)
  | .appendOperation operator arity => e.orKept (e.appendOperation operator arity)
  | .parse text options => e.parse text options
  | .compile source => e.orKept (e.compile source)
  | .execute source arguments =>
    let (later, answer) := e.execute source arguments
    (later, answer.map fun _ => ())
  | .reset => (e.reset, .ok ())

/-- The expression after calls one after the other, whether they fail or not. -/
def performAll [Regexp.Matcher] (e : Expression) (calls : List Call) : Expression :=
  calls.foldl (fun e call => (e.perform call).1) e

/-- What a call does to an expression that only one that is being built admits. -/
def Call.buildAction? : Call → Option Action
  | defineVariable .. => some .defineVariable
  | appendObject .. | appendConstant .. | appendOperation .. => some .append
  | parse .. => some .parse
  | compile _ | execute .. | reset => none

variable {e later ready : Expression} {source : Source} {arguments : List Value}

/-! ## Compiling -/

/-- What compiling does: nothing unless the expression is being built. -/
theorem compile_cases [Regexp.Matcher] (h : e.compile source = .ok ready) :
    (e.stage ≠ .building ∧ ready = e) ∨
      (e.stage = .building ∧ source.failure? = none ∧
        ∃ compiled, RecordQuery.compile source e.vars e.operations.toList = .ok compiled ∧
          ready = { e with
            stage := .compiled, compiled := some compiled, result := .empty compiled.range }) := by
  unfold Expression.compile at h
  split at h
  · rename_i hbuilding
    split at h
    · cases h
    · rename_i compiled hcompiled
      split at h
      · cases h
      · rename_i hfailure
        cases h
        exact Or.inr ⟨hbuilding, hfailure, compiled, hcompiled, rfl⟩
  · rename_i hbuilt
    cases h
    exact Or.inl ⟨hbuilt, rfl⟩

/-- Compiling fails exactly for an expression that is being built whose operations do not compile
or for which the store reports a failure. -/
theorem compile_eq_error_iff [Regexp.Matcher] :
    (∃ error, e.compile source = .error error) ↔
      e.stage = .building ∧
        ((∃ error, RecordQuery.compile source e.vars e.operations.toList = .error error) ∨
          ∃ status, source.failure? = some status) := by
  unfold Expression.compile
  by_cases hbuilding : e.stage = .building
  · rw [if_pos hbuilding]
    cases RecordQuery.compile source e.vars e.operations.toList with
    | error error => simp [hbuilding]
    | ok compiled => cases source.failure? <;> simp [hbuilding]
  · simp [hbuilding]

/-! ## Binding arguments -/

theorem bindFrom_kept {values : List Value} {position : Nat} {vars bound : Variables}
    (h : bindFrom vars position values = .ok bound) :
    bound.definitions = vars.definitions ∧ (vars.Fit → bound.Fit) := by
  induction values generalizing vars position with
  | nil =>
      cases h
      exact ⟨rfl, id⟩
  | cons value values ih =>
      rw [bindFrom] at h
      split at h
      · cases h
      · rename_i between hbind
        obtain ⟨hdefinitions, hfit⟩ := ih h
        exact ⟨hdefinitions.trans (Variables.definitions_bind hbind),
          fun hvars => hfit (hvars.bind hbind)⟩

theorem bindArguments_kept {vars bound : Variables}
    (h : bindArguments vars arguments = .ok bound) :
    bound.definitions = vars.definitions ∧ (vars.Fit → bound.Fit) := by
  unfold bindArguments at h
  split at h
  · cases h
  · split at h
    · cases h
    · exact bindFrom_kept h

/-! ## Consistency -/

/-- The parts of an expression belong together. -/
structure Coherent (e : Expression) : Prop where
  /-- There is a program once the expression is built. -/
  compiled_iff : e.compiled.isSome = true ↔ e.stage ≠ .building
  /-- The variables hold values of their domains. -/
  vars_fit : e.vars.Fit
  /-- The result is of the domain of the program's values. -/
  result_domain : e.result.domain = e.range?.getD .any

theorem coherent_empty (name : Option String) : (empty name).Coherent :=
  ⟨by simp [empty], Variables.fit_empty, rfl⟩

theorem Coherent.compile [Regexp.Matcher] (h : e.Coherent)
    (hcompile : e.compile source = .ok ready) :
    ready.Coherent ∧ ∃ compiled, ready.compiled = some compiled := by
  rcases compile_cases hcompile with ⟨hbuilt, rfl⟩ | ⟨_, _, compiled, _, rfl⟩
  · exact ⟨h, Option.isSome_iff_exists.mp (h.compiled_iff.mpr hbuilt)⟩
  · exact ⟨⟨by simp, h.vars_fit, rfl⟩, compiled, rfl⟩

/-! ## Executing -/

/-- What becomes of an expression and its result behind a run. -/
inductive Concludes (source : Source) (range : Domain) (outcome : Machine.Outcome)
    (e : Expression) : Expression → Except Error Value → Prop
  /-- The run has failed. -/
  | stopped {error : Error} :
      outcome.result = .error error → Concludes source range outcome e e (.error error)
  /-- The store reports a failure. -/
  | reported {value : Value} {status : Status} :
      outcome.result = .ok value → source.failure? = some status →
      Concludes source range outcome e e (.error (.store .runtime status))
  /-- The value does not fit. -/
  | misfit {value : Value} {fault : CoercionFault} :
      outcome.result = .ok value → e.result.set value = .error fault →
      Concludes source range outcome e e (.error (.type (.resultDoesNotFit range fault)))
  /-- The value becomes the result. -/
  | kept {value : Value} {result : Cell} :
      outcome.result = .ok value → source.failure? = none → e.result.set value = .ok result →
      Concludes source range outcome e { e with result := result, stage := .evaluated } (.ok value)

/-- What an execution leaves and answers. -/
inductive Executes [Regexp.Matcher] (e : Expression) (source : Source) (arguments : List Value) :
    Expression → Except Error Value → Prop
  /-- The expression does not compile. -/
  | uncompiled {error : Error} :
      e.compile source = .error error → Executes e source arguments e (.error error)
  /-- The arguments do not fit. -/
  | unbound {ready : Expression} {error : Error} :
      e.compile source = .ok ready → bindArguments ready.vars arguments = .error error →
      Executes e source arguments ready (.error error)
  /-- The program runs. -/
  | run {ready later : Expression} {vars : Variables} {compiled : Compiled}
      {outcome : Machine.Outcome} {answer : Except Error Value} :
      e.compile source = .ok ready → bindArguments ready.vars arguments = .ok vars →
      ready.compiled = some compiled →
      Machine.run ⟨source, some vars⟩ compiled.program = outcome →
      Concludes source compiled.range outcome
        { ready with vars := vars, lastText := outcome.lastText } later answer →
      Executes e source arguments later answer

theorem concludes_runProgram [Regexp.Matcher] {compiled : Compiled} (h : e.compiled = some compiled)
    (source : Source) :
    let outcome := Machine.run ⟨source, some e.vars⟩ compiled.program
    Concludes source compiled.range outcome { e with lastText := outcome.lastText }
      (e.runProgram source).1 (e.runProgram source).2 := by
  intro outcome
  obtain ⟨name, stage, operations, vars, made, cell, text⟩ := e
  obtain rfl : made = some compiled := h
  unfold runProgram keepResult
  cases hresult : outcome.result with
  | error error => simpa [outcome, hresult] using .stopped hresult
  | ok value =>
      cases hfailure : source.failure? with
      | some status => simpa [outcome, hresult, hfailure] using .reported hresult hfailure
      | none =>
          cases hset : cell.set value with
          | error fault => simpa [outcome, hresult, hfailure, hset] using .misfit hresult hset
          | ok result => simpa [outcome, hresult, hfailure, hset] using .kept hresult hfailure hset

/-- An expression whose parts belong together has a program when it needs one. -/
theorem Coherent.executes [Regexp.Matcher] (h : e.Coherent) (source : Source)
    (arguments : List Value) : Executes e source arguments (e.execute source arguments).1
      (e.execute source arguments).2 := by
  unfold Expression.execute
  cases hcompile : e.compile source with
  | error error => exact .uncompiled hcompile
  | ok ready =>
      obtain ⟨compiled, hcompiled⟩ := (h.compile hcompile).2
      simp only
      cases hbind : bindArguments ready.vars arguments with
      | error error => exact .unbound hcompile hbind
      | ok vars =>
          have hready : { ready with vars := vars }.compiled = some compiled := hcompiled
          exact .run hcompile hbind hcompiled rfl (concludes_runProgram hready source)

/-! ## Growth -/

/-- Whether an expression has the operations and the variables of another one, in the same places
and of the same domains, and maybe more behind them. -/
structure GrowsTo (e later : Expression) : Prop where
  /-- The operations are the former ones and new ones. -/
  operations : e.operations.toList <+: later.operations.toList
  /-- The variables are the former ones and new ones. -/
  definitions : e.vars.definitions <+: later.vars.definitions

theorem GrowsTo.of_same (hoperations : later.operations = e.operations)
    (hdefinitions : later.vars.definitions = e.vars.definitions) : e.GrowsTo later :=
  ⟨hoperations ▸ List.prefix_rfl, hdefinitions ▸ List.prefix_rfl⟩

theorem GrowsTo.refl (e : Expression) : e.GrowsTo e := .of_same rfl rfl

theorem GrowsTo.trans {latest : Expression} (h : e.GrowsTo later) (hlater : later.GrowsTo latest) :
    e.GrowsTo latest :=
  ⟨h.operations.trans hlater.operations, h.definitions.trans hlater.definitions⟩

/-! ## What a call keeps -/

/-- What one call keeps of an expression whose parts belong together. -/
structure Keeps (e later : Expression) : Prop where
  /-- The parts still belong together. -/
  coherent : later.Coherent
  /-- What there was is still there. -/
  grows : e.GrowsTo later

theorem Coherent.keeps (h : e.Coherent) : e.Keeps e := ⟨h, .refl e⟩

theorem Keeps.trans {latest : Expression} (h : e.Keeps later) (hlater : later.Keeps latest) :
    e.Keeps latest :=
  ⟨hlater.coherent, h.grows.trans hlater.grows⟩

theorem Coherent.keeps_orKept (h : e.Coherent) {answer : Except Error Expression}
    (hanswer : ∀ later, answer = .ok later → e.Keeps later) : e.Keeps (e.orKept answer).1 := by
  cases answer with
  | error error => exact h.keeps
  | ok later => exact hanswer later rfl

theorem Coherent.keeps_defineVariable (h : e.Coherent) {name : Option String} {domain : Domain}
    (hdefine : e.defineVariable name domain = .ok later) : e.Keeps later := by
  unfold defineVariable at hdefine
  split at hdefine
  · cases hdefine
  · cases hdefine
    exact ⟨⟨h.compiled_iff, h.vars_fit.define name domain, h.result_domain⟩,
      List.prefix_rfl, by simp⟩

theorem Coherent.keeps_append (h : e.Coherent) {operation : Operation}
    (happend : e.append operation = .ok later) : e.Keeps later := by
  unfold append at happend
  split at happend
  · cases happend
  · cases happend
    exact ⟨⟨h.compiled_iff, h.vars_fit, h.result_domain⟩, by simp, List.prefix_rfl⟩

theorem Coherent.keeps_parse (h : e.Coherent) (text : String) (options : ParseOptions) :
    e.Keeps (e.parse text options).1 := by
  have hextended (added : List Operation) :
      e.Keeps { e with operations := e.operations ++ added } :=
    ⟨⟨h.compiled_iff, h.vars_fit, h.result_domain⟩, by simp, List.prefix_rfl⟩
  unfold parse
  split
  · exact h.keeps
  · split
    · exact h.keeps
    · dsimp only
      split <;> exact hextended _

theorem Coherent.keeps_compile [Regexp.Matcher] (h : e.Coherent)
    (hcompile : e.compile source = .ok ready) : e.Keeps ready := by
  refine ⟨(h.compile hcompile).1, ?_⟩
  rcases compile_cases hcompile with ⟨_, rfl⟩ | ⟨_, _, _, _, rfl⟩
  · exact .refl _
  · exact .of_same rfl rfl

/-- What a run leaves: the operations, the variables and the program there were, and the result
unless there is a new one. -/
theorem Concludes.kept_parts {range : Domain} {outcome : Machine.Outcome}
    {answer : Except Error Value} (h : Concludes source range outcome e later answer) :
    later.operations = e.operations ∧ later.vars = e.vars ∧ later.compiled = e.compiled ∧
      (∀ error, answer = .error error → later.result = e.result) := by
  cases h with
  | stopped | reported | misfit => exact ⟨rfl, rfl, rfl, fun _ _ => rfl⟩
  | kept => exact ⟨rfl, rfl, rfl, fun _ hanswer => by cases hanswer⟩

theorem Concludes.coherent {range : Domain} {outcome : Machine.Outcome}
    {answer : Except Error Value} (h : Concludes source range outcome e later answer)
    (he : e.Coherent) (hcompiled : e.compiled.isSome = true) : later.Coherent := by
  cases h with
  | stopped | reported | misfit => exact he
  | kept _ _ hset =>
      refine ⟨by simp [hcompiled], he.vars_fit, ?_⟩
      exact (Cell.fits_of_set hset).2.trans he.result_domain

variable [Regexp.Matcher]

theorem Coherent.keeps_execute (h : e.Coherent) (source : Source) (arguments : List Value) :
    e.Keeps (e.execute source arguments).1 := by
  have hexecutes := h.executes source arguments
  generalize (e.execute source arguments).1 = later at hexecutes ⊢
  generalize (e.execute source arguments).2 = answer at hexecutes
  cases hexecutes with
  | uncompiled _ => exact h.keeps
  | unbound hcompile _ => exact h.keeps_compile hcompile
  | @run ready _ vars compiled outcome _ hcompile hbind hcompiled _ hconcludes =>
      refine (h.keeps_compile hcompile).trans ?_
      obtain ⟨hdefinitions, hfit⟩ := bindArguments_kept hbind
      have hready := (h.compile hcompile).1
      have hbound : { ready with vars := vars, lastText := outcome.lastText }.Coherent :=
        ⟨hready.compiled_iff, hfit hready.vars_fit, hready.result_domain⟩
      obtain ⟨hoperations, hvars, _, _⟩ := hconcludes.kept_parts
      exact ⟨hconcludes.coherent hbound (by simp [hcompiled]),
        .of_same hoperations (by rw [hvars]; exact hdefinitions)⟩

/-- Every call keeps the parts together, and the operations and variables there are. -/
theorem Coherent.keeps_perform (h : e.Coherent) (call : Call) : e.Keeps (e.perform call).1 := by
  cases call with
  | defineVariable name domain => exact h.keeps_orKept fun _ => h.keeps_defineVariable
  | appendObject operand operator arity => exact h.keeps_orKept fun _ => h.keeps_append
  | appendConstant value operator arity => exact h.keeps_orKept fun _ => h.keeps_append
  | appendOperation operator arity => exact h.keeps_orKept fun _ => h.keeps_append
  | parse text options => exact h.keeps_parse text options
  | compile source => exact h.keeps_orKept fun _ => h.keeps_compile
  | execute source arguments => exact h.keeps_execute source arguments
  | reset => exact ⟨⟨by simp [perform, reset], h.vars_fit, rfl⟩, .of_same rfl rfl⟩

/-- Calls one after the other keep what one call keeps. -/
theorem Coherent.keeps_performAll (h : e.Coherent) (calls : List Call) :
    e.Keeps (e.performAll calls) := by
  induction calls generalizing e with
  | nil => exact h.keeps
  | cons call calls ih =>
      have hstep := h.keeps_perform call
      exact hstep.trans (ih hstep.coherent)

/-! ## Refusals and failures -/

/-- An expression that is built refuses whatever would build it, and stays as it is. -/
theorem perform_eq_of_built (h : e.stage ≠ .building) {call : Call} {action : Action}
    (hcall : call.buildAction? = some action) :
    e.perform call = (e, .error (.invalidState action e.stage)) := by
  have hrefused (action : Action) :
      e.requireBuilding action = .error (.invalidState action e.stage) := if_neg h
  cases call with
  | compile _ | execute _ _ | reset => cases hcall
  | defineVariable name domain =>
      cases hcall
      simp only [perform, defineVariable, hrefused, orKept]
  | parse text options =>
      cases hcall
      simp only [perform, parse, hrefused]
  | appendObject | appendConstant | appendOperation =>
      cases hcall
      simp only [perform, appendOperation, appendConstant, appendObject, append, hrefused, orKept]

/-- An expression that does not compile stays as it is, and is not executed. -/
theorem perform_compile_of_error {error : Error} (h : e.compile source = .error error) :
    e.perform (.compile source) = (e, .error error) ∧
      ∀ arguments, e.execute source arguments = (e, .error error) := by
  constructor
  · simp only [perform, h, orKept]
  · intro arguments
    simp only [Expression.execute, h]

/-- An execution that fails keeps the operations, the program and the result that a compiled
expression has. -/
theorem Coherent.kept_of_execute_error (h : e.Coherent) (hbuilt : e.stage ≠ .building)
    {error : Error} (herror : e.execute source arguments = (later, .error error)) :
    later.operations = e.operations ∧ later.compiled = e.compiled ∧ later.result = e.result := by
  have hcompile : e.compile source = .ok e := if_neg hbuilt
  have hexecutes := h.executes source arguments
  rw [herror] at hexecutes
  cases hexecutes with
  | uncompiled _ => exact ⟨rfl, rfl, rfl⟩
  | unbound hready _ =>
      obtain rfl := Except.ok.inj (hcompile.symm.trans hready)
      exact ⟨rfl, rfl, rfl⟩
  | run hready _ _ _ hconcludes =>
      obtain rfl := Except.ok.inj (hcompile.symm.trans hready)
      obtain ⟨hoperations, _, hcompiled, hresult⟩ := hconcludes.kept_parts
      exact ⟨hoperations, hcompiled, hresult error rfl⟩

/-! ## The laws -/

/-- What holds of an expression at any time of its life. -/
structure Lawful (e : Expression) : Prop where
  /-- There is a program exactly if the expression is not being built. -/
  compiled_iff : e.compiled.isSome = true ↔ e.stage ≠ .building
  /-- Whatever is executed has been compiled, so an execution never lacks a program. -/
  program : ∀ source ready, e.compile source = .ok ready →
    ∃ compiled, ready.compiled = some compiled
  /-- Outside building whatever would build the expression is refused and changes nothing. -/
  refused : e.stage ≠ .building → ∀ call action, call.buildAction? = some action →
    e.perform call = (e, .error (.invalidState action e.stage))
  /-- Whatever is done later, operations and variables are only added, at the end. -/
  grows : ∀ calls, e.GrowsTo (e.performAll calls)
  /-- The positions of variables have no gaps. -/
  positions : ∀ position, (∃ v, e.vars.get position = .ok v) ↔ position < e.vars.size
  /-- A new variable takes the next position. -/
  defined : e.stage = .building → ∀ name domain, ∃ later,
    e.perform (.defineVariable name domain) = (later, .ok ()) ∧
      later.vars.size = e.vars.size + 1 ∧
      later.vars.get e.vars.size = .ok ⟨name, e.vars.size, .empty domain⟩
  /-- A name stands for the last variable that has it. -/
  found : ∀ name position, e.vars.lookup name = .ok position ↔ e.vars.IsLatest name position
  /-- A name is not found exactly if no variable has it. -/
  not_found : ∀ name,
    e.vars.lookup name = .error (.variableNotFound name) ↔ some name ∉ e.vars.names
  /-- The variables hold values of their domains. -/
  vars_fit : e.vars.Fit
  /-- Compiling fails exactly if the expression is being built and the operations do not compile
  or the store reports a failure. -/
  compile_fails_iff : ∀ source, (∃ error, (e.perform (.compile source)).2 = .error error) ↔
    e.stage = .building ∧
      ((∃ error, RecordQuery.compile source e.vars e.operations.toList = .error error) ∨
        ∃ status, source.failure? = some status)
  /-- An expression that fails to compile stays as it is, whether it is to be executed or not. -/
  compile_failed : ∀ source error, (e.perform (.compile source)).2 = .error error →
    (e.perform (.compile source)).1 = e ∧
      ∀ arguments, e.execute source arguments = (e, .error error)
  /-- An execution that fails keeps the operations, the program and the result that a compiled
  expression has. -/
  execute_failed : e.stage ≠ .building → ∀ source arguments later error,
    e.execute source arguments = (later, .error error) →
      later.operations = e.operations ∧ later.compiled = e.compiled ∧ later.result = e.result

theorem perform_compile_eq_error_iff {error : Error} :
    (e.perform (.compile source)).2 = .error error ↔ e.compile source = .error error := by
  simp only [perform]
  cases e.compile source with
  | error other => simp [orKept]
  | ok ready => simp [orKept]

theorem Coherent.lawful (h : e.Coherent) : e.Lawful where
  compiled_iff := h.compiled_iff
  program _ _ hcompile := (h.compile hcompile).2
  refused hbuilt _ _ hcall := perform_eq_of_built hbuilt hcall
  grows calls := (h.keeps_performAll calls).grows
  positions _ := Variables.get_eq_ok_iff
  defined hbuilding name domain := by
    have hdefine : e.defineVariable name domain =
        .ok { e with vars := e.vars.define name domain } := by
      simp only [defineVariable, requireBuilding, if_pos hbuilding]
    refine ⟨_, by rw [perform, hdefine, orKept], ?_, Variables.get_define e.vars name domain⟩
    simp [Variables.size, Variables.define]
  found _ _ := Variables.lookup_eq_ok_iff
  not_found _ := Variables.lookup_eq_error_iff
  vars_fit := h.vars_fit
  compile_fails_iff source := by
    simp only [perform_compile_eq_error_iff]
    exact compile_eq_error_iff
  compile_failed source error herror := by
    have hcompile := perform_compile_eq_error_iff.mp herror
    obtain ⟨hperform, hexecute⟩ := perform_compile_of_error hcompile
    exact ⟨by rw [hperform], hexecute⟩
  execute_failed hbuilt _ _ _ _ herror := h.kept_of_execute_error hbuilt herror

/-- After any calls, whether they succeed or fail and whatever the stores and arguments are, the
laws of an expression hold. -/
theorem performAll_lawful (name : Option String) (calls : List Call) :
    ((empty name).performAll calls).Lawful :=
  ((coherent_empty name).keeps_performAll calls).coherent.lawful

end RecordQuery.Expression

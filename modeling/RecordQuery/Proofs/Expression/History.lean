import RecordQuery.Proofs.Expression.Confinement
import RecordQuery.Regexp.Standard

/-!
# Executions do not depend on what was executed before

Executions leave traces in an expression: the values of its variables, the text that was last read,
the latest result.  Compiling looks at the definitions of the variables only (`compile_congr`), and
arguments for all variables leave nothing of what the variables held (`bindArguments_complete`).
So two expressions with the same operations and the same definitions answer alike, whatever was
done with each of them before on one store (`Settled.answers_alike`), and a freshly built one is
such an expression.
-/

namespace RecordQuery

/-! ## Compiling -/

namespace Compile

variable {source : Source} {vars others : Variables}

theorem Scope.recordFits_congr (h : vars.definitions = others.definitions) (column : ColumnRef) :
    (Scope.mk source vars).recordFits column = (Scope.mk source others).recordFits column := by
  unfold Scope.recordFits
  rw [Variables.domain?_eq_definitions, Variables.domain?_eq_definitions, h]

theorem Draft.pushObject_congr (h : vars.definitions = others.definitions) (draft : Draft)
    (object : ObjectRef) :
    draft.pushObject ⟨source, vars⟩ object = draft.pushObject ⟨source, others⟩ object := by
  cases object with
  | table _ | function _ => rfl
  | column c => simp only [Draft.pushObject, Scope.recordFits_congr h]

theorem Draft.pushOperand_congr (h : vars.definitions = others.definitions) (draft : Draft)
    (index : Nat) (operand : Operand) :
    draft.pushOperand ⟨source, vars⟩ index operand =
      draft.pushOperand ⟨source, others⟩ index operand := by
  cases operand with
  | variableAt position =>
      simp only [Draft.pushOperand]
      rw [Variables.domain?_eq_definitions, Variables.domain?_eq_definitions, h]
  | constant _ => rfl
  | object _ | name _ => simp only [Draft.pushOperand, Draft.pushObject_congr h]

theorem Draft.add_congr [Regexp.Matcher] (h : vars.definitions = others.definitions)
    (draft : Draft) (index : Nat) (operation : Operation) :
    draft.add ⟨source, vars⟩ index operation = draft.add ⟨source, others⟩ index operation := by
  -- Operators look at the store only.
  have happly : ∀ (draft : Draft) (operator : Operator) (arity : Nat),
      draft.apply ⟨source, vars⟩ index operator arity =
        draft.apply ⟨source, others⟩ index operator arity := fun _ _ _ => rfl
  simp only [Draft.add, Draft.pushOperand_congr h, happly]

theorem Draft.addAll_congr [Regexp.Matcher] (h : vars.definitions = others.definitions)
    (draft : Draft) (index : Nat) (operations : List Operation) :
    draft.addAll ⟨source, vars⟩ index operations =
      draft.addAll ⟨source, others⟩ index operations := by
  induction operations generalizing draft index with
  | nil => rfl
  | cons operation later ih => simp only [Draft.addAll, Draft.add_congr h, ih]

end Compile

/-- What operations are compiled into depends on the definitions of the variables only. -/
theorem compile_congr [Regexp.Matcher] {vars others : Variables}
    (h : vars.definitions = others.definitions) (source : Source) (operations : List Operation) :
    compile source vars operations = compile source others operations := by
  simp only [compile, Compile.Draft.addAll_congr h]

namespace Expression

variable {vars others bound : Variables} {source : Source} {arguments : List Value}

/-! ## Arguments for all variables -/

theorem length_coerceArguments {values fitted : List Value} {entries : List Variable}
    (h : coerceArguments values entries = .ok fitted) :
    fitted.length = min values.length entries.length := by
  induction values generalizing entries fitted with
  | nil =>
      cases h
      simp
  | cons value values ih =>
      cases entries with
      | nil =>
          cases h
          simp
      | cons v entries =>
          rw [coerceArguments] at h
          split at h
          · cases h
          · obtain ⟨later, hlater, rfl⟩ := exists_of_map_eq_ok h
            simp [ih hlater, Nat.succ_min_succ]

/-- Values bound up to the last variable leave nothing of what the variables held. -/
theorem bindFrom_complete {position : Nat} {values : List Value}
    (h : vars.definitions = others.definitions)
    (hbefore : ∀ other, other < position → vars.value? other = others.value? other)
    (hcomplete : vars.size ≤ position + values.length) :
    bindFrom vars position values = bindFrom others position values := by
  induction values generalizing vars others position with
  | nil =>
      refine congrArg Except.ok (Variables.ext_of_definitions h fun other hother => ?_)
      exact hbefore other (Nat.lt_of_lt_of_le hother hcomplete)
  | cons value values ih =>
      simp only [bindFrom]
      rcases Variables.bind_congr h position value with
        ⟨error, hvars, hothers⟩ | ⟨bound, otherBound, hvars, hothers⟩
      · rw [hvars, hothers]
      · rw [hvars, hothers]
        have hdefinitions := Variables.definitions_bind hvars
        have hotherDefinitions := Variables.definitions_bind hothers
        -- One more variable has the same value; the ones before it are as they were.
        refine ih (by rw [hdefinitions, hotherDefinitions, h]) ?_ ?_
        · intro other hother
          by_cases heq : other = position
          · rw [heq, Variables.value?_bind_congr h hvars hothers]
          · rw [Variables.value?_bind_of_ne hvars heq, Variables.value?_bind_of_ne hothers heq]
            exact hbefore other (by omega)
        · rw [← Variables.length_definitions, hdefinitions, Variables.length_definitions]
          rw [List.length_cons] at hcomplete
          omega

theorem bindArguments_complete (h : vars.definitions = others.definitions)
    (hcomplete : vars.size ≤ arguments.length) :
    bindArguments vars arguments = bindArguments others arguments := by
  have hsize : vars.size = others.size := by
    rw [← Variables.length_definitions, ← Variables.length_definitions, h]
  have hdomains : vars.entries.toList.map (·.cell.domain) =
      others.entries.toList.map (·.cell.domain) := by
    simpa [Variables.definitions, Function.comp_def] using congrArg (List.map Prod.snd) h
  unfold bindArguments
  rw [← hsize, coerceArguments_congr hdomains]
  split
  · rfl
  · cases hfitted : coerceArguments arguments others.entries.toList with
    | error error => rfl
    | ok fitted =>
        refine bindFrom_complete h (fun other hother => absurd hother (Nat.not_lt_zero other)) ?_
        have hlength := length_coerceArguments hfitted
        have hentries : others.entries.toList.length = vars.size := hsize.symm
        omega

/-! ## Histories on one store -/

section Histories

/-- The store that a call uses, if it uses one. -/
def Call.source? : Call → Option Source
  | compile source | execute source _ => some source
  | _ => none

/-- Whether calls use one store at most. -/
def AllOn (source : Source) (calls : List Call) : Prop :=
  ∀ call ∈ calls, ∀ other ∈ call.source?, other = source

variable [Regexp.Matcher] {e f later ready : Expression}

/-- What an expression was compiled into is what its operations are compiled into now. -/
structure Settled (source : Source) (e : Expression) : Prop where
  coherent : e.Coherent
  compiled : e.stage ≠ .building → source.failure? = none ∧
    ∃ compiled, RecordQuery.compile source e.vars e.operations.toList = .ok compiled ∧
      e.compiled = some compiled

theorem Coherent.settled_of_building (h : e.Coherent) (hbuilding : e.stage = .building) :
    Settled source e :=
  ⟨h, fun hbuilt => absurd hbuilding hbuilt⟩

theorem Settled.compile (h : Settled source e) (hcompile : e.compile source = .ok ready) :
    Settled source ready := by
  refine ⟨(h.coherent.compile hcompile).1, fun _ => ?_⟩
  rcases compile_cases hcompile with ⟨hbuilt, rfl⟩ | ⟨_, hfailure, compiled, hcompiled, rfl⟩
  · exact h.compiled hbuilt
  · exact ⟨hfailure, compiled, hcompiled, rfl⟩

theorem Settled.of_kept (h : Settled source e) (hbuilt : e.stage ≠ .building)
    (hcoherent : later.Coherent) (hoperations : later.operations = e.operations)
    (hdefinitions : later.vars.definitions = e.vars.definitions)
    (hcompiled : later.compiled = e.compiled) : Settled source later := by
  refine ⟨hcoherent, fun _ => ?_⟩
  obtain ⟨hfailure, compiled, hmade, hsome⟩ := h.compiled hbuilt
  exact ⟨hfailure, compiled, by rw [compile_congr hdefinitions, hoperations, hmade],
    hcompiled.trans hsome⟩

theorem Settled.execute (h : Settled source e) (arguments : List Value) :
    Settled source (e.execute source arguments).1 := by
  have hcoherent := (h.coherent.keeps_execute source arguments).coherent
  have hexecutes := h.coherent.executes source arguments
  generalize (e.execute source arguments).1 = later at hcoherent hexecutes ⊢
  generalize (e.execute source arguments).2 = answer at hexecutes
  -- An execution may compile first; then only values, the result and the text change.
  cases hexecutes with
  | uncompiled _ => exact h
  | unbound hcompile _ => exact h.compile hcompile
  | run hcompile hbind _ _ hconcludes =>
      obtain ⟨hoperations, hvars, hcompiled, _⟩ := hconcludes.kept_parts
      have hdefinitions := (bindArguments_kept hbind).1
      exact (h.compile hcompile).of_kept (built_of_compile hcompile) hcoherent hoperations
        (by rw [hvars, hdefinitions]) hcompiled

theorem stage_perform_of_buildAction {call : Call} {action : Action}
    (hcall : call.buildAction? = some action) : (e.perform call).1.stage = e.stage := by
  have happend (operation : Operation) : (e.orKept (e.append operation)).1.stage = e.stage := by
    unfold append
    cases e.requireBuilding .append <;> rfl
  cases call with
  | compile _ | execute _ _ | reset => cases hcall
  | parse text options => exact (parse_kept e text options).1
  | defineVariable name domain =>
      simp only [perform, defineVariable]
      cases e.requireBuilding .defineVariable <;> rfl
  | appendObject | appendConstant | appendOperation => exact happend _

theorem Settled.perform (h : Settled source e) {call : Call}
    (hcall : ∀ other ∈ call.source?, other = source) : Settled source (e.perform call).1 := by
  have hcoherent := (h.coherent.keeps_perform call).coherent
  cases haction : call.buildAction? with
  | some action =>
      -- Building goes on while building; after that it is refused and changes nothing.
      by_cases hbuilding : e.stage = .building
      · exact hcoherent.settled_of_building
          ((stage_perform_of_buildAction haction).trans hbuilding)
      · rw [perform_eq_of_built hbuilding haction]
        exact h
  | none =>
      cases call with
      | compile other =>
          obtain rfl := hcall other rfl
          cases hcompile : e.compile other with
          | error error =>
              rw [(perform_compile_of_error hcompile).1]
              exact h
          | ok ready =>
              simp only [Expression.perform, hcompile, orKept]
              exact h.compile hcompile
      | execute other arguments =>
          obtain rfl := hcall other rfl
          exact h.execute arguments
      | reset => exact hcoherent.settled_of_building rfl
      | _ => cases haction

theorem Settled.performAll (h : Settled source e) {calls : List Call}
    (hcalls : AllOn source calls) : Settled source (e.performAll calls) := by
  induction calls generalizing e with
  | nil => exact h
  | cons call calls ih =>
      have hstep := h.perform (hcalls call (List.mem_cons_self ..))
      exact ih hstep fun other hmem => hcalls other (List.mem_cons_of_mem _ hmem)

/-! ## Compiling again -/

theorem compile_reset_congr (hoperations : f.operations = e.operations)
    (hdefinitions : f.vars.definitions = e.vars.definitions) (source : Source) :
    (f.reset.compile source).map (·.compiled) = (e.reset.compile source).map (·.compiled) := by
  have hsame : RecordQuery.compile source f.vars f.operations.toList =
      RecordQuery.compile source e.vars e.operations.toList := by
    rw [compile_congr hdefinitions, hoperations]
  simp only [Expression.compile, reset, if_true, hsame]
  cases RecordQuery.compile source e.vars e.operations.toList with
  | error error => rfl
  | ok compiled => cases source.failure? <;> rfl

/-- Compiling again gives what there is already, or what compiling for the first time gives. -/
theorem Settled.compile_reset (h : Settled source e) :
    (e.reset.compile source).map (·.compiled) = (e.compile source).map (·.compiled) := by
  by_cases hbuilding : e.stage = .building
  · simp only [Expression.compile, reset, if_true, hbuilding]
    cases RecordQuery.compile source e.vars e.operations.toList with
    | error error => rfl
    | ok compiled => cases source.failure? <;> rfl
  · obtain ⟨hfailure, compiled, hmade, hsome⟩ := h.compiled hbuilding
    rw [compile_of_built hbuilding]
    simp only [Expression.compile, reset, if_true, hmade, hfailure, Except.map, hsome]

theorem Settled.compile_alike (he : Settled source e) (hf : Settled source f)
    (hoperations : f.operations = e.operations)
    (hdefinitions : f.vars.definitions = e.vars.definitions) :
    (f.compile source).map (·.compiled) = (e.compile source).map (·.compiled) := by
  calc (f.compile source).map (·.compiled)
      = (f.reset.compile source).map (·.compiled) := hf.compile_reset.symm
    _ = (e.reset.compile source).map (·.compiled) :=
        compile_reset_congr hoperations hdefinitions source
    _ = (e.compile source).map (·.compiled) := he.compile_reset

/-! ## Executing again -/

/-- Two expressions answer arguments alike. -/
structure AnswersAlike (source : Source) (arguments : List Value) (e f : Expression) : Prop where
  /-- The value or the failure is the same. -/
  answer : (f.execute source arguments).2 = (e.execute source arguments).2
  /-- After a success the text that was last read is the same. -/
  lastText : ∀ value, (e.execute source arguments).2 = .ok value →
    (f.execute source arguments).1.lastText = (e.execute source arguments).1.lastText
  /-- After a success the fragments of that text are the same. -/
  fragments : ∀ value, (e.execute source arguments).2 = .ok value → ∀ tags options,
    (f.execute source arguments).1.fragments tags options =
      (e.execute source arguments).1.fragments tags options

omit [Regexp.Matcher] in
theorem fragments_congr (hcompiled : f.compiled = e.compiled) (hbuilt : e.compiled.isSome = true)
    (hlastText : f.lastText = e.lastText) (tags : List Tag) (options : Snippet.Options) :
    f.fragments tags options = e.fragments tags options := by
  obtain ⟨compiled, hsome⟩ := Option.isSome_iff_exists.mp hbuilt
  simp only [fragments, snippet, hcompiled, hsome, hlastText]

/-- With arguments for all variables the program runs on nothing else, and whether its value fits
the result is a matter of domains. -/
theorem Alike.answersAlike (h : e.Alike f) (hbuilt : e.compiled.isSome = true)
    (hcomplete : e.vars.size ≤ arguments.length) : AnswersAlike source arguments e f := by
  -- With an argument for each variable nothing is left of the earlier bindings.
  have hbind := bindArguments_complete h.definitions.symm hcomplete
  obtain ⟨compiled, hsome⟩ := Option.isSome_iff_exists.mp hbuilt
  have hruns : (f.execute source arguments).2 = (e.execute source arguments).2 ∧
      ∀ value, (e.execute source arguments).2 = .ok value →
        (f.execute source arguments).1.lastText = (e.execute source arguments).1.lastText := by
    simp only [Expression.execute, compile_of_built h.built, compile_of_built h.otherBuilt, ← hbind]
    cases bindArguments e.vars arguments with
    | error error => exact ⟨rfl, fun value hvalue => by cases hvalue⟩
    | ok bound =>
        simp only [runProgram, h.compiled, hsome]
        cases (Machine.run ⟨source, some bound⟩ compiled.program).result with
        | error error => exact ⟨rfl, fun value hvalue => by cases hvalue⟩
        | ok value =>
            simp only [keepResult, Cell.set, Cell.holding, h.result]
            cases source.failure? with
            | some status => exact ⟨rfl, fun _ _ => rfl⟩
            | none => cases value.coerce e.result.domain <;> exact ⟨rfl, fun _ _ => rfl⟩
  have hkept : (e.execute source arguments).1.compiled = e.compiled :=
    ((Alike.refl h.built).execute source arguments).compiled
  have hotherKept : (f.execute source arguments).1.compiled = e.compiled :=
    (h.execute source arguments).compiled
  refine ⟨hruns.1, hruns.2, fun value hvalue tags options => ?_⟩
  exact fragments_congr (hotherKept.trans hkept.symm) (hkept ▸ hbuilt) (hruns.2 value hvalue) tags
    options

theorem vars_of_compile (h : e.compile source = .ok ready) :
    ready.vars = e.vars := by
  rcases compile_cases h with ⟨_, rfl⟩ | ⟨_, _, _, _, rfl⟩ <;> rfl

/-- Whatever was done with two expressions on one store, they answer alike if they have the same
operations and the same definitions. -/
theorem Settled.answers_alike (he : Settled source e) (hf : Settled source f)
    (hoperations : f.operations = e.operations)
    (hdefinitions : f.vars.definitions = e.vars.definitions)
    (hcomplete : e.vars.size ≤ arguments.length) : AnswersAlike source arguments e f := by
  have hcompile := he.compile_alike hf hoperations hdefinitions
  cases hready : e.compile source with
  | error error =>
      -- Neither expression is executed.
      rw [hready] at hcompile
      have hother := eq_error_of_map_eq_error hcompile
      have hanswer := (perform_compile_of_error hready).2 arguments
      have hotherAnswer := (perform_compile_of_error hother).2 arguments
      refine ⟨by rw [hanswer, hotherAnswer], ?_, ?_⟩
      · intro value hvalue
        rw [hanswer] at hvalue
        cases hvalue
      · intro value hvalue
        rw [hanswer] at hvalue
        cases hvalue
  | ok ready =>
      rw [hready] at hcompile
      obtain ⟨other, hother, hcompiled⟩ := exists_of_map_eq_ok hcompile
      obtain ⟨hcoherent, compiled, hsome⟩ := he.coherent.compile hready
      have hotherCoherent := (hf.coherent.compile hother).1
      have hvars := vars_of_compile hready
      have halike : ready.Alike other :=
        { built := built_of_compile hready
          otherBuilt := built_of_compile hother
          compiled := hcompiled
          definitions := by rw [vars_of_compile hother, hvars, hdefinitions]
          result := by
            rw [hcoherent.result_domain, hotherCoherent.result_domain, range?, range?, hcompiled] }
      have hanswers : AnswersAlike source arguments ready other :=
        halike.answersAlike (by rw [hsome]; rfl) (hvars ▸ hcomplete)
      -- Compiling first makes no difference.
      have hexecute := execute_of_compile hready arguments
      have hotherExecute := execute_of_compile hother arguments
      exact ⟨by rw [hexecute, hotherExecute]; exact hanswers.answer,
        by rw [hexecute, hotherExecute]; exact hanswers.lastText,
        by rw [hexecute, hotherExecute]; exact hanswers.fragments⟩

/-! ## Freshly built expressions -/

/-- Whether an expression has only been built, and has the operations and the definitions of
another one. -/
structure Rebuilds (e f : Expression) : Prop where
  built : ∃ name calls, f = (empty name).performAll calls ∧
    ∀ call ∈ calls, call.buildAction?.isSome = true
  operations : f.operations = e.operations
  definitions : f.vars.definitions = e.vars.definitions

/-- The call that defines a variable. -/
def Call.defining (definition : Option String × Domain) : Call :=
  .defineVariable definition.1 definition.2

/-- The call that adds an operation. -/
def Call.appending (operation : Operation) : Call :=
  match operation.operand with
  | some operand => .appendObject operand operation.operator operation.arity
  | none => .appendOperation operation.operator operation.arity

/-- The calls that build an expression with certain definitions and operations. -/
def building (definitions : List (Option String × Domain)) (operations : List Operation) :
    List Call :=
  definitions.map Call.defining ++ operations.map Call.appending

theorem performAll_append (e : Expression) (calls later : List Call) :
    e.performAll (calls ++ later) = (e.performAll calls).performAll later :=
  List.foldl_append

theorem performAll_defining (hbuilding : e.stage = .building)
    (definitions : List (Option String × Domain)) :
    (e.performAll (definitions.map Call.defining)).stage = .building ∧
      (e.performAll (definitions.map Call.defining)).operations = e.operations ∧
      (e.performAll (definitions.map Call.defining)).vars.definitions =
        e.vars.definitions ++ definitions := by
  induction definitions generalizing e with
  | nil => exact ⟨hbuilding, rfl, (List.append_nil _).symm⟩
  | cons definition definitions ih =>
      have hdefine : (e.perform (.defining definition)).1 =
          { e with vars := e.vars.define definition.1 definition.2 } := by
        simp only [Call.defining, perform, defineVariable, requireBuilding, if_pos hbuilding,
          orKept]
      have hlater := @ih { e with vars := e.vars.define definition.1 definition.2 } hbuilding
      simp only [Variables.definitions_define, List.append_assoc, List.singleton_append] at hlater
      rw [List.map_cons, performAll, List.foldl_cons, hdefine]
      exact hlater

theorem performAll_appending (hbuilding : e.stage = .building) (operations : List Operation) :
    e.performAll (operations.map Call.appending) =
      { e with operations := e.operations ++ operations } := by
  induction operations generalizing e with
  | nil => simp [performAll]
  | cons operation operations ih =>
      have happend : (e.perform (Call.appending operation)).1 =
          { e with operations := e.operations.push operation } := by
        obtain ⟨operator, arity, operand⟩ := operation
        cases operand <;>
          simp only [Call.appending, perform, appendObject, appendOperation, append,
            requireBuilding, if_pos hbuilding, orKept, Operation.apply]
      rw [List.map_cons, performAll, List.foldl_cons, happend]
      refine (@ih { e with operations := e.operations.push operation } hbuilding).trans ?_
      simp

theorem exists_rebuilds (e : Expression) : ∃ f, e.Rebuilds f := by
  obtain ⟨hstage, hoperations, hdefinitions⟩ :=
    performAll_defining (show (empty none).stage = .building from rfl) e.vars.definitions
  refine ⟨(empty none).performAll (building e.vars.definitions e.operations.toList),
    ⟨none, _, rfl, ?_⟩, ?_, ?_⟩
  · intro call hcall
    rcases List.mem_append.mp hcall with hmem | hmem
    · obtain ⟨definition, _, rfl⟩ := List.mem_map.mp hmem
      rfl
    · obtain ⟨⟨operator, arity, operand⟩, _, rfl⟩ := List.mem_map.mp hmem
      cases operand <;> rfl
  · rw [building, performAll_append, performAll_appending hstage, hoperations]
    simp [empty]
  · rw [building, performAll_append, performAll_appending hstage]
    exact hdefinitions

theorem Rebuilds.settled (h : e.Rebuilds f) (source : Source) : Settled source f := by
  obtain ⟨name, calls, rfl, hcalls⟩ := h.built
  have hempty : Settled source (empty name) := (coherent_empty name).settled_of_building rfl
  refine hempty.performAll fun call hmem other hother => ?_
  have hbuilds := hcalls call hmem
  cases call with
  | compile _ | execute _ _ => cases hbuilds
  | _ => cases hother

/-- What was done before with an expression on a store makes no difference.  Calls may have built,
compiled, executed and reset it in any order, with any arguments, and may have failed.  Arguments
for all variables then give the value or the failure that they give to a freshly built expression
with the same operations and definitions and, after a success, the same text and the same fragments
of it.  Compiling after a reset gives the program, the range and the keywords that compiling the
fresh one gives, and those there were before the reset. -/
theorem performAll_forgotten (name : Option String) (source : Source) {calls : List Call}
    (hcalls : AllOn source calls) :
    let e := (empty name).performAll calls
    (∃ f, e.Rebuilds f) ∧
      (∀ f, e.Rebuilds f →
        (∀ arguments, e.vars.size ≤ arguments.length → AnswersAlike source arguments f e) ∧
        (e.reset.compile source).map (·.compiled) = (f.compile source).map (·.compiled)) ∧
      (e.stage ≠ .building → ∃ again, e.reset.compile source = .ok again ∧
        again.program? = e.program? ∧ again.range? = e.range? ∧ again.keywords = e.keywords) := by
  intro e
  have hempty : Settled source (empty name) := (coherent_empty name).settled_of_building rfl
  have he : Settled source e := hempty.performAll hcalls
  refine ⟨exists_rebuilds e, fun f hrebuilds => ⟨?_, ?_⟩, ?_⟩
  · intro arguments hcomplete
    refine (hrebuilds.settled source).answers_alike he hrebuilds.operations.symm
      hrebuilds.definitions.symm ?_
    -- Rebuilding keeps the number of variables, so the arguments are enough for both.
    rwa [← Variables.length_definitions, hrebuilds.definitions, Variables.length_definitions]
  · rw [he.compile_reset]
    exact (hrebuilds.settled source).compile_alike he hrebuilds.operations.symm
      hrebuilds.definitions.symm
  · intro hbuilt
    have hcompile := he.compile_reset
    rw [compile_of_built hbuilt] at hcompile
    obtain ⟨again, hagain, hcompiled⟩ := exists_of_map_eq_ok hcompile
    refine ⟨again, hagain, ?_, ?_, ?_⟩
    · rw [program?, hcompiled, program?]
    · rw [range?, hcompiled, range?]
    · rw [keywords, hcompiled, keywords]

end Histories

/-- Arguments that are refused, a record that does not exist and a reset before another compilation
make no difference. -/
theorem performAll_forgotten_failures :
    let columns : List Column := [⟨"n_likes", .scalar .integer⟩]
    let rows : List Row := [⟨.unknown, [.integer 15]⟩]
    let source := (⟨[⟨"Entries", none, columns, rows⟩], .empty⟩ : MemoryStore).source none
    let calls : List Call := [.defineVariable none (.table ⟨1⟩),
      .defineVariable (some "least") (.scalar .integer), .appendObject (.variableAt 0) .push 1,
      .appendConstant (.text "n_likes") .push 1, .appendOperation .getValue 2,
      .appendObject (.variableAt 1) .push 1, .appendOperation .greaterEqual 2,
      .execute source [.record ⟨⟨1⟩, 1⟩, .integer 20], .execute source [.text "first"],
      .execute source [.record ⟨⟨1⟩, 9⟩], .reset, .compile source]
    let e := (empty none).performAll calls
    (∃ f, e.Rebuilds f) ∧
      ∀ f, e.Rebuilds f →
        (e.execute source [.record ⟨⟨1⟩, 1⟩, .integer 10]).2 = .ok (.boolean true) ∧
          (f.execute source [.record ⟨⟨1⟩, 1⟩, .integer 10]).2 = .ok (.boolean true) := by
  intro columns rows source calls e
  have hcalls : AllOn source calls := by
    intro call hmem other hother
    simp only [calls, List.mem_cons, List.not_mem_nil, or_false] at hmem
    rcases hmem with rfl | rfl | rfl | rfl | rfl | rfl | rfl | rfl | rfl | rfl | rfl | rfl
    all_goals first | exact (Option.some.inj hother).symm | cases hother
  have hanswer : (e.execute source [.record ⟨⟨1⟩, 1⟩, .integer 10]).2 = .ok (.boolean true) := by
    decide +kernel
  have hsize : e.vars.size ≤ 2 := by decide +kernel
  obtain ⟨hexists, halike, _⟩ := performAll_forgotten none source hcalls
  refine ⟨hexists, fun f hrebuilds => ⟨hanswer, ?_⟩⟩
  have hsame := (halike f hrebuilds).1 [.record ⟨⟨1⟩, 1⟩, .integer 10] hsize
  exact hsame.answer.symm.trans hanswer

end Expression

end RecordQuery

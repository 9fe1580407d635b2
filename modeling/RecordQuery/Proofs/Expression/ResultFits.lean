import RecordQuery.Proofs.Compile.RangeSoundness
import RecordQuery.Proofs.Expression.Confinement
import RecordQuery.Proofs.Program.Faults
import RecordQuery.Regexp.Standard

/-!
# Results fit

A compiled expression whose operands belong to a store gives values that the domain of its program
accepts, for later contents of the store and all variables (`Compile.run_convertsTo`).  As the
result is of that domain, an execution never finds that a value does not fit
(`execute_resultFits`), whatever was called before on the compiled expression.

An execution can fail in other ways, and a function may answer any failure, so the failures of the
parts of an execution are told apart (`Error.IsMisfit`).
-/

namespace RecordQuery

/-- Whether an error says that a result does not fit. -/
def Error.IsMisfit : Error → Prop
  | .type (.resultDoesNotFit ..) => True
  | _ => False

theorem Error.IsStepFault.not_isMisfit {error : Error} (h : error.IsStepFault) :
    ¬ error.IsMisfit := by
  intro hmisfit
  unfold IsMisfit at hmisfit
  split at hmisfit
  · exact h
  · exact hmisfit

theorem not_isMisfit_toError (fault : CoercionFault) : ¬ fault.toError.IsMisfit := by
  cases fault <;> exact id

/-! ## Variables -/

/-- Variables of certain definitions that hold values of their domains may be run with. -/
theorem Compile.admits_of_fit {store later : MemoryStore} {vars bound : Variables}
    (hlater : store.Later later) (status : Option Status)
    (hdefinitions : bound.definitions = vars.definitions) (hfit : bound.Fit) :
    Admits store vars ⟨later.source status, some bound⟩ := by
  refine ⟨⟨later, status, hlater, rfl⟩, fun position domain value hdomain hvalue => ?_⟩
  rw [Variables.domain?_eq_definitions, ← hdefinitions, ← Variables.domain?_eq_definitions]
    at hdomain
  obtain ⟨v, hv, rfl⟩ := Option.map_eq_some_iff.mp hdomain
  have hheld : bound.value? position = some v.cell.value := by
    simp [Variables.value?, hv]
  simp only [Environment.variable, hheld, Except.ok.injEq] at hvalue
  rw [← hvalue]
  exact (hfit v (Array.mem_of_getElem? hv)).convertsTo

namespace Expression

variable {source : Source} {arguments : List Value} {e : Expression}

theorem bindFrom_error {vars : Variables} {position : Nat} {values : List Value} {error : Error}
    (h : bindFrom vars position values = .error error) : ¬ error.IsMisfit := by
  induction values generalizing vars position with
  | nil => cases h
  | cons value values ih =>
      rw [bindFrom] at h
      split at h
      · rename_i hbind
        cases h
        unfold Variables.bind at hbind
        split at hbind
        · cases hbind
          exact id
        · split at hbind <;> cases hbind
          exact not_isMisfit_toError _
      · exact ih h

theorem coerceArguments_error {values : List Value} {entries : List Variable} {error : Error}
    (h : coerceArguments values entries = .error error) : ¬ error.IsMisfit := by
  induction values generalizing entries with
  | nil => cases h
  | cons value values ih =>
      cases entries with
      | nil => cases h
      | cons v entries =>
          rw [coerceArguments] at h
          split at h
          · cases h
            exact not_isMisfit_toError _
          · exact ih (eq_error_of_map_eq_error h)

/-- Arguments that are refused are not refused as results. -/
theorem bindArguments_error {vars : Variables} {error : Error}
    (h : bindArguments vars arguments = .error error) : ¬ error.IsMisfit := by
  unfold bindArguments at h
  split at h
  · cases h
    exact id
  · split at h
    · rename_i hcoerce
      cases h
      exact coerceArguments_error hcoerce
    · exact bindFrom_error h

/-! ## Executions -/

/-- An execution of a built expression only finds that a result does not fit because a run gives a
value that the domain of the program does not accept, or because a function answers so. -/
theorem Coherent.execute_misfit [Regexp.Matcher] (h : e.Coherent) {compiled : Compiled}
    (hcompiled : e.compiled = some compiled) {later : Expression} {error : Error}
    (hexecute : e.execute source arguments = (later, .error error)) (herror : error.IsMisfit) :
    (∃ bound value, bound.definitions = e.vars.definitions ∧ bound.Fit ∧
        (Machine.run ⟨source, some bound⟩ compiled.program).result = .ok value ∧
        ¬ value.ConvertsTo compiled.range) ∨
      ∃ function count given, Op.call function count ∈ compiled.program.ops ∧
        function.evaluate given = .error error := by
  have hbuilt : e.stage ≠ .building := h.compiled_iff.mp (by simp [hcompiled])
  have hready := compile_of_built hbuilt source
  have hexecutes := h.executes source arguments
  rw [hexecute] at hexecutes
  -- Of the ways an execution can end, two can report a misfit.
  cases hexecutes with
  | uncompiled hcompile => cases hready.symm.trans hcompile
  | unbound _ hbind => exact absurd herror (bindArguments_error hbind)
  | run hcompile hbind hmade hrun hconcludes =>
      obtain rfl := Except.ok.inj (hready.symm.trans hcompile)
      obtain rfl := Option.some.inj (hcompiled.symm.trans hmade)
      subst hrun
      cases hconcludes with
      | stopped hstopped =>
          rcases Machine.run_error hstopped with hfault | hanswered
          · exact absurd herror hfault.not_isMisfit
          · exact Or.inr hanswered
      | reported _ _ => exact absurd herror id
      | @misfit value fault hvalue hset =>
          obtain ⟨hdefinitions, hfit⟩ := bindArguments_kept hbind
          refine Or.inl ⟨_, value, hdefinitions, hfit h.vars_fit, hvalue, ?_⟩
          rintro ⟨fitted, hfitted⟩
          have hdomain : e.result.domain = compiled.range := by
            rw [h.result_domain, Expression.range?, hcompiled]
            rfl
          simp only [Cell.set, Cell.holding, hdomain, hfitted] at hset
          cases hset

/-- An expression that is made by any calls, whose operands belong to a store, and that compiles
against the store has a program whose values its domain accepts: for later contents of the store and
all variables that hold values of their domains.  So whatever is called on the compiled expression
but a reset, an execution with later contents of the store never finds that the result does not fit,
unless a function that the program calls answers that failure itself.  Executing an expression that
is not compiled yet is executing the compiled one. -/
theorem execute_resultFits [Regexp.Matcher] {functions : Registry} {store : MemoryStore}
    (hstore : (MemoryStore.empty functions).Later store) (name : Option String)
    (before : List Call) {e : Expression} (he : (empty name).performAll before = e)
    (hbuilding : e.stage = .building)
    (hoperations : ∀ operation ∈ e.operations.toList, ∀ operand ∈ operation.operand,
      operand.Belongs store)
    {status : Option Status} {ready : Expression}
    (hcompile : e.compile (store.source status) = .ok ready) :
    ∃ compiled, ready.compiled = some compiled ∧
      (∀ (later : MemoryStore) (bound : Variables) (status : Option Status) (value : Value),
        store.Later later → bound.definitions = e.vars.definitions → bound.Fit →
        (Machine.run ⟨later.source status, some bound⟩ compiled.program).result = .ok value →
          value.ConvertsTo compiled.range) ∧
      (∀ arguments,
        e.execute (store.source status) arguments = ready.execute (store.source status) arguments) ∧
      ∀ (calls : List Call) (later : MemoryStore) (status : Option Status)
        (arguments : List Value) (range : Domain) (fault : CoercionFault),
        (∀ call ∈ calls, call ≠ .reset) → store.Later later →
        ((ready.performAll calls).execute (later.source status) arguments).2 =
          .error (.type (.resultDoesNotFit range fault)) →
          ∃ function count given, Op.call function count ∈ compiled.program.ops ∧
            function.evaluate given = .error (.type (.resultDoesNotFit range fault)) := by
  have htyped := hstore.typed (MemoryStore.typed_empty functions)
  have hcoherent : e.Coherent := he ▸ ((coherent_empty name).keeps_performAll before).coherent
  rcases compile_cases hcompile with ⟨hbuilt, _⟩ | ⟨_, _, compiled, hcompiled, rfl⟩
  · exact absurd hbuilding hbuilt
  have hrun (later : MemoryStore) (bound : Variables) (status : Option Status) (value : Value)
      (hlater : store.Later later) (hdefinitions : bound.definitions = e.vars.definitions)
      (hfit : bound.Fit)
      (hvalue : (Machine.run ⟨later.source status, some bound⟩ compiled.program).result =
        .ok value) : value.ConvertsTo compiled.range :=
    Compile.run_convertsTo htyped hoperations hcompiled
      (Compile.admits_of_fit hlater status hdefinitions hfit) hvalue
  refine ⟨compiled, rfl, hrun, execute_of_compile hcompile, ?_⟩
  intro calls later status arguments range fault hcalls hlater hexecute
  -- Whatever was called, the program is the same, and so are the definitions of the variables.
  have hready := (hcoherent.compile hcompile).1
  have halike := (Alike.refl (built_of_compile hcompile)).performAll hcalls
  rcases (hready.keeps_performAll calls).coherent.execute_misfit halike.compiled
    (Prod.ext rfl hexecute) trivial with ⟨bound, value, hdefinitions, hfit, hvalue, hrefused⟩ | h
  · exact absurd
      (hrun later bound status value hlater (hdefinitions.trans halike.definitions) hfit hvalue)
      hrefused
  · exact h

/-- The length of a text column times an integer column is an integer, also after the integer
column has changed. -/
theorem execute_resultFits_product :
    let items (rows : List Row) : MemoryStore :=
      ⟨[⟨"Items", none, [⟨"title", .scalar .text⟩, ⟨"price", .scalar .integer⟩], rows⟩], .empty⟩
    let lamp (price : Value) : MemoryStore := items [⟨.unknown, [.text "lamp", price]⟩]
    let e := (empty none).performAll
      [.defineVariable none (.table ⟨1⟩),
        .appendObject (.object (.function ScalarFunction.length)) .push 1,
        .appendObject (.variableAt 0) .push 1, .appendConstant (.text "title") .push 1,
        .appendOperation .getValue 2, .appendOperation .call 1,
        .appendObject (.variableAt 0) .push 1, .appendConstant (.text "price") .push 1,
        .appendOperation .getValue 2, .appendOperation .times 2]
    ∃ ready compiled, e.compile ((lamp (.integer 15)).source none) = .ok ready ∧
      ready.compiled = some compiled ∧
      (ready.execute ((lamp (.integer 20)).source none) [.record ⟨⟨1⟩, 1⟩]).2 =
        .ok (.integer 80) ∧
      (Value.integer 80).ConvertsTo compiled.range := by
  intro items lamp e
  have hprice (before : Value) (price : Int64) :
      (lamp before).setValue ⟨⟨1⟩, 1⟩ "price" (.integer price) = .ok (lamp (.integer price)) := rfl
  let noColumns : MemoryStore := ⟨[⟨"Items", none, [], []⟩], .empty⟩
  let titles : MemoryStore := ⟨[⟨"Items", none, [⟨"title", .scalar .text⟩], []⟩], .empty⟩
  let noValues : MemoryStore := items [⟨.unknown, [.null .text, .null .integer]⟩]
  have htable : (MemoryStore.empty .empty).createTable "Items" none = .ok (⟨1⟩, noColumns) := rfl
  have htitles : noColumns.addColumn ⟨1⟩ "title" (.scalar .text) = .ok (.stored 0, titles) := rfl
  have hprices : titles.addColumn ⟨1⟩ "price" (.scalar .integer) =
      .ok (.stored 1, items []) := rfl
  have hrecord : (items []).addRecord ⟨1⟩ none = .ok (⟨⟨1⟩, 1⟩, noValues) := rfl
  have htitle : noValues.setValue ⟨⟨1⟩, 1⟩ "title" (.text "lamp") =
      .ok (lamp (.null .integer)) := rfl
  have hadded : (MemoryStore.empty .empty).Later noValues :=
    .head (.createTable htable) (.head (.addColumn htitles) (.head (.addColumn hprices)
      (.single (.addRecord hrecord))))
  have hstore : (MemoryStore.empty .empty).Later (lamp (.integer 15)) :=
    (hadded.tail (.setValue htitle)).tail (.setValue (hprice _ 15))
  have hlater : (lamp (.integer 15)).Later (lamp (.integer 20)) := .single (.setValue (hprice _ 20))
  have hlength : ScalarFunction.length.KeepsType :=
    ScalarFunction.keepsType_of_mem_builtins (by simp [ScalarFunction.builtins])
  have hoperands : ∀ operation ∈ e.operations.toList, ∀ operand ∈ operation.operand,
      operand.Belongs (lamp (.integer 15)) := by
    have hoperations : e.operations.toList =
        [.push (.object (.function ScalarFunction.length)), .push (.variableAt 0),
          .pushValue (.text "title"), .apply .getValue 2, .apply .call 1, .push (.variableAt 0),
          .pushValue (.text "price"), .apply .getValue 2, .apply .times 2] := rfl
    rw [hoperations]
    simp [Operation.push, Operation.pushValue, Operation.apply, Operand.ofValue, Operand.Belongs,
      ObjectRef.Belongs, Cell.fits_free, hlength]
  obtain ⟨ready, compiled, bound, hcompile, hcompiled, hanswer, hbound, hvalue⟩ :
      ∃ ready compiled bound, e.compile ((lamp (.integer 15)).source none) = .ok ready ∧
        ready.compiled = some compiled ∧
        (ready.execute ((lamp (.integer 20)).source none) [.record ⟨⟨1⟩, 1⟩]).2 =
          .ok (.integer 80) ∧
        bindArguments e.vars [.record ⟨⟨1⟩, 1⟩] = .ok bound ∧
        (Machine.run ⟨(lamp (.integer 20)).source none, some bound⟩ compiled.program).result =
          .ok (.integer 80) := by
    refine ⟨_, _, _, rfl, rfl, ?_, rfl, ?_⟩
    · decide +kernel
    · decide +kernel
  obtain ⟨made, hmade, hrun, _⟩ :=
    execute_resultFits hstore none _ (e := e) rfl rfl hoperands hcompile
  obtain rfl := Option.some.inj (hcompiled.symm.trans hmade)
  obtain ⟨hdefinitions, hfit⟩ := bindArguments_kept hbound
  have hvars : e.vars.Fit := ((coherent_empty none).keeps_performAll _).coherent.vars_fit
  exact ⟨ready, compiled, hcompile, hcompiled, hanswer,
    hrun _ bound none _ hlater hdefinitions (hfit hvars) hvalue⟩

end Expression

end RecordQuery

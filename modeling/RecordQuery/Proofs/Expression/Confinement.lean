import RecordQuery.MemoryStore.Source
import RecordQuery.Proofs.Compile.Confinement
import RecordQuery.Proofs.Expression.Lifecycle
import RecordQuery.Regexp.Standard

/-!
# Texts from outside stay in the default column

A text that is read without column clauses adds operations that only read the default column
(`OnlyReads`).  Whatever the text says, executing the expression on a record depends on nothing of
the record but the first column of that path (`parse_confined`).

Two executions are compared by what they share: the program, the definitions of the variables and
the domain of the result (`Alike`).  Executing keeps that, so it does not matter what was executed
before.
-/

namespace RecordQuery

namespace Expression

variable {vars others : Variables} {table : TableId} {r q : RecordRef} {source : Source}
  {arguments : List Value}

/-! ## Arguments -/

theorem bindFrom_congr (h : vars.definitions = others.definitions) (position : Nat)
    (values : List Value) :
    (∃ error, bindFrom vars position values = .error error ∧
        bindFrom others position values = .error error) ∨
      ∃ bound otherBound, bindFrom vars position values = .ok bound ∧
        bindFrom others position values = .ok otherBound := by
  induction values generalizing vars others position with
  | nil => exact Or.inr ⟨vars, others, rfl, rfl⟩
  | cons value values ih =>
      simp only [bindFrom]
      rcases Variables.bind_congr h position value with
        ⟨error, hvars, hothers⟩ | ⟨bound, otherBound, hvars, hothers⟩
      · exact Or.inl ⟨error, by rw [hvars], by rw [hothers]⟩
      · rw [hvars, hothers]
        refine ih ?_ (position + 1)
        rw [Variables.definitions_bind hvars, Variables.definitions_bind hothers, h]

/-- Values bound from a position on leave the variables before it. -/
theorem value?_bindFrom {bound : Variables} {position other : Nat} {values : List Value}
    (h : bindFrom vars position values = .ok bound) (hother : other < position) :
    bound.value? other = vars.value? other := by
  induction values generalizing vars position with
  | nil =>
      cases h
      rfl
  | cons value values ih =>
      rw [bindFrom] at h
      split at h
      · cases h
      · rename_i between hbind
        rw [ih h (by omega), Variables.value?_bind_of_ne hbind (by omega)]

/-- What arguments are converted into depends on the domains of the variables only. -/
theorem coerceArguments_congr {entries otherEntries : List Variable}
    (h : entries.map (·.cell.domain) = otherEntries.map (·.cell.domain)) (values : List Value) :
    coerceArguments values entries = coerceArguments values otherEntries := by
  induction values generalizing entries otherEntries with
  | nil => rfl
  | cons value values ih =>
      cases entries with
      | nil =>
          rw [List.map_nil, Eq.comm, List.map_eq_nil_iff] at h
          rw [h]
      | cons v entries =>
          obtain ⟨w, otherEntries, rfl, hdomain, hlater⟩ := List.map_eq_cons_iff.mp h.symm
          simp only [coerceArguments, hdomain, ih hlater.symm]

theorem coerceArguments_record {entries : List Variable}
    (hentries : (entries.map (·.cell.domain)).head? = some (.table table)) (hr : r.table = table)
    (arguments : List Value) :
    coerceArguments (.record r :: arguments) entries =
      (coerceArguments arguments entries.tail).map fun later => .record r :: later := by
  obtain ⟨v, later, rfl⟩ : ∃ v later, entries = v :: later := by
    cases entries with
    | nil => cases hentries
    | cons v later => exact ⟨v, later, rfl⟩
  have hdomain : v.cell.domain = .table table := Option.some.inj hentries
  simp only [coerceArguments, hdomain, Value.coerce, Value.toRecordOf, hr, if_true, List.tail_cons]

theorem head?_domains {domain : Domain} (h : vars.domain? 0 = some domain) :
    (vars.entries.toList.map (·.cell.domain)).head? = some domain := by
  rw [List.head?_eq_getElem?, List.getElem?_map]
  simpa [Variables.domain?, Variables.get?] using h

/-- Values that start with one record of the table are bound like those that start with another
one. -/
theorem bindFrom_record_congr (h : vars.definitions = others.definitions)
    (hvars : vars.domain? 0 = some (.table table))
    (hothers : others.domain? 0 = some (.table table)) (hr : r.table = table)
    (hq : q.table = table) (values : List Value) :
    (∃ error, bindFrom vars 0 (.record r :: values) = .error error ∧
        bindFrom others 0 (.record q :: values) = .error error) ∨
      ∃ bound otherBound, bindFrom vars 0 (.record r :: values) = .ok bound ∧
        bindFrom others 0 (.record q :: values) = .ok otherBound ∧
        bound.value? 0 = some (.record r) ∧ otherBound.value? 0 = some (.record q) := by
  have hfits {record : RecordRef} (htable : record.table = table) :
      (Value.record record).coerce (.table table) = .ok (.record record) := if_pos htable
  obtain ⟨first, hfirst, hvalue⟩ := Variables.exists_bind hvars (hfits hr)
  obtain ⟨otherFirst, hotherFirst, hotherValue⟩ := Variables.exists_bind hothers (hfits hq)
  have hdefinitions : first.definitions = otherFirst.definitions := by
    rw [Variables.definitions_bind hfirst, Variables.definitions_bind hotherFirst, h]
  simp only [bindFrom, hfirst, hotherFirst]
  rcases bindFrom_congr hdefinitions (0 + 1) values with
    ⟨error, hbound, hotherBound⟩ | ⟨bound, otherBound, hbound, hotherBound⟩
  · exact Or.inl ⟨error, hbound, hotherBound⟩
  · refine Or.inr ⟨bound, otherBound, hbound, hotherBound, ?_, ?_⟩
    · rw [value?_bindFrom hbound (by omega), hvalue]
    · rw [value?_bindFrom hotherBound (by omega), hotherValue]

/-- Arguments that start with one record of the table are accepted like those that start with
another one. -/
theorem bindArguments_congr (h : vars.definitions = others.definitions)
    (hrecord : vars.domain? 0 = some (.table table)) (hr : r.table = table)
    (hq : q.table = table) (arguments : List Value) :
    (∃ error, bindArguments vars (.record r :: arguments) = .error error ∧
        bindArguments others (.record q :: arguments) = .error error) ∨
      ∃ bound otherBound, bindArguments vars (.record r :: arguments) = .ok bound ∧
        bindArguments others (.record q :: arguments) = .ok otherBound ∧
        bound.value? 0 = some (.record r) ∧ otherBound.value? 0 = some (.record q) := by
  have hsize : vars.size = others.size := by
    rw [← Variables.length_definitions, ← Variables.length_definitions, h]
  have hdomains : vars.entries.toList.map (·.cell.domain) =
      others.entries.toList.map (·.cell.domain) := by
    simpa [Variables.definitions, Function.comp_def] using congrArg (List.map Prod.snd) h
  have hrecordOther : others.domain? 0 = some (.table table) := by
    rw [Variables.domain?_eq_definitions, ← h, ← Variables.domain?_eq_definitions, hrecord]
  have htail : coerceArguments arguments others.entries.toList.tail =
      coerceArguments arguments vars.entries.toList.tail := by
    refine coerceArguments_congr ?_ arguments
    rw [List.map_tail, List.map_tail, hdomains]
  unfold bindArguments
  rw [coerceArguments_record (head?_domains hrecord) hr,
    coerceArguments_record (head?_domains hrecordOther) hq, htail, ← hsize, List.length_cons,
    List.length_cons]
  split
  · exact Or.inl ⟨_, rfl, rfl⟩
  · cases coerceArguments arguments vars.entries.toList.tail with
    | error error => exact Or.inl ⟨error, rfl, rfl⟩
    | ok fitted => exact bindFrom_record_congr h hrecord hrecordOther hr hq fitted

/-! ## Executions -/

/-- What two built expressions share whose executions are compared. -/
structure Alike (e f : Expression) : Prop where
  /-- The first expression is built. -/
  built : e.stage ≠ .building
  /-- The second expression is built. -/
  otherBuilt : f.stage ≠ .building
  /-- The program is the same. -/
  compiled : f.compiled = e.compiled
  /-- The variables have the same definitions. -/
  definitions : f.vars.definitions = e.vars.definitions
  /-- The results are of the same domain. -/
  result : f.result.domain = e.result.domain

variable {e f ready : Expression}

theorem Alike.refl (h : e.stage ≠ .building) : e.Alike e := ⟨h, h, rfl, rfl, rfl⟩

theorem Alike.of_alike {g : Expression} (hf : e.Alike f) (hg : e.Alike g) : f.Alike g :=
  ⟨hf.otherBuilt, hg.otherBuilt, hg.compiled.trans hf.compiled.symm,
    hg.definitions.trans hf.definitions.symm, hg.result.trans hf.result.symm⟩

section Executions

variable [Regexp.Matcher]

theorem compile_of_built (h : e.stage ≠ .building) (source : Source) : e.compile source = .ok e :=
  if_neg h

theorem built_of_compile (h : e.compile source = .ok ready) : ready.stage ≠ .building := by
  rcases compile_cases h with ⟨hbuilt, rfl⟩ | ⟨_, _, _, _, rfl⟩
  · exact hbuilt
  · exact fun hstage => by cases hstage

/-- Compiling first makes no difference to an execution. -/
theorem execute_of_compile (h : e.compile source = .ok ready) (arguments : List Value) :
    e.execute source arguments = ready.execute source arguments := by
  simp only [execute, h, compile_of_built (built_of_compile h)]

/-- Executing keeps what executions share. -/
theorem Alike.execute (h : e.Alike f) (source : Source) (arguments : List Value) :
    e.Alike (f.execute source arguments).1 := by
  simp only [Expression.execute, compile_of_built h.otherBuilt]
  cases hbind : bindArguments f.vars arguments with
  | error error => exact h
  | ok vars =>
      have hdefinitions := (bindArguments_kept hbind).1.trans h.definitions
      have hbound : e.Alike { f with vars := vars } :=
        ⟨h.built, h.otherBuilt, h.compiled, hdefinitions, h.result⟩
      simp only [runProgram, keepResult]
      split
      · exact hbound
      · split
        · exact ⟨h.built, h.otherBuilt, h.compiled, hdefinitions, h.result⟩
        · split
          · exact ⟨h.built, h.otherBuilt, h.compiled, hdefinitions, h.result⟩
          · split
            · exact ⟨h.built, h.otherBuilt, h.compiled, hdefinitions, h.result⟩
            · rename_i result hset
              exact ⟨h.built, fun hstage => (by cases hstage), h.compiled, hdefinitions,
                (Cell.fits_of_set hset).2.trans h.result⟩

/-- Every call but a reset keeps what executions share. -/
theorem Alike.perform (h : e.Alike f) {call : Call} (hcall : call ≠ .reset) :
    e.Alike (f.perform call).1 := by
  cases haction : call.buildAction? with
  | some action =>
      rw [perform_eq_of_built h.otherBuilt haction]
      exact h
  | none =>
      cases call with
      | compile source =>
          simp only [Expression.perform, compile_of_built h.otherBuilt, orKept]
          exact h
      | execute source arguments => exact h.execute source arguments
      | reset => exact absurd rfl hcall
      | _ => cases haction

theorem Alike.performAll (h : e.Alike f) {calls : List Call}
    (hcalls : ∀ call ∈ calls, call ≠ .reset) : e.Alike (f.performAll calls) := by
  induction calls generalizing f with
  | nil => exact h
  | cons call calls ih =>
      exact ih (h.perform (hcalls call (List.mem_cons_self ..)))
        fun other hmem => hcalls other (List.mem_cons_of_mem _ hmem)

/-- Two built expressions with one program that only reads certain columns answer alike for records
that are alike in those. -/
theorem Alike.answer_congr {compiled : Compiled} {columns : ColumnRef → Prop} {ops : List Op}
    (h : e.Alike f) (hcompiled : e.compiled = some compiled)
    (hprogram : compiled.program = .ofOps ops) (hops : ReadsColumns columns ops)
    (hrecord : e.vars.domain? 0 = some (.table table))
    (hr : r.table = table) (hq : q.table = table)
    (hcolumns : ∀ column, columns column →
      Machine.readColumn source (.record r) column = Machine.readColumn source (.record q) column)
    (arguments : List Value) :
    (e.execute source (.record r :: arguments)).2 =
      (f.execute source (.record q :: arguments)).2 := by
  simp only [Expression.execute, compile_of_built h.built, compile_of_built h.otherBuilt]
  rcases bindArguments_congr h.definitions.symm hrecord hr hq arguments with
    ⟨error, hbound, hotherBound⟩ | ⟨bound, otherBound, hbound, hotherBound, hvalue, hotherValue⟩
  · simp only [hbound, hotherBound]
  · -- The only step that looks at the record reads a column the two agree on.
    have hread (column : ColumnRef) (hcolumn : columns column) (state : Machine.State) :
        Machine.step ⟨source, some bound⟩ state (.loadVariableColumn 0 column) =
          Machine.step ⟨source, some otherBound⟩ state (.loadVariableColumn 0 column) := by
      simp only [Machine.step, Environment.variable, hvalue, hotherValue,
        Machine.State.readColumn, hcolumns column hcolumn]
    have hrun : Machine.run ⟨source, some bound⟩ compiled.program =
        Machine.run ⟨source, some otherBound⟩ compiled.program := by
      rw [hprogram]
      refine Machine.run_congr ?_ hread hops
      rfl
    simp only [hbound, hotherBound, runProgram, hcompiled, h.compiled, hrun, keepResult]
    cases (Machine.run ⟨source, some otherBound⟩ compiled.program).result with
    | error error => rfl
    | ok value =>
        simp only
        split
        · rfl
        · simp only [Cell.set, Cell.holding, h.result]
          cases value.coerce e.result.domain <;> rfl

/-! ## Parsed expressions -/

omit [Regexp.Matcher] in
/-- What a text that is read without column clauses adds to an expression. -/
theorem exists_onlyReads_parse {options : ParseOptions} (hgrammar : options.grammar = .columnQuery)
    (e : Expression) (text : String) :
    ∃ added, (e.parse text options).1.operations.toList = e.operations.toList ++ added ∧
      OnlyReads options.defaultColumn added := by
  unfold parse
  split
  · exact ⟨[], by simp, .nil⟩
  · split
    · exact ⟨[], by simp, .nil⟩
    · rename_i hoptions
      have hreads := parseText_onlyReads hgrammar hoptions (e.vars.size != 0) text
      simp only
      split <;> exact ⟨_, Array.toList_appendList, hreads⟩

omit [Regexp.Matcher] in
theorem parse_kept (e : Expression) (text : String) (options : ParseOptions) :
    (e.parse text options).1.stage = e.stage ∧ (e.parse text options).1.vars = e.vars := by
  unfold parse
  split
  · exact ⟨rfl, rfl⟩
  · split
    · exact ⟨rfl, rfl⟩
    · simp only
      split <;> exact ⟨rfl, rfl⟩

/-- Executions of an expression that does not compile change nothing. -/
theorem performAll_of_error {error : Error} (hcompile : e.compile source = .error error)
    {calls : List Call} (hcalls : ∀ call ∈ calls, ∃ arguments, call = .execute source arguments) :
    e.performAll calls = e := by
  induction calls with
  | nil => rfl
  | cons call calls ih =>
      obtain ⟨arguments, rfl⟩ := hcalls call (List.mem_cons_self ..)
      have hkept : (e.perform (.execute source arguments)).1 = e := by
        simp only [perform, Expression.execute, hcompile]
      rw [Expression.performAll, List.foldl_cons, hkept]
      exact ih fun other hmem => hcalls other (List.mem_cons_of_mem _ hmem)

/-- After executions an expression that compiles is executed like one that has been compiled. -/
theorem exists_alike_performAll (hcompile : e.compile source = .ok ready) {calls : List Call}
    (hcalls : ∀ call ∈ calls, ∃ arguments, call = .execute source arguments) :
    ∃ f, ready.Alike f ∧ ∀ arguments,
      (e.performAll calls).execute source arguments = f.execute source arguments := by
  have hready := Alike.refl (built_of_compile hcompile)
  cases calls with
  | nil => exact ⟨ready, hready, execute_of_compile hcompile⟩
  | cons call calls =>
      obtain ⟨arguments, rfl⟩ := hcalls call (List.mem_cons_self ..)
      have hfirst : (e.perform (.execute source arguments)).1 =
          (ready.execute source arguments).1 := by
        simp only [perform, execute_of_compile hcompile]
      have hlater : ∀ call ∈ calls, call ≠ .reset := by
        rintro call hmem rfl
        obtain ⟨_, hreset⟩ := hcalls _ (List.mem_cons_of_mem _ hmem)
        cases hreset
      refine ⟨_, (hready.execute source arguments).performAll hlater, fun given => ?_⟩
      rw [Expression.performAll, List.foldl_cons, hfirst]
      rfl

/-- Two executions of an expression that only reads a path of variable 0 answer alike for records
that are alike in the first column of the path, whatever was executed before. -/
theorem execute_congr_of_onlyReads {path : Option String} (hbuilding : e.stage = .building)
    (hreads : OnlyReads path e.operations.toList)
    (hrecord : e.vars.domain? 0 = some (.table table)) (hr : r.table = table)
    (hq : q.table = table) (hrNil : r.isNil = false) (hqNil : q.isNil = false)
    (hvalue : ∀ column, FirstColumn source table path column →
      source.value r column.id = source.value q column.id)
    {before otherBefore : List Call}
    (hbefore : ∀ call ∈ before, ∃ given, call = .execute source given)
    (hotherBefore : ∀ call ∈ otherBefore, ∃ given, call = .execute source given)
    (arguments : List Value) :
    ((e.performAll before).execute source (.record r :: arguments)).2 =
      ((e.performAll otherBefore).execute source (.record q :: arguments)).2 := by
  cases hcompile : e.compile source with
  | error error =>
      rw [performAll_of_error hcompile hbefore, performAll_of_error hcompile hotherBefore]
      simp only [execute, hcompile]
  | ok ready =>
      obtain ⟨compiled, hcompiled, hready⟩ : ∃ compiled,
          RecordQuery.compile source e.vars e.operations.toList = .ok compiled ∧
            ready.compiled = some compiled ∧ ready.vars = e.vars := by
        rcases compile_cases hcompile with ⟨hbuilt, _⟩ | ⟨_, _, compiled, hcompiled, rfl⟩
        · exact absurd hbuilding hbuilt
        · exact ⟨compiled, hcompiled, rfl, rfl⟩
      obtain ⟨ops, hprogram, hops⟩ := Compile.compile_readsColumns hreads hrecord hcompiled
      -- Earlier executions leave behind a text and bindings, on which no answer depends.
      obtain ⟨f, hf, hanswer⟩ := exists_alike_performAll hcompile hbefore
      obtain ⟨g, hg, hotherAnswer⟩ := exists_alike_performAll hcompile hotherBefore
      have hfRecord : f.vars.domain? 0 = some (.table table) := by
        rw [Variables.domain?_eq_definitions, hf.definitions, hready.2,
          ← Variables.domain?_eq_definitions, hrecord]
      have hcolumns (column : ColumnRef) (hcolumn : FirstColumn source table path column) :
          Machine.readColumn source (.record r) column =
            Machine.readColumn source (.record q) column :=
        Machine.readColumn_congr (hr.trans hq.symm) hrNil hqNil (hvalue column hcolumn)
      rw [hanswer, hotherAnswer]
      exact (hf.of_alike hg).answer_congr (hf.compiled.trans hready.1) hprogram hops hfRecord hr hq
        hcolumns arguments

/-- A text that is read without column clauses, to its end or not, adds operations to an expression
that only read the default column.  They call no function, and what they push is the record or a
text.  So executing an expression of such operations alone on a record depends on nothing of the
record but the first column of the path: two records of the table for which the store answers the
same there give the same value or the same failure, whatever the text says and whatever else was
executed before. -/
theorem parse_confined (e : Expression) {options : ParseOptions}
    (hgrammar : options.grammar = .columnQuery) (text : String) :
    let parsed := (e.parse text options).1
    (∃ added, parsed.operations.toList = e.operations.toList ++ added ∧
      OnlyReads options.defaultColumn added ∧
      ∀ operation ∈ added, operation.operator ≠ .call ∧
        (operation.operand = none ∨ operation.operand = some (.variableAt 0) ∨
          ∃ s, operation.operand = some (.ofValue (.text s)))) ∧
      ∀ (table : TableId) (source : Source) (r q : RecordRef) (arguments : List Value)
        (before otherBefore : List Call),
        e.stage = .building → e.operations = #[] → e.vars.domain? 0 = some (.table table) →
        r.table = table → q.table = table → r.isNil = false → q.isNil = false →
        (∀ column, FirstColumn source table options.defaultColumn column →
          source.value r column.id = source.value q column.id) →
        (∀ call ∈ before ++ otherBefore, ∃ given, call = .execute source given) →
        ((parsed.performAll before).execute source (.record r :: arguments)).2 =
          ((parsed.performAll otherBefore).execute source (.record q :: arguments)).2 := by
  intro parsed
  obtain ⟨added, hadded, hreads⟩ := exists_onlyReads_parse hgrammar e text
  refine ⟨⟨added, hadded, hreads, hreads.operands⟩, ?_⟩
  intro table source r q arguments before otherBefore hbuilding hempty hrecord hr hq hrNil hqNil
    hvalue hcalls
  have honly : OnlyReads options.defaultColumn parsed.operations.toList := by
    rw [hadded, hempty]
    exact hreads
  obtain ⟨hstage, hvars⟩ := parse_kept e text options
  obtain ⟨hbefore, hotherBefore⟩ := List.forall_mem_append.mp hcalls
  exact execute_congr_of_onlyReads (hstage.trans hbuilding) honly (hvars ▸ hrecord) hr hq hrNil
    hqNil hvalue hbefore hotherBefore arguments

end Executions

/-- A text that looks like a condition on another column is a keyword, so two records that differ
in that column are not told apart. -/
theorem parse_confined_columnSyntax :
    let columns : List Column := [⟨"content", .scalar .text⟩, ⟨"n_likes", .scalar .integer⟩]
    let rows : List Row := [⟨.unknown, [.text "fast", .integer 15]⟩,
      ⟨.unknown, [.text "fast", .integer 3]⟩]
    let source := (⟨[⟨"Entries", none, columns, rows⟩], .empty⟩ : MemoryStore).source none
    let e : Expression := { empty none with vars := Variables.empty.define none (.table ⟨1⟩) }
    let options : ParseOptions := { defaultColumn := some "content", grammar := .columnQuery }
    let parsed := (e.parse "n_likes:>=10" options).1
    (parsed.execute source [.record ⟨⟨1⟩, 1⟩]).2 = .ok (.boolean false) ∧
      (parsed.execute source [.record ⟨⟨1⟩, 2⟩]).2 = .ok (.boolean false) := by
  intro columns rows source e options parsed
  have hfirst : (parsed.execute source [.record ⟨⟨1⟩, 1⟩]).2 = .ok (.boolean false) := by
    decide +kernel
  -- The two records differ in `n_likes` alone, which the query reads as a keyword.
  have hcontent (column : ColumnRef) (h : FirstColumn source ⟨1⟩ options.defaultColumn column) :
      source.value ⟨⟨1⟩, 1⟩ column.id = source.value ⟨⟨1⟩, 2⟩ column.id := by
    obtain ⟨path, name, hpath, hname, hcolumn⟩ := h
    cases hpath
    have hsegment : (Text.segments "content").head? = some "content" := by decide +kernel
    obtain rfl := Option.some.inj (hname.symm.trans hsegment)
    have hresolved : source.column ⟨1⟩ "content" =
        .ok ⟨⟨1⟩, .stored 0, "Entries.content", .scalar .text⟩ := by decide +kernel
    obtain rfl := Except.ok.inj (hcolumn.symm.trans hresolved)
    decide +kernel
  have hgrammar : options.grammar = .columnQuery := rfl
  obtain ⟨_, hconfined⟩ := parse_confined e hgrammar "n_likes:>=10"
  have hsame := hconfined ⟨1⟩ source ⟨⟨1⟩, 1⟩ ⟨⟨1⟩, 2⟩ [] [] [] rfl rfl rfl rfl rfl rfl rfl hcontent
    (by simp)
  exact ⟨hfirst, hsame.symm.trans hfirst⟩

end Expression

end RecordQuery

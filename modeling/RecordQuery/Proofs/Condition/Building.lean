import RecordQuery.Proofs.Condition.Answers
import RecordQuery.Proofs.Expression.History
import RecordQuery.Proofs.Expression.ResultFits
import RecordQuery.Regexp.Standard

/-!
# Builders keep the meaning of conditions

A builder adds the operations of a condition to an expression on the records of its table and
compiles it (`Condition.toExpression_eq`).  The program answers what the condition means
(`CompiledAs.answer_eq`), because the compiler keeps the tree that the operations make.  An
execution answers the same unless it refuses the value (`CompiledAs.execute_eq`), which it never
does for a set nor on a store that keeps to its domains (`CompiledAs.meaning_bind_kept`).
-/

namespace RecordQuery

/-- Whether a source reads from a store that was filled from an empty one and whose functions keep
to their types. -/
def Source.Orderly (source : Source) : Prop :=
  ∃ (functions : Registry) (store : MemoryStore) (status : Option Status),
    (MemoryStore.empty functions).Later store ∧ source = store.source status ∧
    ∀ name function, store.resolve name = .ok (.function function) → function.KeepsType

namespace Expression

/-- The value of a run as an execution answers it, which refuses a value that the domain of the
program does not accept. -/
def kept (range : Domain) (value : Value) : Except Error Value :=
  match value.coerce range with
  | .error fault => .error (.type (.resultDoesNotFit range fault))
  | .ok _ => .ok value

theorem kept_of_convertsTo {range : Domain} {value : Value} (h : value.ConvertsTo range) :
    kept range value = .ok value := by
  obtain ⟨fitted, hfitted⟩ := h
  simp only [kept, hfitted]

/-- A built expression executes like its program runs, but for values that are refused. -/
theorem execute_eq_answer [Regexp.Matcher] {e : Expression} {source : Source} {compiled : Compiled}
    (hbuilt : e.stage ≠ .building) (hcompiled : e.compiled = some compiled)
    (hresult : e.result.domain = compiled.range) (hfailure : source.failure? = none)
    (arguments : List Value) :
    (e.execute source arguments).2 = (e.answer source arguments).bind (kept compiled.range) := by
  simp only [execute, compile_of_built hbuilt, answer, hcompiled]
  cases bindArguments e.vars arguments with
  | error error => rfl
  | ok vars =>
      simp only [runProgram]
      cases (Machine.run ⟨source, some vars⟩ compiled.program).result with
      | error error => rfl
      | ok value =>
          simp only [keepResult, hfailure, Cell.set, Cell.holding, hresult, Except.bind, kept]
          cases value.coerce compiled.range <;> rfl

end Expression

namespace Condition

variable {source : Source} {name : Option String} {table : TableId} {record : RecordRef}
  {condition : Condition} {ready : Expression} {compiled : Compiled}

/-! ## Programs of conditions -/

section Compiled

variable [Regexp.Matcher]

/-- Whether an expression on records was compiled into a program for a proper condition. -/
structure CompiledAs (condition : Condition) (source : Source) (table : TableId)
    (ready : Expression) (compiled : Compiled) : Prop where
  /-- No set is empty and all queries can be read. -/
  proper : condition.Proper
  /-- No comparison calls its operands. -/
  fits : condition.Fits
  /-- The program is compiled from the operations of the condition. -/
  program : compile source (scopeOf source table).vars condition.operations = .ok compiled
  /-- The store reports no failure. -/
  failure : source.failure? = none
  /-- The expression is built. -/
  built : ready.stage ≠ .building
  /-- The program is that of the expression. -/
  made : ready.compiled = some compiled
  /-- The only variable is for records of the table. -/
  vars : ready.vars = (scopeOf source table).vars
  /-- The result is of the domain found at compile time. -/
  result : ready.result.domain = compiled.range

theorem exists_compiledAs (hproper : condition.Proper)
    (hready : ((Expression.onRecords name table).extend condition.operations).compile source =
      .ok ready) :
    ∃ compiled, condition.CompiledAs source table ready compiled := by
  have hlist : ((Expression.onRecords name table).extend condition.operations).operations.toList =
      condition.operations := by
    simp [Expression.extend, Expression.onRecords, Expression.empty]
  rcases Expression.compile_cases hready with ⟨hbuilt, _⟩ | ⟨_, hfailure, compiled, hcompile, rfl⟩
  · exact absurd rfl hbuilt
  · rw [hlist] at hcompile
    obtain ⟨haccepts, hslots⟩ := Compile.slots_of_compile hcompile
    exact ⟨compiled,
      { proper := hproper
        fits := (fits_of_slots condition hproper haccepts hslots).2 rfl
        program := hcompile
        failure := hfailure
        built := Expression.built_of_compile hready
        made := rfl
        vars := rfl
        result := rfl }⟩

theorem CompiledAs.plain (h : condition.CompiledAs source table ready compiled) :
    ∀ operation ∈ condition.operations, operation.Plain :=
  (addsSlot condition h.proper h.fits).plain

theorem CompiledAs.exists_item (h : condition.CompiledAs source table ready compiled) :
    ∃ item tree, condition.operations.foldlM (Item.afterOperation? source) [] = some [item] ∧
      item.tree? = some tree ∧ compiled.range = (tree.static (scopeOf source table)).domain ∧
      ∀ env, Machine.run env compiled.program = (tree.eval (scopeOf source table) env).outcome :=
  Compile.exists_item_of_compile (fun operation hmem => (h.plain operation hmem).operator) h.program

omit [Regexp.Matcher] in
/-- A record can be bound to the variable for records of its table. -/
theorem exists_runsOn (hfailure : source.failure? = none) (record : RecordRef) :
    ∃ bound, Expression.bindArguments (scopeOf source record.table).vars [.record record] =
        .ok bound ∧
      RunsOn source record ⟨source, some bound⟩ := by
  have hdomain : (scopeOf source record.table).vars.domain? 0 = some (.table record.table) := rfl
  have hfits : (Value.record record).coerce (.table record.table) = .ok (.record record) :=
    if_pos rfl
  obtain ⟨bound, hbound, hvalue⟩ := Variables.exists_bind hdomain hfits
  have hcount : ¬ (scopeOf source record.table).vars.size < [Value.record record].length :=
    Nat.lt_irrefl 1
  have hbinds : Expression.bindArguments (scopeOf source record.table).vars [.record record] =
      .ok bound := by
    rw [Expression.bindArguments, if_neg hcount,
      Expression.coerceArguments_record (Expression.head?_domains hdomain) rfl]
    simp only [Expression.coerceArguments, Except.map, Expression.bindFrom, hbound]
  refine ⟨bound, hbinds, hfailure, ⟨bound, rfl, hbinds⟩, ?_⟩
  simp only [Environment.variable, hvalue]

/-- The program that is compiled for a condition answers what the condition means. -/
theorem CompiledAs.answer_eq (h : condition.CompiledAs source record.table ready compiled) :
    ready.answer source [.record record] = condition.meaning source record := by
  obtain ⟨bound, hbound, hruns⟩ := exists_runsOn h.failure record
  obtain ⟨item, tree, hitem, htree, hanswer⟩ := denotes hruns condition h.proper h.fits h.program
  obtain ⟨other, otherTree, hother, hotherTree, -, hrun⟩ := h.exists_item
  -- The tree of the condition is the one that the compiler keeps.
  obtain rfl : item = other := List.singleton_inj.mp (Option.some.inj (hitem.symm.trans hother))
  obtain rfl : tree = otherTree := Option.some.inj (htree.symm.trans hotherTree)
  simp only [Expression.answer, h.made, h.vars, hbound, hrun, Evaluation.result_outcome]
  exact hanswer

/-! ## Values that are not refused -/

/-- A connective leaves the tree of a truth. -/
theorem domain_of_connective {operations : List Operation} {operator : Operator}
    {connective : Connective} {count : Nat} {item : Item} {tree : Tree}
    (hoperator : operator.connective? = some connective)
    (hitem :
      (operations ++ [Operation.apply operator count]).foldlM (Item.afterOperation? source) [] =
        some [item])
    (htree : item.tree? = some tree) :
    (tree.static (scopeOf source table)).domain = .scalar .boolean := by
  obtain ⟨hpush, -, -⟩ := neededSlots_of_connective hoperator count
  rw [List.foldlM_append] at hitem
  obtain ⟨items, -, hlast⟩ := Option.bind_eq_some_iff.mp hitem
  rw [List.foldlM_cons] at hlast
  obtain ⟨after, hafter, heq⟩ := Option.bind_eq_some_iff.mp hlast
  obtain rfl : after = [item] := Option.some.inj heq
  rw [Item.afterOperation?_eq] at hafter
  simp only [Operation.apply, Item.afterOperator?, if_neg hpush,
    Compile.Tree.combine?_of_connective hoperator] at hafter
  split at hafter
  · cases hafter
  · obtain ⟨joined, hjoined, hitems⟩ := Option.map_eq_some_iff.mp hafter
    obtain ⟨trees, -, rfl⟩ := Option.map_eq_some_iff.mp hjoined
    obtain ⟨rfl, -⟩ := List.cons.inj hitems
    obtain rfl : Tree.connect connective trees = tree := Option.some.inj htree
    rw [Tree.static]
    unfold Static.ofResult
    split <;> rfl

/-- Whether a condition is a set. -/
def IsSet : Condition → Prop
  | all _ | any _ => True
  | _ => False

theorem IsSet.meaning (h : condition.IsSet) {value : Value}
    (hvalue : condition.meaning source record = .ok value) : value.dataType = .boolean := by
  cases condition with
  | comparison | query => exact h.elim
  | all members | any members =>
      rw [Condition.meaning] at hvalue
      obtain ⟨values, -, rfl⟩ := exists_of_map_eq_ok hvalue
      rfl

/-- The program for a set is one for truths. -/
theorem CompiledAs.range_of_isSet (h : condition.CompiledAs source table ready compiled)
    (hset : condition.IsSet) : compiled.range = .scalar .boolean := by
  obtain ⟨item, tree, hitem, htree, hrange, -⟩ := h.exists_item
  rw [hrange]
  cases condition with
  | comparison | query => exact hset.elim
  | all members =>
      have hall : Operator.and.connective? = some .and := rfl
      exact domain_of_connective hall hitem htree
  | any members =>
      have hany : Operator.or.connective? = some .or := rfl
      exact domain_of_connective hany hitem htree

omit [Regexp.Matcher] in
/-- Plain operands belong to every store whose functions keep to their types. -/
theorem belongs_of_plain {store : MemoryStore}
    (hfunctions : ∀ name function, store.resolve name = .ok (.function function) →
      function.KeepsType) {operand : Operand} (h : operand.Plain) : operand.Belongs store := by
  cases operand with
  | variableAt position => trivial
  | object object => exact h.elim
  | name name => exact hfunctions name
  | constant cell =>
      obtain ⟨value, domain⟩ := cell
      obtain rfl : domain = .any := h
      exact Cell.fits_free value

/-- On a store that keeps to its domains no answer is refused. -/
theorem CompiledAs.convertsTo_of_orderly
    (h : condition.CompiledAs source table ready compiled) (horderly : source.Orderly)
    {arguments : List Value} {value : Value}
    (hanswer : ready.answer source arguments = .ok value) : value.ConvertsTo compiled.range := by
  obtain ⟨functions, store, status, hstore, rfl, hfunctions⟩ := horderly
  simp only [Expression.answer, h.made] at hanswer
  split at hanswer
  · cases hanswer
  · rename_i bound hbound
    rw [h.vars] at hbound
    obtain ⟨hdefinitions, hfit⟩ := Expression.bindArguments_kept hbound
    have hlater : store.Later store := .refl
    have hadmits := Compile.admits_of_fit hlater status hdefinitions
      (hfit (Variables.fit_empty.define none (.table table)))
    exact Compile.run_convertsTo (hstore.typed (MemoryStore.typed_empty functions))
      (fun operation hmem operand hoperand =>
        belongs_of_plain hfunctions ((h.plain operation hmem).operand operand hoperand))
      h.program hadmits hanswer

/-- What a condition means is not refused as the result: if it is a set, which means a truth, and
whenever the store keeps to its domains. -/
theorem CompiledAs.meaning_bind_kept
    (h : condition.CompiledAs source record.table ready compiled)
    (hkept : condition.IsSet ∨ source.Orderly) :
    (condition.meaning source record).bind (Expression.kept compiled.range) =
      condition.meaning source record := by
  cases hmeaning : condition.meaning source record with
  | error error => rfl
  | ok value =>
      refine Expression.kept_of_convertsTo ?_
      rcases hkept with hset | horderly
      · have hboolean := value.convertsTo_dataType
        rwa [hset.meaning hmeaning, ← h.range_of_isSet hset] at hboolean
      · exact h.convertsTo_of_orderly horderly (h.answer_eq.trans hmeaning)

/-! ## Executions -/

/-- The expression executes as the condition means, whatever was executed before, but for values
that are refused. -/
theorem CompiledAs.execute_eq (h : condition.CompiledAs source record.table ready compiled)
    {calls : List Expression.Call} (hcalls : ∀ call ∈ calls, call ≠ .reset) :
    ((ready.performAll calls).execute source [.record record]).2 =
      (condition.meaning source record).bind (Expression.kept compiled.range) := by
  -- The record is an argument for the only variable, so earlier executions leave nothing.
  have hcomplete : ready.vars.size ≤ [Value.record record].length := by
    rw [h.vars]
    exact Nat.le_refl 1
  have hanswers : Expression.AnswersAlike source [.record record] ready (ready.performAll calls) :=
    ((Expression.Alike.refl h.built).performAll hcalls).answersAlike (by rw [h.made]; rfl)
      hcomplete
  rw [hanswers.answer, Expression.execute_eq_answer h.built h.made h.result h.failure,
    h.answer_eq]

end Compiled

/-- Sets that differ in how members are nested are both sets, and all other conditions are the
same. -/
theorem isSet_or_eq_of_flattened {other : Condition}
    (h : other.flattened = condition.flattened) :
    condition.IsSet ∧ other.IsSet ∨ other = condition := by
  cases condition with
  | comparison operator column value =>
      cases other <;> cases h
      exact Or.inr rfl
  | query text options =>
      cases other <;> cases h
      exact Or.inr rfl
  | all members | any members =>
      cases other <;> first | cases h | exact Or.inl ⟨trivial, trivial⟩

/-- Conditions that differ in how members are nested execute alike. -/
theorem CompiledAs.execute_congr [Regexp.Matcher] {other : Condition} {otherReady : Expression}
    {otherCompiled : Compiled} (h : condition.CompiledAs source record.table ready compiled)
    (hother : other.CompiledAs source record.table otherReady otherCompiled)
    (hflattened : other.flattened = condition.flattened) :
    (otherReady.execute source [.record record]).2 = (ready.execute source [.record record]).2 := by
  have hnone (call : Expression.Call) (hmem : call ∈ []) : call ≠ .reset :=
    absurd hmem List.not_mem_nil
  have hmeaning : other.meaning source record = condition.meaning source record :=
    meaning_congr hflattened
  have hrange : (other.meaning source record).bind (Expression.kept otherCompiled.range) =
      (condition.meaning source record).bind (Expression.kept compiled.range) := by
    -- The domains of two sets are the same, and nothing else differs in how members are nested.
    rcases isSet_or_eq_of_flattened hflattened with ⟨hset, hotherSet⟩ | rfl
    · rw [hother.meaning_bind_kept (Or.inl hotherSet), h.meaning_bind_kept (Or.inl hset), hmeaning]
    · rw [Except.ok.inj (hother.program.symm.trans h.program)]
  calc (otherReady.execute source [.record record]).2
      = (other.meaning source record).bind (Expression.kept otherCompiled.range) :=
        hother.execute_eq hnone
    _ = (condition.meaning source record).bind (Expression.kept compiled.range) := hrange
    _ = (ready.execute source [.record record]).2 := (h.execute_eq hnone).symm

/-! ## Whole builders -/

theorem allProper_append {first later : List Condition} (hfirst : AllProper first)
    (hlater : AllProper later) : AllProper (first ++ later) := by
  induction first with
  | nil => exact hlater
  | cons member first ih => exact ⟨hfirst.1, ih hfirst.2⟩

theorem Proper.and {first second : Condition} (hfirst : first.Proper) (hsecond : second.Proper) :
    (first.and second).Proper := by
  cases first with
  | all members =>
      exact ⟨List.append_ne_nil_of_right_ne_nil _ (List.cons_ne_nil _ _),
        allProper_append hfirst.2 ⟨hsecond, trivial⟩⟩
  | _ => exact ⟨List.cons_ne_nil _ _, hfirst, hsecond, trivial⟩

theorem isSet_and (first second : Condition) : (first.and second).IsSet := by
  cases first <;> trivial

/-- A condition together with a query, if there is one. -/
def conjoined : Option Condition → Condition → Condition
  | some text, condition => all [text, condition]
  | none, condition => condition

/-- A query and a condition are combined into one that differs from their conjunction only in how
members are nested. -/
theorem exists_combined {query : Option Condition} (hquery : ∀ text ∈ query, text.Proper)
    (hproper : condition.Proper) :
    ∃ whole, combine query (some condition) = some whole ∧ whole.Proper ∧
      whole.flattened = (conjoined query condition).flattened ∧
      (query.isSome = true ∨ condition.IsSet → whole.IsSet) := by
  cases query with
  | none => exact ⟨condition, rfl, hproper, rfl, fun h => h.resolve_left Bool.false_ne_true⟩
  | some query =>
      exact ⟨query.and condition, rfl, (hquery query rfl).and hproper,
        flattened_and query condition, fun _ => isSet_and query condition⟩

theorem flattened_conjoined {query : Option Condition} {other : Condition}
    (h : other.flattened = condition.flattened) :
    (conjoined query other).flattened = (conjoined query condition).flattened := by
  cases query with
  | none => exact h
  | some text => simp only [conjoined, flattened, conjuncts, h]

/-- Building adds the operations of a proper condition to an expression on records. -/
theorem toExpression_eq [Regexp.Matcher] (source : Source) (name : Option String) (table : TableId)
    (hproper : condition.Proper) :
    toExpression source name table (some condition) =
      ((Expression.onRecords name table).extend condition.operations).compile source := by
  have hnonempty : condition.isEmpty = false := by
    cases condition with
    | comparison | query => rfl
    | all members | any members => simpa [isEmpty] using hproper.1
  have hvars : (Expression.onRecords name table).vars.size ≠ 0 := Nat.one_ne_zero
  have hbuilding : (Expression.onRecords name table).stage = .building := rfl
  have hadded := addTo_eq condition hproper hbuilding hvars
  have hdefined : (Expression.empty name).defineVariable none (.table table) =
      .ok (Expression.onRecords name table) := rfl
  simp [toExpression, hdefined, hnonempty, hadded]

end Condition

/-- What builders make of a condition and their query.  If no set is empty and all queries can be
read, the condition is added to an expression, which compiles or not.  If it compiles, then whatever
was executed before, it answers for every record of the table what the conjunction of the query and
the condition means, but that a value is refused which the domain found at compile time does not
accept.  No value is refused if there is a query, if the condition is a set, or if the columns and
the functions of the store keep to their domains.

It does not matter how members are nested: conditions that are the same when members of the same
kind have given way to their members execute alike.  What `and` and `or` make of two conditions is
the same in this sense as the set of both, and so is a set with a set of its kind among its members
as the set with the members of that one. -/
theorem RecordBuilder.build_meaning [Regexp.Matcher] {source : Source} (builder : RecordBuilder)
    {condition : Condition} (hquery : ∀ query ∈ builder.query, query.Proper)
    (hproper : condition.Proper) :
    (∃ built : Expression, built.stage = .building ∧
      builder.build source (some condition) = built.compile source ∧
      (∀ column : ColumnBuilder, column.column.table = builder.table →
        column.name = builder.name → column.query = builder.query →
        column.build source (some condition) = built.compile source) ∧
      ∀ ready, built.compile source = .ok ready → ∃ range, ready.range? = some range ∧
        (∀ record calls, record.table = builder.table → (∀ call ∈ calls, call ≠ .reset) →
          ((ready.performAll calls).execute source [.record record]).2 =
            ((Condition.conjoined builder.query condition).meaning source record).bind
              (Expression.kept range)) ∧
        (builder.query.isSome = true ∨ condition.IsSet ∨ source.Orderly →
          ∀ record, record.table = builder.table →
            ((Condition.conjoined builder.query condition).meaning source record).bind
                (Expression.kept range) =
              (Condition.conjoined builder.query condition).meaning source record) ∧
        ∀ other otherReady, other.Proper → other.flattened = condition.flattened →
          builder.build source (some other) = .ok otherReady →
          ∀ record, record.table = builder.table →
            (otherReady.execute source [.record record]).2 =
              (ready.execute source [.record record]).2) ∧
      (∀ first second : Condition,
        (first.and second).flattened = (Condition.all [first, second]).flattened ∧
        (first.or second).flattened = (Condition.any [first, second]).flattened) ∧
      ∀ before inner after : List Condition,
        (Condition.all (before ++ .all inner :: after)).flattened =
          (Condition.all (before ++ (inner ++ after))).flattened ∧
        (Condition.any (before ++ .any inner :: after)).flattened =
          (Condition.any (before ++ (inner ++ after))).flattened := by
  obtain ⟨table, name, query⟩ := builder
  -- The query and the condition are one condition, to which all the parts speak.
  obtain ⟨whole, hcombine, hwhole, hflattened, hset⟩ := Condition.exists_combined hquery hproper
  have hbuild : Condition.toExpression source name table
        (Condition.combine query (some condition)) =
      ((Expression.onRecords name table).extend whole.operations).compile source := by
    rw [hcombine, Condition.toExpression_eq source name table hwhole]
  refine ⟨⟨(Expression.onRecords name table).extend whole.operations, rfl, hbuild, ?_, ?_⟩, ?_, ?_⟩
  · rintro ⟨column, _, _⟩ rfl rfl rfl
    exact hbuild
  · intro ready hready
    obtain ⟨compiled, hcompiled⟩ := Condition.exists_compiledAs hwhole hready
    refine ⟨compiled.range, by simp [Expression.range?, hcompiled.made], ?_, ?_, ?_⟩
    · rintro record calls rfl hcalls
      rw [hcompiled.execute_eq hcalls, Condition.meaning_congr hflattened]
    · rintro hkept record rfl
      have hwholeKept : whole.IsSet ∨ source.Orderly := (or_assoc.mpr hkept).imp_left hset
      rw [← Condition.meaning_congr hflattened]
      exact hcompiled.meaning_bind_kept hwholeKept
    · rintro other otherReady hother hsame hotherReady record rfl
      obtain ⟨otherWhole, hotherCombine, hotherWhole, hotherFlattened, -⟩ :=
        Condition.exists_combined hquery hother
      rw [build, hotherCombine, Condition.toExpression_eq source name record.table hotherWhole]
        at hotherReady
      obtain ⟨otherCompiled, hotherCompiled⟩ := Condition.exists_compiledAs hotherWhole hotherReady
      refine hcompiled.execute_congr hotherCompiled ?_
      rw [hotherFlattened, hflattened, Condition.flattened_conjoined hsame]
  · exact fun first second =>
      ⟨Condition.flattened_and first second, Condition.flattened_or first second⟩
  · exact fun before inner after =>
      ⟨Condition.flattened_all_nested before inner after,
        Condition.flattened_any_nested before inner after⟩

/-- A person whose superior is the first one, which an integer names, or whose name starts with a B,
with a query on the names. -/
theorem RecordBuilder.build_meaning_superior :
    let columns : List Column := [⟨"name", .scalar .text⟩, ⟨"superior", .table ⟨1⟩⟩]
    let rows : List Row := [⟨.unknown, [.text "Ann", .null .record]⟩,
      ⟨.unknown, [.text "Joann", .record ⟨⟨1⟩, 1⟩]⟩]
    let source := (⟨[⟨"People", none, columns, rows⟩], .empty⟩ : MemoryStore).source none
    let query := Condition.query "ann" { defaultColumn := some "name" }
    let builder : RecordBuilder := { table := ⟨1⟩, query := some query }
    let condition := (Condition.comparison .equal "superior" (.integer 1)).or
      (.comparison .startsWith "name" (.text "B"))
    ∃ ready, builder.build source (some condition) = .ok ready ∧
      (ready.execute source [.record ⟨⟨1⟩, 2⟩]).2 = .ok (.boolean true) ∧
      (Condition.all [query, condition]).meaning source ⟨⟨1⟩, 2⟩ = .ok (.boolean true) := by
  intro columns rows source query builder condition
  have hread : (parseText { defaultColumn := some "name" } true "ann").outcome = .ok 1 := by
    decide +kernel
  have hquery : query.Proper := ⟨rfl, 1, hread⟩
  have hcondition : condition.Proper := ⟨List.cons_ne_nil _ _, trivial, trivial, trivial⟩
  have hanswers : (builder.build source (some condition)).map (fun ready =>
      (ready.execute source [.record ⟨⟨1⟩, 2⟩]).2) = .ok (.ok (.boolean true)) := by
    decide +kernel
  obtain ⟨ready, hready, hanswer⟩ := exists_of_map_eq_ok hanswers
  have hqueries (text : Condition) (htext : text ∈ builder.query) : text.Proper :=
    Option.some.inj htext ▸ hquery
  obtain ⟨⟨built, -, hbuilt, -, hmeans⟩, -⟩ := builder.build_meaning hqueries hcondition
  obtain ⟨range, -, hexecutes, hkept, -⟩ := hmeans ready (hbuilt.symm.trans hready)
  have hmeaning : (ready.execute source [.record ⟨⟨1⟩, 2⟩]).2 =
      (Condition.all [query, condition]).meaning source ⟨⟨1⟩, 2⟩ :=
    (hexecutes ⟨⟨1⟩, 2⟩ [] rfl fun _ hmem => absurd hmem List.not_mem_nil).trans
      (hkept (Or.inl rfl) ⟨⟨1⟩, 2⟩ rfl)
  exact ⟨ready, hready, hanswer, hmeaning.symm.trans hanswer⟩

end RecordQuery

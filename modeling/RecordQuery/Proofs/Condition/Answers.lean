import RecordQuery.Proofs.Compile.Correctness
import RecordQuery.Proofs.Compile.Locality
import RecordQuery.Proofs.Condition.Operations
import RecordQuery.Proofs.Expression.Confinement

/-!
# Conditions that compile answer what they mean

The operations of a condition make one tree (`Condition.denotes`).  For a comparison this tree is
known (`comparisonTree`), so its answer can be computed.  A query that compiles alone has a tree
because it compiles, and the answer of that tree is what the query answers alone.  The members of a
set make trees one after the other, and a connective joins their answers (`DenotesAll.connect`);
that queries among them compile alone follows from the set being compiled (`compile_members`).
-/

namespace RecordQuery

open Compile (Scope)

namespace Expression

/-- Operations that compile make a compiled expression on records, unless the store reports a
failure. -/
theorem exists_compiled [Regexp.Matcher] {source : Source} {table : TableId}
    {operations : List Operation}
    {compiled : Compiled} (name : Option String) (hfailure : source.failure? = none)
    (h : RecordQuery.compile source (onRecords none table).vars operations = .ok compiled) :
    ∃ ready, ((onRecords name table).extend operations).compile source = .ok ready ∧
      ready.vars = (onRecords name table).vars ∧ ready.compiled = some compiled := by
  have hlist : ((onRecords name table).extend operations).operations.toList = operations := by
    simp [extend, onRecords, empty]
  have hvars : (onRecords name table).vars = (onRecords none table).vars := rfl
  refine ⟨{ (onRecords name table).extend operations with
    stage := .compiled
    compiled := some compiled
    result := .empty compiled.range }, ?_, rfl, rfl⟩
  have hcompile : RecordQuery.compile source ((onRecords name table).extend operations).vars
      ((onRecords name table).extend operations).operations.toList = .ok compiled := by
    rw [hlist, vars_extend, hvars, h]
  rw [compile, if_pos (by rfl), hcompile]
  simp only [hfailure]

end Expression

namespace Condition

/-! ## Comparisons -/

/-- The tree that reads a column of the record in variable 0. -/
def columnTree (name : String) : Tree :=
  .getValue (.variableAt 0) (.constant (.free (.text name)))

/-- The tree of a comparison. -/
def comparisonTree (operator : Operator) (name : String) (constant : Value) : Tree :=
  match operator.connective?, operator.binary? with
  | some connective, _ => .connect connective [columnTree name, .constant (.free constant)]
  | none, some operation => .binary operation (columnTree name) (.constant (.free constant))
  | none, none => .getValue (columnTree name) (.constant (.free constant))

theorem foldlM_comparisonOperations {source : Source} {operator : Operator}
    (h : operator.JoinsTwo) (name : String) (constant : Value) :
    (comparisonOperations operator name constant).foldlM (Item.afterOperation? source) [] =
      some [.tree (comparisonTree operator name constant)] := by
  obtain ⟨harity, hcall⟩ := h
  cases operator <;> first | rfl | exact absurd rfl hcall | cases harity

/-- A constant operand is compared as the reference that it names beside a column of records. -/
theorem comparedValues_column (operation : Binary) (column : ColumnRef) (domain : Domain)
    (held constant : Value) :
    Static.comparedValues operation ⟨column.range, none⟩ ⟨domain, some constant⟩ held constant =
      (held, if operation.operator.isComparison then
        ({ column := column } : ColumnBuilder).comparand constant else constant) := by
  have hleft (other : Domain) :
      (⟨column.range, none⟩ : Static).referenceBeside? other = none := by
    unfold Static.referenceBeside?
    cases other <;> rfl
  have hright : ((⟨domain, some constant⟩ : Static).referenceBeside? column.range).getD constant =
      ({ column := column } : ColumnBuilder).comparand constant := by
    unfold Static.referenceBeside? ColumnBuilder.comparand
    cases column.range with
    | any | scalar type => rfl
    | table table =>
        cases constant with
        | integer n =>
            simp only [Value.coerce]
            cases (Value.integer n).toRecordOf table <;> rfl
        | _ => rfl
  unfold Static.comparedValues
  split
  · simp only [hleft, hright, Option.getD_none]
  · rfl

variable [Regexp.Matcher]

section Comparisons

variable {source : Source} {vars : Variables} {env : Environment} {record : RecordRef}
  {name : String}

theorem columnOf?_columnTree (source : Source) (name : String)
    (hdomain : vars.domain? 0 = some (.table record.table)) :
    ((Tree.variableAt 0).static ⟨source, vars⟩).columnOf? source
        ((Tree.constant (.free (.text name))).static ⟨source, vars⟩) =
      (source.column record.table name).toOption := by
  simp [Tree.static, Static.columnOf?, hdomain, Cell.free]

theorem static_columnTree {column : ColumnRef}
    (hdomain : vars.domain? 0 = some (.table record.table))
    (hcolumn : source.column record.table name = .ok column) :
    (columnTree name).static ⟨source, vars⟩ = ⟨column.range, none⟩ := by
  have hfound := columnOf?_columnTree source name hdomain
  simp only [columnTree, Tree.static] at hfound ⊢
  simp only [hfound, hcolumn, Except.toOption]

theorem answer_columnTree (name : String) (hdomain : vars.domain? 0 = some (.table record.table))
    (hsource : env.source = source) (hrecord : env.variable 0 = .ok (.record record)) :
    ((columnTree name).eval ⟨source, vars⟩ env).answer =
      match source.column record.table name with
      | .error status => .error (.store .runtime status)
      | .ok column => (Machine.readColumn source (.record record) column).map Prod.fst := by
  have hfound := columnOf?_columnTree source name hdomain
  simp only [columnTree, Tree.eval, hfound, hrecord, hsource, Evaluation.ofExcept_ok,
    Evaluation.pure_bind]
  cases hcolumn : source.column record.table name with
  | error status => simp [Except.toOption, Evaluation.readNamed, Cell.free, hcolumn]
  | ok column => simp [Except.toOption, Evaluation.answer_readColumn]

section Constants

variable {scope : Scope} {left : Tree} {constant : Value}

theorem answer_connect_constant (connective : Connective) :
    ((Tree.connect connective [left, .constant (.free constant)]).eval scope env).answer =
      (left.eval scope env).answer.bind fun held =>
        .ok (.boolean (connective.holds [held, constant])) := by
  have hsteady (held : Value) : ((evalAll scope env [.constant (.free constant)]).map
      fun later => held :: later).Steady := (steady_evalAll scope env _).map _
  have hpair (values : List Value) :
      (Evaluation.pure (Value.boolean (connective.holds values))).Steady :=
    Evaluation.steady_pure _
  rw [Tree.eval, Evaluation.answer_bind hpair, evalAll, Evaluation.answer_bind hsteady]
  cases (left.eval scope env).answer <;> rfl

theorem answer_binary_constant (operation : Binary) :
    ((Tree.binary operation left (.constant (.free constant))).eval scope env).answer =
      (left.eval scope env).answer.bind fun held =>
        let values := Static.comparedValues operation (left.static scope)
          ((Tree.constant (.free constant)).static scope) held constant
        operation.apply values.1 values.2 := by
  simp only [Tree.eval, Evaluation.pure_bind]
  rw [Evaluation.answer_bind fun held => Evaluation.steady_ofExcept _]
  simp only [Evaluation.answer_ofExcept]
  rfl

theorem answer_getValue_constant :
    ((Tree.getValue left (.constant (.free constant))).eval scope env).answer =
      (left.eval scope env).answer.bind fun held =>
        match (left.static scope).columnOf? scope.source
          ((Tree.constant (.free constant)).static scope) with
        | some next => (Machine.readColumn env.source held next).map Prod.fst
        | none => (Evaluation.readNamed env.source held constant).answer := by
  simp only [Tree.eval, Evaluation.pure_bind]
  cases (left.static scope).columnOf? scope.source
      ((Tree.constant (.free constant)).static scope) with
  | some next =>
      simp only
      rw [Evaluation.answer_bind fun held => Evaluation.steady_readColumn env.source held next]
      simp only [Evaluation.answer_readColumn]
  | none =>
      exact Evaluation.answer_bind fun held => Evaluation.steady_readNamed env.source held constant

end Constants

/-- A comparison answers what it means. -/
theorem answer_comparisonTree {operator : Operator} {constant : Value}
    (hdomain : vars.domain? 0 = some (.table record.table))
    (hsource : env.source = source) (hrecord : env.variable 0 = .ok (.record record)) :
    ((comparisonTree operator name constant).eval ⟨source, vars⟩ env).answer =
      (comparison operator name constant).meaning source record := by
  have hread := answer_columnTree name hdomain hsource hrecord
  cases hcolumn : source.column record.table name with
  | error status =>
      rw [hcolumn] at hread
      simp only [meaning, hcolumn, comparisonTree]
      split
      · rw [answer_connect_constant, hread]
        rfl
      · rw [answer_binary_constant, hread]
        rfl
      · rw [answer_getValue_constant, hread]
        rfl
  | ok column =>
      have hstatic := static_columnTree hdomain hcolumn
      rw [hcolumn] at hread
      -- Reading the column comes first in all three trees and fails alike.
      have hmeaning (answer : Value → Except Error Value)
          (hanswer : ∀ held, answer held = applied source operator column held constant) :
          ((Machine.readColumn source (.record record) column).map Prod.fst).bind answer =
            (comparison operator name constant).meaning source record := by
        simp only [meaning, hcolumn]
        cases Machine.readColumn source (.record record) column with
        | error error => rfl
        | ok answered => exact hanswer answered.1
      unfold comparisonTree
      split
      · rename_i connective hconnective
        rw [answer_connect_constant, hread]
        refine hmeaning _ fun held => ?_
        simp only [applied, hconnective]
      · rename_i operation hconnective hbinary
        rw [answer_binary_constant, hread]
        refine hmeaning _ fun held => ?_
        rw [hstatic]
        simp only [Tree.static, comparedValues_column, applied, hconnective, hbinary,
          Binary.operator_of_binary? hbinary, Cell.free]
      · rename_i hconnective hbinary
        rw [answer_getValue_constant, hread]
        refine hmeaning _ fun held => ?_
        rw [hstatic]
        simp only [applied, hconnective, hbinary, hsource]
        rfl

end Comparisons

/-! ## Sets and queries -/

/-- Whether operations make one tree, which answers something. -/
def Denotes (scope : Scope) (env : Environment) (operations : List Operation)
    (answer : Except Error Value) : Prop :=
  ∃ item tree, operations.foldlM (Item.afterOperation? scope.source) [] = some [item] ∧
    item.tree? = some tree ∧ (tree.eval scope env).answer = answer

/-- Whether operations make trees, the last one on top, which answer something in order. -/
def DenotesAll (scope : Scope) (env : Environment) (operations : List Operation) (count : Nat)
    (answers : Except Error (List Value)) : Prop :=
  ∃ (items : List Item) (trees : List Tree),
    operations.foldlM (Item.afterOperation? scope.source) [] = some items.reverse ∧
    items.length = count ∧ items.mapM Item.tree? = some trees ∧
    (evalAll scope env trees).answer = answers

section Denoting

variable {scope : Scope} {env : Environment} {operations later : List Operation}

theorem DenotesAll.nil : DenotesAll scope env [] 0 (.ok []) := ⟨[], [], rfl, rfl, rfl, rfl⟩

theorem Denotes.cons {count : Nat} {answer : Except Error Value}
    {answers : Except Error (List Value)} (h : Denotes scope env operations answer)
    (hlater : DenotesAll scope env later count answers) :
    DenotesAll scope env (operations ++ later) (count + 1)
      (answer.bind fun value => answers.map fun values => value :: values) := by
  obtain ⟨item, tree, hitem, htree, rfl⟩ := h
  obtain ⟨items, trees, hitems, rfl, htrees, rfl⟩ := hlater
  refine ⟨item :: items, tree :: trees, ?_, rfl, by simp [htree, htrees], ?_⟩
  · -- The later operations work on top of the first item as they do alone.
    rw [List.foldlM_append, hitem, List.reverse_cons]
    exact foldlM_afterOperation?_append [item] hitems
  · have hsteady (value : Value) :
        ((evalAll scope env trees).map fun values => value :: values).Steady :=
      (steady_evalAll scope env trees).map _
    rw [evalAll, Evaluation.answer_bind hsteady]
    simp only [Evaluation.answer_map]

/-- A connective joins what its operands answer. -/
theorem DenotesAll.connect {count : Nat} {answers : Except Error (List Value)}
    (h : DenotesAll scope env operations count answers) {operator : Operator}
    {connective : Connective} (hoperator : operator.connective? = some connective) :
    Denotes scope env (operations ++ [.apply operator count])
      (answers.map fun values => .boolean (connective.holds values)) := by
  obtain ⟨items, trees, hitems, rfl, htrees, rfl⟩ := h
  obtain ⟨hpush, -, hneeded⟩ := neededSlots_of_connective hoperator items.length
  -- The connective takes all the items, which lie on each other the last one on top.
  have hafter : Item.afterOperation? scope.source items.reverse (.apply operator items.length) =
      some [.tree (.connect connective trees)] := by
    rw [Item.afterOperation?_eq]
    simp only [Operation.apply, Int.toNat_natCast, Item.afterOperator?, if_neg hpush, hneeded,
      List.length_reverse, Nat.lt_irrefl, if_false]
    rw [List.take_of_length_le (by simp), List.drop_of_length_le (by simp), List.reverse_reverse,
      Compile.Tree.combine?_of_connective hoperator, htrees]
    rfl
  refine ⟨.tree (.connect connective trees), _, ?_, rfl, ?_⟩
  · rw [List.foldlM_append, hitems]
    simp only [Option.bind_eq_bind, Option.bind_some, List.foldlM_cons, hafter, List.foldlM_nil]
    rfl
  · rw [Tree.eval, Evaluation.answer_bind fun _ => Evaluation.steady_pure _]
    cases (evalAll scope env trees).answer <;> rfl

end Denoting

omit [Regexp.Matcher] in
theorem operationsOfAll_eq (members : List Condition) :
    operationsOfAll members = (members.map operations).flatten := by
  induction members with
  | nil => rfl
  | cons member later ih => simp [operationsOfAll, ih]

omit [Regexp.Matcher] in
theorem forall_mem_addsSlots {members : List Condition} (hproper : AllProper members)
    (hfits : AllFit members) : ∀ row ∈ members.map operations, AddsSlots 1 row := by
  induction members with
  | nil => exact fun row hmem => absurd hmem List.not_mem_nil
  | cons member later ih =>
      have hmember : AddsSlots 1 member.operations := addsSlot member hproper.1 hfits.1
      exact List.forall_mem_cons.mpr ⟨hmember, ih hproper.2 hfits.2⟩

/-- If a set compiles, so does every member alone. -/
theorem compile_members {source : Source} {vars : Variables} {members : List Condition}
    {operator : Operator} {connective : Connective} {compiled : Compiled}
    (hproper : AllProper members) (hfits : AllFit members)
    (hoperator : operator.connective? = some connective)
    (h : compile source vars (operationsOfAll members ++ [.apply operator members.length]) =
      .ok compiled) :
    ∀ row ∈ members.map operations, ∃ alone, compile source vars row = .ok alone := by
  have hset : compile source vars ((members.map operations).flatten ++
      [.apply operator (members.map operations).length]) = .ok compiled := by
    rw [← operationsOfAll_eq, List.length_map]
    exact h
  exact Compile.compile_operands hoperator (forall_mem_addsSlots hproper hfits) hset

/-- What records of a table are compiled with. -/
def scopeOf (source : Source) (table : TableId) : Scope :=
  ⟨source, (Expression.onRecords none table).vars⟩

/-- Whether a run on a record reads from a store that reports no failure. -/
structure RunsOn (source : Source) (record : RecordRef) (env : Environment) : Prop where
  /-- The store reports no failure. -/
  failure : source.failure? = none
  /-- The record is the argument of the run, which reads from the store. -/
  bound : ∃ vars, env = ⟨source, some vars⟩ ∧
    Expression.bindArguments (Expression.onRecords none record.table).vars [.record record] =
      .ok vars
  /-- The record is in variable 0. -/
  held : env.variable 0 = .ok (.record record)

section Records

variable {source : Source} {record : RecordRef} {env : Environment}

/-- A query answers on top of other operations what it answers alone. -/
theorem denotes_query {text : String} {options : ParseOptions}
    (hproper : (query text options).Proper) (hrun : RunsOn source record env) {alone : Compiled}
    (hcompile : compile source (scopeOf source record.table).vars
      (query text options).operations = .ok alone) :
    Denotes (scopeOf source record.table) env (query text options).operations
      ((query text options).meaning source record) := by
  have hadds := addsSlot (query text options) hproper trivial
  obtain ⟨hoptions, count, hread⟩ := hproper
  obtain ⟨bound, rfl, hbound⟩ := hrun.bound
  obtain ⟨item, tree, hitem, htree, _, hruns⟩ := Compile.exists_item_of_compile
    (fun operation hmem => (hadds.plain operation hmem).operator) hcompile
  refine ⟨item, tree, hitem, htree, ?_⟩
  -- Read into an empty expression, the text gives the same operations, which compile alone.
  have hparse : (Expression.onRecords none record.table).parse text options =
      ((Expression.onRecords none record.table).extend (query text options).operations, .ok ()) :=
    Expression.parse_eq rfl hoptions hread
  obtain ⟨ready, hready, hvars, hcompiled⟩ := Expression.exists_compiled none hrun.failure hcompile
  have hanswer : ready.answer source [.record record] =
      (Machine.run ⟨source, some bound⟩ alone.program).result := by
    simp only [Expression.answer, hcompiled, hvars, hbound]
  simp only [meaning, hparse, hready, Except.bind, hanswer, hruns, Evaluation.result_outcome]
  rfl

mutual

/-- The operations of a condition that compiles make a tree that answers what it means. -/
theorem denotes (hrun : RunsOn source record env) :
    (condition : Condition) → condition.Proper → condition.Fits → {compiled : Compiled} →
    compile source (scopeOf source record.table).vars condition.operations = .ok compiled →
    Denotes (scopeOf source record.table) env condition.operations
      (condition.meaning source record)
  | comparison operator name constant, _, hfits, _, _ => by
    obtain ⟨bound, rfl, _⟩ := hrun.bound
    exact ⟨.tree (comparisonTree operator name constant), _,
      foldlM_comparisonOperations hfits name constant, rfl,
      answer_comparisonTree rfl rfl hrun.held⟩
  | query _ _, hproper, _, _, hcompile => denotes_query hproper hrun hcompile
  | all members, ⟨_, hmembers⟩, hfits, _, hcompile => by
    have hall : Operator.and.connective? = some .and := rfl
    exact (denotesAll hrun members hmembers hfits
      (compile_members hmembers hfits hall hcompile)).connect hall
  | any members, ⟨_, hmembers⟩, hfits, _, hcompile => by
    have hany : Operator.or.connective? = some .or := rfl
    exact (denotesAll hrun members hmembers hfits
      (compile_members hmembers hfits hany hcompile)).connect hany

theorem denotesAll (hrun : RunsOn source record env) :
    (members : List Condition) → AllProper members → AllFit members →
    (∀ row ∈ members.map operations, ∃ alone,
      compile source (scopeOf source record.table).vars row = .ok alone) →
    DenotesAll (scopeOf source record.table) env (operationsOfAll members) members.length
      (meanings source record members)
  | [], _, _, _ => .nil
  | member :: later, ⟨hmember, hlater⟩, ⟨hfits, hrest⟩, halone => by
    obtain ⟨⟨alone, hcompile⟩, hothers⟩ := List.forall_mem_cons.mp halone
    exact (denotes hrun member hmember hfits hcompile).cons
      (denotesAll hrun later hlater hrest hothers)

end

end Records

end Condition

end RecordQuery

import RecordQuery.Proofs.Compile.Context
import RecordQuery.Proofs.Compile.Correctness
import RecordQuery.Proofs.MemoryStore.Typing
import RecordQuery.Proofs.Query.Keywords

/-!
# Columns that are resolved early and late

A path of columns is resolved before the run as long as the table of the next record is known, and
by the record that the run finds where it is not.  The early way reads a column as the null of its
type where the late way reads the null without a type, so the two ways answer values that only
differ in the type of a null (`Value.AgreesWith`).

The columns agree because a column of records of a table holds nothing else than nulls and records
of that table (`MemoryStore.Knows.readColumn_fitsIn`): the late way looks the next column up in the
table that the early way has taken it from.  The tests of a query do not tell nulls apart, so the
tree of a formula evaluates to the same value or the same failure both ways, and the same text is
read last (`Runs.eval_formula`).
-/

namespace RecordQuery

open Compile (Scope)
open Machine (Stop)
open Query

/-! ## The tree of a formula -/

/-- The tree that follows a path of columns from a record. -/
def Tree.follow (record : Tree) (path : List String) : Tree :=
  path.foldl (fun record name => .getValue record (.constant (.free (.text name)))) record

namespace Query

/-- The tree of a term. -/
def Term.tree (term : Term) : Tree :=
  let column := (Tree.variableAt 0).follow term.path
  match term.mode.binary? with
  | some operation => .binary operation column (.constant (.free term.value))
  | none => column

/-- The tree of a formula. -/
def Formula.tree : Formula → Tree
  | .term t => t.tree
  | .not operand => .not operand.tree
  | .join connective left right =>
    match connective.connective? with
    | some connective => .connect connective [left.tree, right.tree]
    | none => left.tree

end Query

theorem Operator.exists_binary?_of_isMode {operator : Operator} (h : operator.isMode = true) :
    ∃ operation, operator.binary? = some operation := by
  cases operator <;> first | exact ⟨_, rfl⟩ | cases h

theorem Operator.isArithmetic_of_isMode {operator : Operator} (h : operator.isMode = true) :
    operator.isArithmetic = false := by
  cases operator <;> first | rfl | cases h

section Trees

variable {source : Source} {items : List Item}

theorem foldlM_readColumns (record : Tree) (path : List String) :
    (path.flatMap Operation.readColumn).foldlM (Item.afterOperation? source)
        (.tree record :: items) = some (.tree (record.follow path) :: items) := by
  induction path generalizing record with
  | nil => rfl
  | cons name path ih =>
      rw [List.flatMap_cons, List.foldlM_append]
      exact ih (.getValue record (.constant (.free (.text name))))

theorem foldlM_joinsTwo {operator : Operator} {left right tree : Tree}
    (hoperator : operator.JoinsTwo)
    (htree : Tree.combine? operator [.tree left, .tree right] = some tree) :
    [Operation.apply operator 2].foldlM (Item.afterOperation? source)
        (.tree right :: .tree left :: items) = some (.tree tree :: items) := by
  have hneeded : Compile.neededSlots operator (2 : Int).toNat = 2 := if_neg hoperator.2
  have hpush : operator ≠ .push := by
    rintro rfl
    exact absurd hoperator.1 (by decide)
  have henough : ¬ (Item.tree right :: Item.tree left :: items).length < 2 := by simp
  have htaken : ((Item.tree right :: Item.tree left :: items).take 2).reverse =
      [.tree left, .tree right] := rfl
  rw [List.foldlM_cons, Item.afterOperation?_eq]
  simp only [Operation.apply, Item.afterOperator?, if_neg hpush, hneeded, if_neg henough, htaken,
    htree]
  rfl

theorem foldlM_term {term : Term} (hmode : term.mode.isMode = true) :
    term.operations.foldlM (Item.afterOperation? source) items =
      some (.tree term.tree :: items) := by
  let column := (Tree.variableAt 0).follow term.path
  have hpath : (Operation.readPath term.path).foldlM (Item.afterOperation? source) items =
      some (.tree column :: items) := foldlM_readColumns (.variableAt 0) term.path
  obtain ⟨operation, hoperation⟩ := Operator.exists_binary?_of_isMode hmode
  have htree : Tree.combine? term.mode [.tree column, .tree (.constant (.free term.value))] =
      some term.tree := by
    rw [Compile.Tree.combine?_of_binary hoperation rfl rfl, Term.tree, hoperation]
  rw [Term.operations, List.foldlM_append, hpath]
  exact foldlM_joinsTwo (joinsTwo_of_isMode hmode) htree

/-- The operations of a formula make its tree on top of other items. -/
theorem foldlM_formula {formula : Formula} (h : formula.WellFormed) :
    formula.operations.foldlM (Item.afterOperation? source) items =
      some (.tree formula.tree :: items) := by
  induction formula generalizing items with
  | term t => exact foldlM_term h
  | not operand ih =>
      rw [Formula.operations, List.foldlM_append, ih h]
      rfl
  | join connective left right ihleft ihright =>
      obtain ⟨hconnective, hleft, hright⟩ := h
      have htree : Tree.combine? connective [.tree left.tree, .tree right.tree] =
          some (Formula.join connective left right).tree := by
        cases connective <;> first | rfl | cases hconnective
      rw [Formula.operations, List.foldlM_append, ihleft hleft, Option.bind_eq_bind,
        Option.bind_some, List.foldlM_append, ihright hright]
      exact foldlM_joinsTwo (joinsTwo_of_isConnective hconnective) htree

end Trees

/-! ## Values up to the type of a null -/

/-- Whether values are the same, all nulls taken as one. -/
def Value.AgreesWith (value other : Value) : Prop :=
  value = other ∨ value.isNull = true ∧ other.isNull = true

namespace Value

variable {value early late : Value}

theorem AgreesWith.refl (value : Value) : value.AgreesWith value := Or.inl rfl

theorem exists_type_of_isNull (h : value.isNull = true) : ∃ type, value = null type := by
  cases value with
  | null type => exact ⟨type, rfl⟩
  | _ => cases h

/-- What belongs to the records of a table is such a record. -/
theorem exists_record_of_fitsIn {table : TableId} (h : value.FitsIn (.table table)) :
    ∃ r, r.table = table ∧ value = record r := by
  cases value with
  | record r =>
      simp only [FitsIn, coerce, toRecordOf] at h
      split at h
      · rename_i htable
        exact ⟨r, htable, rfl⟩
      · cases h
  | integer n =>
      simp only [FitsIn, coerce, toRecordOf] at h
      split at h <;> cases h
  | _ => cases h

theorem AgreesWith.apply_eq [Regexp.Matcher] (h : early.AgreesWith late) (operation : Binary)
    (constant : Value) : operation.apply early constant = operation.apply late constant := by
  rcases h with rfl | ⟨hearly, hlate⟩
  · rfl
  · obtain ⟨type, rfl⟩ := exists_type_of_isNull hearly
    obtain ⟨other, rfl⟩ := exists_type_of_isNull hlate
    cases operation <;> rfl

end Value

/-! ## Answers that agree -/

/-- What two evaluations answer if they agree: the same failure, or values that agree and the same
text.  The first value is a null or belongs to a domain. -/
inductive Agree (domain : Domain) :
    Except Stop (Value × Option String) → Except Stop (Value × Option String) → Prop
  | answer {early late : Value} {text : Option String} :
      early.AgreesWith late → (early.isNull = true ∨ early.FitsIn domain) →
      Agree domain (.ok (early, text)) (.ok (late, text))
  | stop {stop : Stop} : Agree domain (.error stop) (.error stop)

namespace Agree

variable {domain : Domain} {text : Option String} {first second : Evaluation Value}

theorem refl {answered : Except Stop (Value × Option String)}
    (h : ∀ value text, answered = .ok (value, text) →
      value.isNull = true ∨ value.FitsIn domain) : Agree domain answered answered := by
  cases answered with
  | error stop => exact .stop
  | ok answer => exact .answer (.refl _) (h answer.1 answer.2 rfl)

theorem bind {result : Domain} {next other : Value → Evaluation Value}
    (h : Agree domain (first text) (second text))
    (hnext : ∀ {early late : Value} (text : Option String), early.AgreesWith late →
      (early.isNull = true ∨ early.FitsIn domain) →
      Agree result (next early text) (other late text)) :
    Agree result (first.bind next text) (second.bind other text) := by
  simp only [Evaluation.bind]
  generalize first text = early, second text = late at h
  cases h with
  | stop => exact .stop
  | answer hagrees hfits => exact hnext _ hagrees hfits

/-- What comes behind answers that agree is the same if it does not tell them apart. -/
theorem bind_eq {α : Type} {next other : Value → Evaluation α}
    (h : ∀ text, Agree domain (first text) (second text))
    (hnext : ∀ {early late : Value}, early.AgreesWith late → next early = other late) :
    first.bind next = second.bind other := by
  funext text
  have hagree := h text
  simp only [Evaluation.bind]
  generalize first text = early, second text = late at hagree
  cases hagree with
  | stop => rfl
  | answer hagrees _ => exact congrFun (hnext hagrees) _

end Agree

/-! ## Reading a column both ways -/

section Reading

variable {store : MemoryStore} {status : Option Status} {early late : Value}

/-- A column that is resolved early is the one that the record names late. -/
theorem agree_readColumn (htyped : store.Typed) {table : TableId} {name : String}
    {column : ColumnRef} (hcolumn : store.column table name = .ok column)
    (hagrees : early.AgreesWith late) (hfits : early.isNull = true ∨ early.FitsIn (.table table))
    (text : Option String) :
    Agree column.range (Evaluation.readColumn (store.source status) early column text)
      (Evaluation.readNamed (store.source status) late (.text name) text) := by
  -- Reading from a null answers a null, early and late, though not of one type.
  by_cases hnull : early.isNull = true
  · have hlate : late.isNull = true := by
      rcases hagrees with rfl | ⟨_, hlate⟩
      · exact hnull
      · exact hlate
    obtain ⟨type, rfl⟩ := Value.exists_type_of_isNull hnull
    obtain ⟨other, rfl⟩ := Value.exists_type_of_isNull hlate
    exact .answer (Or.inr ⟨rfl, rfl⟩) (Or.inl rfl)
  · obtain rfl : early = late := hagrees.resolve_right fun h => hnull h.1
    obtain ⟨r, rfl, rfl⟩ := Value.exists_record_of_fitsIn (hfits.resolve_left hnull)
    have hnamed : Evaluation.readNamed (store.source status) (.record r) (.text name) =
        Evaluation.readColumn (store.source status) (.record r) column := by
      simp only [Evaluation.readNamed, MemoryStore.source, hcolumn]
    rw [hnamed]
    refine .refl fun value later hanswer => ?_
    have hknows := MemoryStore.knows_of_column hcolumn
    unfold Evaluation.readColumn at hanswer
    split at hanswer
    · rename_i hread
      cases hanswer
      exact hknows.readColumn_fitsIn htyped hread
    · rename_i hread
      cases hanswer
      exact hknows.readColumn_fitsIn htyped hread
    · cases hanswer

theorem agree_readNamed {source : Source} (hagrees : early.AgreesWith late) (name : Value)
    (text : Option String) :
    Agree .any (Evaluation.readNamed source early name text)
      (Evaluation.readNamed source late name text) := by
  rcases hagrees with rfl | ⟨hearly, hlate⟩
  · exact .refl fun value _ _ => Or.inr value.fitsIn_any
  · obtain ⟨type, rfl⟩ := Value.exists_type_of_isNull hearly
    obtain ⟨other, rfl⟩ := Value.exists_type_of_isNull hlate
    cases name <;> exact .refl fun value _ _ => Or.inr value.fitsIn_any

end Reading

/-! ## Paths -/

/-- The domain of a column of the records of a domain, if it can be known. -/
def Source.rangeOf (source : Source) : Domain → String → Domain
  | .table table, name =>
    match source.column table name with
    | .ok column => column.range
    | .error _ => .any
  | _, _ => .any

/-- The domain of what a path of columns leads to from the records of a domain. -/
def Source.rangeAt (source : Source) (domain : Domain) (path : List String) : Domain :=
  path.foldl source.rangeOf domain

/-- Whether a term on records of a table compares an integer with something else than references. -/
def Query.Term.ComparesNoReference (source : Source) (table : TableId) (term : Term) : Prop :=
  term.mode.isComparison = true → (∃ n, term.value = .integer n) →
    ∀ other, source.rangeAt (.table table) term.path ≠ .table other

namespace Tree

variable [Regexp.Matcher] {scope : Scope} {record : Tree}

theorem static_getValue_name (name : String) :
    (getValue record (.constant (.free (.text name)))).static scope =
      ⟨scope.source.rangeOf (record.static scope).domain name, none⟩ := by
  cases hdomain : (record.static scope).domain with
  | any | scalar type =>
      simp only [static, Static.columnOf?, Cell.free, hdomain]
      rfl
  | table table =>
      cases hcolumn : scope.source.column table name <;>
        simp [static, Static.columnOf?, Cell.free, hdomain, hcolumn, Source.rangeOf,
          Except.toOption]

end Tree

/-- Whether a run of what a scope was compiled with reads a record: the scope and the run read
columns from the same source, and variable 0 has a domain and holds the record. -/
structure RunsOver (source : Source) (domain : Domain) (record : RecordRef) (scope : Scope)
    (env : Environment) : Prop where
  /-- The source of columns when compiling. -/
  compiled : scope.source = source
  /-- The source of columns when running. -/
  run : env.source = source
  /-- The domain of variable 0. -/
  domain : scope.vars.domain? 0 = some domain
  /-- The record is in variable 0. -/
  held : env.variable 0 = .ok (.record record)

/-- Two runs on a record of a store, one with the record's table known and one without. -/
structure Runs (store : MemoryStore) (status : Option Status) (record : RecordRef)
    (early late : Scope) (earlyEnv lateEnv : Environment) : Prop where
  /-- The store keeps to the domains of its columns. -/
  typed : store.Typed
  /-- The run that knows the table. -/
  early : RunsOver (store.source status) (.table record.table) record early earlyEnv
  /-- The run that does not. -/
  late : RunsOver (store.source status) .any record late lateEnv

/-- Whether a tree is read alike both ways.  It is no constant, and only the early way knows its
domain. -/
structure Tree.ReadAlike [Regexp.Matcher] (early late : Scope) (earlyEnv lateEnv : Environment)
    (tree : Tree) (domain : Domain) : Prop where
  /-- What the early way knows. -/
  known : tree.static early = ⟨domain, none⟩
  /-- What the late way knows. -/
  unknown : tree.static late = ⟨.any, none⟩
  /-- The values agree. -/
  agree : ∀ text, Agree domain (tree.eval early earlyEnv text) (tree.eval late lateEnv text)

section Runs

variable [Regexp.Matcher] {store : MemoryStore} {status : Option Status} {record : RecordRef}
  {early late : Scope} {earlyEnv lateEnv : Environment} {tree : Tree} {domain : Domain}

theorem Runs.readAlike_variable (h : Runs store status record early late earlyEnv lateEnv) :
    (Tree.variableAt 0).ReadAlike early late earlyEnv lateEnv (.table record.table) where
  known := by simp [Tree.static, h.early.domain]
  unknown := by simp [Tree.static, h.late.domain]
  agree text := by
    simp only [Tree.eval, h.early.held, h.late.held, Evaluation.ofExcept_ok]
    exact .answer (.refl _) (Or.inr (Value.fitsIn_table record))

/-- A column of what is read alike is read alike. -/
theorem Runs.readAlike_getValue (h : Runs store status record early late earlyEnv lateEnv)
    (htree : tree.ReadAlike early late earlyEnv lateEnv domain) (name : String) :
    (Tree.getValue tree (.constant (.free (.text name)))).ReadAlike early late earlyEnv lateEnv
      ((store.source status).rangeOf domain name) where
  known := by rw [Tree.static_getValue_name, htree.known, h.early.compiled]
  unknown := by
    rw [Tree.static_getValue_name, htree.unknown]
    rfl
  agree text := by
    let source := store.source status
    have hlate : (Tree.getValue tree (.constant (.free (.text name)))).eval late lateEnv =
        (tree.eval late lateEnv).bind fun r => .readNamed source r (.text name) := by
      simp only [Tree.eval, htree.unknown, h.late.run]
      rfl
    have hearly : (Tree.getValue tree (.constant (.free (.text name)))).eval early earlyEnv =
        ((⟨domain, none⟩ : Static).columnOf? source ⟨.scalar .text, some (.text name)⟩).elim
          ((tree.eval early earlyEnv).bind fun r => .readNamed source r (.text name))
          fun column => (tree.eval early earlyEnv).bind fun r => .readColumn source r column := by
      have hname : (Tree.constant (.free (.text name))).static early =
          ⟨.scalar .text, some (.text name)⟩ := rfl
      simp only [Tree.eval, htree.known, h.early.compiled, h.early.run, hname]
      cases (⟨domain, none⟩ : Static).columnOf? source ⟨.scalar .text, some (.text name)⟩ <;> rfl
    have hnamed : Agree .any
        (((tree.eval early earlyEnv).bind fun r => .readNamed source r (.text name)) text)
        (((tree.eval late lateEnv).bind fun r => .readNamed source r (.text name)) text) :=
      (htree.agree text).bind fun text hagrees _ => agree_readNamed hagrees _ text
    rw [hearly, hlate]
    -- Only a column of a known table that the store has is resolved early.
    cases domain with
    | any | scalar type => exact hnamed
    | table table =>
        cases hcolumn : source.column table name with
        | error failure =>
            have hrange : source.rangeOf (.table table) name = .any := by
              simp only [Source.rangeOf, hcolumn]
            simp only [Static.columnOf?, hcolumn, Except.toOption]
            exact hrange ▸ hnamed
        | ok column =>
            have hrange : source.rangeOf (.table table) name = column.range := by
              simp only [Source.rangeOf, hcolumn]
            simp only [Static.columnOf?, hcolumn, Except.toOption]
            exact hrange ▸ (htree.agree text).bind fun text hagrees hfits =>
              agree_readColumn h.typed hcolumn hagrees hfits text

theorem Runs.readAlike_follow (h : Runs store status record early late earlyEnv lateEnv)
    (htree : tree.ReadAlike early late earlyEnv lateEnv domain) (path : List String) :
    (tree.follow path).ReadAlike early late earlyEnv lateEnv
      ((store.source status).rangeAt domain path) := by
  induction path generalizing tree domain with
  | nil => exact htree
  | cons name path ih => exact ih (h.readAlike_getValue htree name)

/-! ## Formulas -/

omit [Regexp.Matcher] in
/-- A constant that is no integer beside references is compared as it is. -/
theorem comparedValues_eq {operation : Binary} {constant : Value} {constantDomain : Domain}
    (hreference : operation.operator.isComparison = true → (∃ n, constant = .integer n) →
      ∀ table, domain ≠ .table table) (value : Value) :
    Static.comparedValues operation ⟨domain, none⟩ ⟨constantDomain, some constant⟩ value constant =
      (value, constant) := by
  have hleft (other : Domain) : (⟨domain, none⟩ : Static).referenceBeside? other = none := by
    cases other <;> rfl
  unfold Static.comparedValues
  split
  · rename_i hcomparison
    have hright :
        (⟨constantDomain, some constant⟩ : Static).referenceBeside? domain = none := by
      cases domain with
      | any | scalar type => rfl
      | table table =>
          cases constant with
          | integer n => exact absurd rfl (hreference hcomparison ⟨n, rfl⟩ table)
          | _ => rfl
    simp only [hleft, hright, Option.getD_none]
  · rfl

theorem Tree.eval_binary_constant {scope : Scope} {env : Environment} {operation : Binary}
    {constant : Value} (hknown : tree.static scope = ⟨domain, none⟩)
    (hreference : operation.operator.isComparison = true → (∃ n, constant = .integer n) →
      ∀ table, domain ≠ .table table) :
    (Tree.binary operation tree (.constant (.free constant))).eval scope env =
      (tree.eval scope env).bind fun value => .ofExcept (operation.apply value constant) := by
  simp only [Tree.eval, Evaluation.pure_bind, hknown, Tree.static, Cell.free,
    comparedValues_eq hreference]

/-- A term evaluates to the same both ways unless it compares references with an integer. -/
theorem Runs.eval_term (h : Runs store status record early late earlyEnv lateEnv) {term : Term}
    (hmode : term.mode.isMode = true)
    (hreference : term.ComparesNoReference (store.source status) record.table) :
    term.tree.eval early earlyEnv = term.tree.eval late lateEnv := by
  obtain ⟨operation, hoperation⟩ := Operator.exists_binary?_of_isMode hmode
  have hcolumn := h.readAlike_follow h.readAlike_variable term.path
  rw [Term.ComparesNoReference, ← Binary.operator_of_binary? hoperation] at hreference
  simp only [Term.tree, hoperation]
  rw [Tree.eval_binary_constant hcolumn.known hreference,
    Tree.eval_binary_constant hcolumn.unknown fun _ _ _ hany => by cases hany]
  exact Agree.bind_eq hcolumn.agree fun hagrees => by rw [hagrees.apply_eq]

end Runs

/-- The terms of a formula. -/
def Query.Formula.terms : Formula → List Term
  | .term t => [t]
  | .not operand => operand.terms
  | .join _ left right => left.terms ++ right.terms

/-- A formula evaluates to the same both ways: the same value or failure, and the same text is read
last. -/
theorem Runs.eval_formula [Regexp.Matcher] {store : MemoryStore} {status : Option Status}
    {record : RecordRef} {early late : Scope} {earlyEnv lateEnv : Environment}
    (h : Runs store status record early late earlyEnv lateEnv) {formula : Formula}
    (hformula : formula.WellFormed)
    (hreferences : ∀ term ∈ formula.terms,
      term.ComparesNoReference (store.source status) record.table) :
    formula.tree.eval early earlyEnv = formula.tree.eval late lateEnv := by
  induction formula with
  | term t => exact h.eval_term hformula (hreferences t (List.mem_cons_self ..))
  | not operand ih => simp only [Formula.tree, Tree.eval, ih hformula hreferences]
  | join connective left right ihleft ihright =>
      obtain ⟨_, hleft, hright⟩ := hformula
      obtain ⟨hleftTerms, hrightTerms⟩ := List.forall_mem_append.mp hreferences
      have hleftEval := ihleft hleft hleftTerms
      have hrightEval := ihright hright hrightTerms
      simp only [Formula.tree]
      cases connective.connective? with
      | none => exact hleftEval
      | some connective => simp only [Tree.eval, evalAll, hleftEval, hrightEval]

/-- A formula makes a truth or the null of truths. -/
theorem Query.Formula.domain_static_tree [Regexp.Matcher] {scope : Scope} {formula : Formula}
    (h : formula.WellFormed) : (formula.tree.static scope).domain = .scalar .boolean := by
  have hresult (known : Option Value) :
      (Static.ofResult (.scalar .boolean) known).domain = .scalar .boolean := by
    cases known <;> rfl
  cases formula with
  | term t =>
      obtain ⟨operation, hoperation⟩ := Operator.exists_binary?_of_isMode h
      have harithmetic : operation.operator.isArithmetic = false := by
        rw [Binary.operator_of_binary? hoperation]
        exact Operator.isArithmetic_of_isMode h
      simp only [Formula.tree, Term.tree, hoperation, Tree.static, Static.rangeOf, harithmetic,
        Bool.false_eq_true, if_false]
      exact hresult _
  | not operand => exact hresult _
  | join connective left right =>
      obtain ⟨hconnective, _, _⟩ := h
      cases connective <;> first | exact hresult _ | cases hconnective

end RecordQuery

import RecordQuery.Proofs.Compile.StackSafety
import RecordQuery.Proofs.MemoryStore.Typing
import RecordQuery.Proofs.Program.Stack
import RecordQuery.Proofs.Value.Arithmetic

/-!
# The domain of a compiled expression accepts its values

The compiler gives every slot a domain.  Whatever the steps of the slot leave on the stack is a
value that this domain accepts (`Piece.Typed`), for every store that the columns are still in and
all variables that hold values of their domains (`Admits`).  Every step of the compiler keeps this,
so the domain of a compiled expression accepts all values that its program gives
(`run_convertsTo`).

That steps leave one value for a slot is known already (`Piece.Balanced`), `POP` included.  What is
added here is which value that can be, which only depends on the last step and, for arithmetic, on
the values of the operands.
-/

namespace RecordQuery

/-- Whether a function only returns values of the type that it declares, if any, and nulls. -/
def ScalarFunction.KeepsType (function : ScalarFunction) : Prop :=
  ∀ arguments value, function.evaluate arguments = .ok value →
    ∀ type, function.signature.returns = some type → value.isNull = true ∨ value.dataType = type

theorem ScalarFunction.KeepsType.convertsTo {function : ScalarFunction} (h : function.KeepsType)
    {arguments : List Value} {value : Value} (hvalue : function.evaluate arguments = .ok value) :
    value.ConvertsTo function.range := by
  unfold range
  split
  · rename_i type htype
    rw [Value.convertsTo_scalar_iff]
    rcases h arguments value hvalue type htype with hnull | hsame
    · exact Or.inl hnull
    · exact Or.inr (Or.inr (Or.inl hsame))
  · exact value.convertsTo_any

theorem ScalarFunction.keepsType_of_mem_builtins {function : ScalarFunction}
    (h : function ∈ builtins) : function.KeepsType :=
  fun _ _ hvalue _ htype => Or.inr (dataType_of_mem_builtins h hvalue htype)

/-- Whether a column belongs to a store, or a function keeps to its type. -/
def ObjectRef.Belongs (store : MemoryStore) : ObjectRef → Prop
  | column c => store.Knows c
  | function f => f.KeepsType
  | table _ => True

/-- Whether the columns of an operand are in a store, its functions keep to their types, and its
constant holds a value of its domain. -/
def Operand.Belongs (store : MemoryStore) : Operand → Prop
  | variableAt _ => True
  | object o => o.Belongs store
  | name s => ∀ function, store.resolve s = .ok (.function function) → function.KeepsType
  | constant cell => cell.Fits

variable [Regexp.Matcher]

/-- An operation on two values that is no arithmetic answers a truth, or the null of truths. -/
theorem Binary.dataType_apply {operator : Operator} {operation : Binary}
    (hoperator : operator.binary? = some operation) (harithmetic : operator.isArithmetic = false)
    {left right value : Value} (h : operation.apply left right = .ok value) :
    value.dataType = .boolean := by
  have htexts (test : String → String → Bool) :
      (left.testTexts test right).dataType = .boolean := by
    unfold Value.testTexts
    split <;> rfl
  have hequality (wanted : Bool) : (left.testEquality wanted right).dataType = .boolean := by
    unfold Value.testEquality
    split <;> rfl
  have horder (accepted : Ordering → Bool) :
      (left.testOrder accepted right).dataType = .boolean := by
    unfold Value.testOrder
    split <;> rfl
  -- Tests answer truths by how they are made; only a pattern can be refused before.
  cases operator with
  | contains | startsWith | endsWith =>
      cases hoperator
      cases h
      exact htexts _
  | equal | notEqual =>
      cases hoperator
      cases h
      exact hequality _
  | less | greater | lessEqual | greaterEqual =>
      cases hoperator
      cases h
      exact horder _
  | regexp =>
      cases hoperator
      simp only [apply, Value.matchesPattern] at h
      split at h
      · split at h
        · cases h
          rfl
        · cases h
      · cases h
        rfl
  | plus | minus | times | divide | modulo => cases harithmetic
  | _ => cases hoperator

namespace Compile

/-! ## What steps may run with -/

/-- Whether steps that were compiled for a store may run in an environment: it reads from later
contents of the store, and its variables hold values that their domains accept. -/
structure Admits (store : MemoryStore) (vars : Variables) (env : Environment) : Prop where
  /-- The environment reads from later contents of the store. -/
  source : ∃ later status, store.Later later ∧ env.source = later.source status
  /-- The variables hold values that their domains accept. -/
  vars : ∀ position domain value, vars.domain? position = some domain →
    env.variable position = .ok value → value.ConvertsTo domain

/-- Whether whatever steps leave on the stack is accepted by a domain. -/
def Leaves (admits : Environment → Prop) (code : List Op) (domain : Domain) : Prop :=
  ∀ env, admits env → ∀ state next, Machine.steps env state code = .ok next →
    ∃ value below, next.stack = value :: below ∧ value.ConvertsTo domain

variable {admits : Environment → Prop} {limit : Nat}

theorem Leaves.of_last {code : List Op} {op : Op} {domain : Domain} (hop : op ≠ .pop)
    (hanswers : ∀ env, admits env → ∀ stack value, op.Answers env stack value →
      value.ConvertsTo domain) :
    Leaves admits (code ++ [op]) domain := by
  intro env henv state next hsteps
  obtain ⟨between, _, hlast⟩ := Machine.steps_append_ok hsteps
  obtain ⟨value, hstack, hvalue⟩ := Machine.step_stack hop (Machine.steps_single_ok hlast)
  exact ⟨value, _, hstack, hanswers env henv _ value hvalue⟩

theorem Leaves.single {op : Op} {domain : Domain} (hop : op ≠ .pop)
    (hanswers : ∀ env, admits env → ∀ stack value, op.Answers env stack value →
      value.ConvertsTo domain) :
    Leaves admits [op] domain := by
  have hlast : Leaves admits ([] ++ [op]) domain := .of_last hop hanswers
  exact hlast

theorem Leaves.load {value : Value} {domain : Domain} (h : value.ConvertsTo domain) :
    Leaves admits [.load value] domain := by
  refine .single (by simp) fun _ _ _ answer hanswer => ?_
  obtain rfl : answer = value := hanswer
  exact h

theorem Leaves.append {code extra : List Op} {domain : Domain} (h : Leaves admits code domain)
    (hextra : Lifts limit 0 extra 0) : Leaves admits (code ++ extra) domain := by
  intro env henv state next hsteps
  obtain ⟨between, hcode, hbehind⟩ := Machine.steps_append_ok hsteps
  obtain ⟨value, below, hstack, hvalue⟩ := h env henv state between hcode
  exact ⟨value, below, (Machine.steps_neutral hextra hbehind).trans hstack, hvalue⟩

theorem Leaves.result {code : List Op} {domain : Domain} (h : Leaves admits code domain)
    (before : List Op) {env : Environment} (henv : admits env) {value : Value}
    (hrun : (Machine.runOps env (before ++ code)).result = .ok value) :
    value.ConvertsTo domain := by
  obtain ⟨next, hsteps, rfl⟩ := Machine.runOps_ok hrun
  obtain ⟨between, _, hcode⟩ := Machine.steps_append_ok hsteps
  obtain ⟨value, below, hstack, hvalue⟩ := h env henv between next hcode
  rwa [hstack]

theorem Leaves.negate {code : List Op} {domain : Domain} {index : Nat}
    (hdomain : requireNumber index domain = .ok ()) (h : Leaves admits code domain) :
    Leaves admits (code ++ [.negate]) domain := by
  intro env henv state next hsteps
  obtain ⟨between, hcode, hlast⟩ := Machine.steps_append_ok hsteps
  obtain ⟨operand, below, hbetween, hoperand⟩ := h env henv state between hcode
  obtain ⟨value, hstack, found, rest, hfound, hvalue⟩ :=
    Machine.step_stack (by simp) (Machine.steps_single_ok hlast)
  obtain ⟨rfl, _⟩ := List.cons.inj (hbetween.symm.trans hfound)
  exact ⟨value, _, hstack, Value.negate_convertsTo hdomain hoperand hvalue⟩

theorem Leaves.arithmetic {left right : List Op} {first second : Domain} {operator : Operator}
    {operation : Binary} (hoperator : operator.binary? = some operation)
    (harithmetic : operator.isArithmetic = true)
    (hleft : Leaves admits left first) (hright : Leaves admits right second)
    (hlifts : Lifts limit 0 right 1) :
    Leaves admits (left ++ (right ++ [.binary operation]))
      (arithmeticRange operator first second) := by
  intro env henv state next hsteps
  obtain ⟨afterLeft, hleftSteps, hbehind⟩ := Machine.steps_append_ok hsteps
  obtain ⟨afterRight, hrightSteps, hlast⟩ := Machine.steps_append_ok hbehind
  obtain ⟨l, below, hl, hlConverts⟩ := hleft env henv state afterLeft hleftSteps
  obtain ⟨r, rest, hr, hrConverts⟩ := hright env henv afterLeft afterRight hrightSteps
  obtain ⟨value, hstack, l', r', rest', hfound, hvalue⟩ :=
    Machine.step_stack (by simp) (Machine.steps_single_ok hlast)
  -- The right operand comes onto the left one.
  obtain ⟨top, htop⟩ := Machine.steps_value hlifts hrightSteps
  rw [htop] at hr
  rw [htop, hl] at hfound
  obtain ⟨rfl, _⟩ := List.cons.inj hr
  obtain ⟨rfl, hbelow⟩ := List.cons.inj hfound
  obtain ⟨rfl, _⟩ := List.cons.inj hbelow
  exact ⟨value, _, hstack,
    Value.apply_convertsTo hoperator harithmetic hlConverts hrConverts hvalue⟩

/-! ## Objects and pieces -/

/-- What a slot says holds of the steps of its piece. -/
structure Piece.Typed (store : MemoryStore) (vars : Variables) (piece : Piece) : Prop where
  /-- The steps of a value leave one that the domain accepts. -/
  leaves : piece.slot.IsValue → Leaves (Admits store vars) piece.code piece.slot.domain
  /-- A column belongs to the store. -/
  column : ∀ c materialized, piece.slot.content = .column c materialized → store.Knows c
  /-- A function keeps to its type, which is the domain of the slot. -/
  function : ∀ f, piece.slot.content = .function f → f.KeepsType ∧ piece.slot.domain = f.range

variable {store : MemoryStore} {vars : Variables} {index : Nat} {operator : Operator}
  {status : Option Status}

omit [Regexp.Matcher] in
theorem Admits.readColumn {env : Environment} (h : Admits store vars env) (hstore : store.Typed)
    {column : ColumnRef} (hcolumn : store.Knows column) {record value : Value} {stored : Bool}
    (hread : Machine.readColumn env.source record column = .ok (value, stored)) :
    value.ConvertsTo column.range := by
  obtain ⟨later, status, hlater, hsource⟩ := h.source
  rw [hsource] at hread
  exact (hcolumn.stays hlater).readColumn_convertsTo (hlater.typed hstore) hread

theorem Leaves.getColumn (hstore : store.Typed) {column : ColumnRef}
    (hcolumn : store.Knows column) (code : List Op) :
    Leaves (Admits store vars) (code ++ [.getColumn column]) column.range := by
  refine .of_last (by simp) fun env henv _ value hanswer => ?_
  obtain ⟨record, stored, hread⟩ := hanswer
  exact henv.readColumn hstore hcolumn hread

omit [Regexp.Matcher] in
theorem Admits.withoutVariables (store : MemoryStore) (vars : Variables)
    (status : Option Status) : Admits store vars ⟨store.source status, none⟩ :=
  ⟨⟨store, status, .refl, rfl⟩, fun _ _ _ _ hvalue => by cases hvalue⟩

theorem Piece.Typed.of_value {slot : Slot} {code : List Op} (hcontent : slot.content = .value)
    (hcode : Leaves (Admits store vars) code slot.domain) :
    Piece.Typed store vars ⟨slot, code⟩ := by
  refine ⟨fun _ => hcode, fun c materialized hcolumn => ?_, fun f hfunction => ?_⟩
  · simp [hcontent] at hcolumn
  · simp [hcontent] at hfunction

/-- A result that is computed ahead is one that the steps leave. -/
theorem Piece.Typed.settled {slot : Slot} {code : List Op} {foldable : Bool}
    (hcontent : slot.content = .value) (hcode : Leaves (Admits store vars) code slot.domain) :
    (Piece.settled (store.source status) slot code foldable).Typed store vars := by
  unfold Piece.settled
  split
  · exact .of_value hcontent hcode
  · rename_i value hvalue
    refine .of_value hcontent (.load ?_)
    have hconverts : value.ConvertsTo slot.domain := by
      split at hvalue
      · have hrun := eq_ok_of_toOption_eq_some hvalue
        exact hcode.result [] (Admits.withoutVariables store vars status) hrun
      · cases hvalue
    simp only
    split
    · exact value.convertsTo_dataType
    · exact hconverts

theorem Piece.Typed.ofObject (hstore : store.Typed) {object : ObjectRef}
    (hobject : object.Belongs store) (scope : Scope) (start : Nat) :
    (Piece.ofObject scope start object).Typed store vars := by
  cases object with
  | table t =>
      exact ⟨fun hvalue => absurd hvalue id, fun _ _ h => (by cases h), fun _ h => (by cases h)⟩
  | function f =>
      refine ⟨fun hvalue => absurd hvalue id, fun _ _ h => (by cases h), fun g hg => ?_⟩
      cases hg
      exact ⟨hobject, rfl⟩
  | column c =>
      simp only [Piece.ofObject]
      split
      · refine ⟨fun _ => ?_, fun d _ hd => ?_, fun _ h => (by cases h)⟩
        · exact .getColumn hstore hobject [.loadVariable 0]
        · cases hd
          exact hobject
      · refine ⟨fun hvalue => absurd hvalue id, fun d _ hd => ?_, fun _ h => (by cases h)⟩
        cases hd
        exact hobject

/-- A column that a slot names belongs to the store. -/
theorem knows_of_columnOf {name : Piece} {domain : Domain} {column : ColumnRef}
    (hname : name.Typed store vars)
    (hcolumn : columnOf (store.source status) index name.slot domain = .ok (some column)) :
    store.Knows column := by
  unfold columnOf at hcolumn
  split at hcolumn
  · rename_i c materialized hcontent
    have hknown := hname.column c materialized hcontent
    split at hcolumn
    · split at hcolumn
      · cases hcolumn
        exact hknown
      · cases hcolumn
    · cases hcolumn
      exact hknown
  · split at hcolumn
    · split at hcolumn
      · rename_i found hfound
        cases hcolumn
        exact MemoryStore.knows_of_column hfound
      · cases hcolumn
    · cases hcolumn
  · cases hcolumn

theorem Leaves.truth {code : List Op} {op : Op} (hop : op ≠ .pop)
    (hanswers : ∀ env stack value, op.Answers env stack value → value.dataType = .boolean) :
    Leaves admits (code ++ [op]) (.scalar .boolean) :=
  .of_last hop fun env _ stack value hanswer =>
    hanswers env stack value hanswer ▸ value.convertsTo_dataType

/-- An operator makes a typed piece of typed operands. -/
theorem Combined.typed {operands : List Piece} {piece : Piece} (hstore : store.Typed)
    (hcombined : Combined ⟨store.source status, vars⟩ index operator operands piece)
    (hbalanced : ∀ operand ∈ operands, operand.Balanced limit)
    (h : ∀ operand ∈ operands, operand.Typed store vars) : piece.Typed store vars := by
  -- What the last step answers decides, but for a negative and arithmetic, which look at operands.
  cases hcombined with
  | @member record name column hvalue _ hcolumn =>
      have hknown := knows_of_columnOf (h name (by simp)) hcolumn
      exact .of_value rfl (.getColumn hstore hknown record.code)
  | @getValue record name _ _ _ =>
      refine .of_value rfl ?_
      rw [← List.append_assoc]
      exact .of_last (by simp) fun _ _ _ value _ => value.convertsTo_any
  | @call target arguments function hfunction _ _ _ =>
      obtain ⟨hkeeps, hdomain⟩ := (h target (by simp)).function function hfunction
      refine .settled rfl ?_
      rw [← List.append_assoc]
      refine .of_last (by simp) fun _ _ _ value hanswer => ?_
      obtain ⟨given, hvalue⟩ := hanswer
      rw [Slot.ofDomain, hdomain]
      exact hkeeps.convertsTo hvalue
  | connect _ _ _ => exact .settled rfl (.truth (by simp) fun _ _ _ hanswer => hanswer)
  | not _ => exact .settled rfl (.truth (by simp) fun _ _ _ hanswer => hanswer)
  | @negate operand hvalue hnumber =>
      exact .settled rfl (.negate hnumber ((h operand (by simp)).leaves hvalue))
  | pattern _ _ _ _ _ => exact .of_value rfl (.truth (by simp) fun _ _ _ hanswer => hanswer)
  | @binary _ operation left right left' right' hoperator hleft hright hcompared =>
      refine .settled rfl ?_
      simp only [binarySlot, Slot.ofDomain]
      split
      · -- Arithmetic looks at its operands as they are.
        rename_i harithmetic
        have hsame : left' = left ∧ right' = right := by
          have hcomparison : operator.isComparison = false := by
            cases operator <;> first | rfl | cases harithmetic
          simp only [comparedPieces, hcomparison, Bool.false_eq_true, if_false,
            Prod.mk.injEq] at hcompared
          exact ⟨hcompared.1.symm, hcompared.2.symm⟩
        obtain ⟨rfl, rfl⟩ := hsame
        exact .arithmetic hoperator harithmetic ((h left' (by simp)).leaves hleft)
          ((h right' (by simp)).leaves hright) ((hbalanced right' (by simp)).lifts_value hright)
      · rename_i harithmetic
        rw [← List.append_assoc]
        refine .truth (by simp) fun _ _ value hanswer => ?_
        obtain ⟨l, r, _, _, hvalue⟩ := hanswer
        exact Binary.dataType_apply hoperator (by simpa using harithmetic) hvalue

/-! ## Operations -/

omit [Regexp.Matcher] in
/-- The value of a constant is of the domain that the compiler gives it. -/
theorem convertsTo_constantDomain {cell : Cell} (h : cell.Fits) :
    cell.value.ConvertsTo (constantDomain cell) := by
  obtain ⟨value, domain⟩ := cell
  cases domain with
  | any =>
      cases value with
      | record r => exact (Value.fitsIn_table r).convertsTo
      | _ => exact Value.convertsTo_dataType _
  | scalar type => exact h.convertsTo
  | table table => exact h.convertsTo

/-- Whatever an operand that belongs to the store is, its piece is typed. -/
theorem Pushed.typed {start : Nat} {operand : Operand} {piece : Piece} (hstore : store.Typed)
    (hpushed : Pushed ⟨store.source status, vars⟩ start operand piece)
    (hoperand : operand.Belongs store) : piece.Typed store vars := by
  cases hpushed with
  | @variableAt position domain hdomain =>
      refine .of_value rfl (.single (by simp) fun env henv _ value hanswer => ?_)
      exact henv.vars position domain value hdomain hanswer
  | constant => exact .of_value rfl (.load (convertsTo_constantDomain hoperand))
  | object => exact .ofObject hstore hoperand _ start
  | @name name object hresolve =>
      refine .ofObject hstore ?_ _ start
      cases object with
      | table t => trivial
      | column c => exact MemoryStore.knows_of_resolve hresolve
      | function f => exact hoperand f hresolve

/-- All pieces of a layout are typed. -/
structure Layout.Typed (store : MemoryStore) (vars : Variables) (layout : Layout) : Prop where
  /-- The steps of a piece leave as many values as its slot stands for. -/
  balanced : layout.Balanced vars.size
  /-- The pieces are typed. -/
  pieces : ∀ piece ∈ layout.pieces, piece.Typed store vars

namespace Layout.Typed

variable {layout layout' : Layout}

theorem push {piece : Piece} (h : layout.Typed store vars) (hbalanced : piece.Balanced vars.size)
    (hpiece : piece.Typed store vars) : (layout.push piece).Typed store vars := by
  refine ⟨h.balanced.push hbalanced, fun other hmem => ?_⟩
  rcases List.mem_cons.mp hmem with rfl | hmem
  · exact hpiece
  · exact h.pieces other hmem

theorem of_pushAll {operands : List Piece} (h : (layout.pushAll operands).Typed store vars) :
    layout.Typed store vars ∧ ∀ operand ∈ operands, operand.Typed store vars := by
  have hpieces := h.pieces
  simp only [pieces_pushAll, List.mem_append, List.mem_reverse] at hpieces
  exact ⟨⟨h.balanced.of_pushAll.1, fun piece hmem => hpieces piece (Or.inr hmem)⟩,
    fun operand hmem => hpieces operand (Or.inl hmem)⟩

/-- Steps that leave no value may stay behind a typed piece. -/
theorem absorb {extra : List Op} (h : layout.Typed store vars)
    (hextra : Lifts vars.size 0 extra 0) : (layout.absorb extra).Typed store vars := by
  refine ⟨h.balanced.absorb hextra, ?_⟩
  obtain ⟨spare, pieces⟩ := layout
  cases pieces with
  | nil => exact h.pieces
  | cons piece below =>
      intro other hmem
      rcases List.mem_cons.mp hmem with rfl | hmem
      · obtain ⟨hleaves, hcolumn, hfunction⟩ := h.pieces piece (List.mem_cons_self ..)
        exact ⟨fun hvalue => (hleaves hvalue).append hextra, hcolumn, hfunction⟩
      · exact h.pieces other (List.mem_cons_of_mem _ hmem)

theorem discard {piece : Piece} (h : layout.Typed store vars)
    (hpiece : piece.Balanced vars.size) : (layout.discard piece).Typed store vars := by
  rcases discard_cases layout hpiece with hsame | ⟨extra, hextra, habsorb⟩
  · rw [hsame]
    exact h
  · rw [habsorb]
    exact h.absorb hextra

theorem applied {needed : Nat} (h : layout.Typed store vars) (hstore : store.Typed)
    (happlied : Layout.Applied ⟨store.source status, vars⟩ index operator needed layout layout') :
    layout'.Typed store vars := by
  cases happlied with
  | @discard base piece hoperator =>
      have hpushed : (base.pushAll [piece]).Typed store vars := h
      exact hpushed.of_pushAll.1.discard (hpushed.balanced.of_pushAll.2 piece (by simp))
  | @combine base operands piece hcombined =>
      obtain ⟨hbase, hoperands⟩ := h.of_pushAll
      have hbalanced := h.balanced.of_pushAll.2
      exact hbase.push (hcombined.balanced hbalanced)
        (hcombined.typed hstore hbalanced hoperands)

/-- Every operation keeps the pieces typed. -/
theorem step {operation : Operation} (h : layout.Typed store vars) (hstore : store.Typed)
    (hstep : Layout.Step ⟨store.source status, vars⟩ index operation layout layout')
    (hoperation : ∀ operand ∈ operation.operand, operand.Belongs store) :
    layout'.Typed store vars := by
  cases hstep with
  | push hpushed =>
      exact h.push hpushed.balanced (hpushed.typed hstore (hoperation _ rfl))
  | apply _ happlied => exact h.applied hstore happlied
  | pushApply _ hpushed happlied =>
      exact (h.push hpushed.balanced (hpushed.typed hstore (hoperation _ rfl))).applied hstore
        happlied

theorem steps {operations : List Operation} (h : layout.Typed store vars) (hstore : store.Typed)
    (hsteps : Layout.Steps ⟨store.source status, vars⟩ index operations layout layout')
    (hoperations : ∀ operation ∈ operations, ∀ operand ∈ operation.operand,
      operand.Belongs store) : layout'.Typed store vars := by
  induction hsteps with
  | nil => exact h
  | cons hstep _ ih =>
      exact ih (h.step hstore hstep (hoperations _ (List.mem_cons_self ..)))
        fun operation hmem => hoperations operation (List.mem_cons_of_mem _ hmem)

end Layout.Typed

/-! ## Whole expressions -/

/-- The value of a run of a compiled program is one that the domain of the program accepts, if the
operands belong to the store and the run may read and bind what it does. -/
theorem run_convertsTo {operations : List Operation} {compiled : Compiled} (hstore : store.Typed)
    (hoperations : ∀ operation ∈ operations, ∀ operand ∈ operation.operand,
      operand.Belongs store)
    (hcompile : compile (store.source status) vars operations = .ok compiled)
    {env : Environment} (henv : Admits store vars env) {value : Value}
    (hrun : (Machine.run env compiled.program).result = .ok value) :
    value.ConvertsTo compiled.range := by
  obtain ⟨spare, piece, hsteps, hvalue, rfl⟩ := compile_layout hcompile
  have hempty : Layout.empty.Typed store vars :=
    ⟨⟨.nil, fun _ hmem => absurd hmem List.not_mem_nil⟩,
      fun _ hmem => absurd hmem List.not_mem_nil⟩
  have hleaves := ((hempty.steps hstore hsteps hoperations).pieces piece
    (List.mem_singleton_self piece)).leaves hvalue
  rw [Machine.run_ofOps] at hrun
  exact hleaves.result _ henv hrun

end Compile

end RecordQuery

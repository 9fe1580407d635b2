import RecordQuery.Proofs.Program.Fusion
import RecordQuery.Proofs.Query.Compilation
import RecordQuery.Proofs.Value.Exactness
import RecordQuery.Regexp.Standard

/-!
# Arithmetic on integers, at the run and before

An operation on integers answers the same wherever it is computed (`Computes`): by its step on a
stack that holds the operands, by the compiler when the operands are constants, and by the program
that is compiled of it.  An answer that is no failure takes the place of the steps, as if it had
been written instead of them; so operations on such answers are computed as well.  A failing
operation is left to the run.

What is answered is the exact result (`integer_arithmetic`), and the remainder of the least integer
by -1 is the exception (`modulo_overflow`).
-/

namespace RecordQuery

/-- The operator of an operation on numbers. -/
def Arithmetic.operator : Arithmetic → Operator
  | add => .plus
  | subtract => .minus
  | multiply => .times
  | divide => .divide
  | remainder => .modulo

/-- The operation on two values that an operation on numbers is part of. -/
def Arithmetic.binary : Arithmetic → Binary
  | add => .plus
  | subtract => .minus
  | multiply => .times
  | divide => .divide
  | remainder => .modulo

theorem Arithmetic.operator_binary? (operation : Arithmetic) :
    operation.operator.binary? = some operation.binary := by
  cases operation <;> rfl

theorem Arithmetic.apply_binary [Regexp.Matcher] (operation : Arithmetic) (m n : Int64) :
    operation.binary.apply (.integer m) (.integer n) =
      (Value.integer m).arithmetic operation (.integer n) := by
  cases operation <;> rfl

/-! ## Runs on constants -/

namespace Machine

theorem steps_loads [Regexp.Matcher] (env : Environment) (state : State) (values : List Value) :
    steps env state (values.map .load) =
      .ok { state with stack := values.reverse ++ state.stack } := by
  induction values generalizing state with
  | nil => rfl
  | cons value later ih =>
      simp only [List.map_cons, steps, step, ih]
      simp [State.push, State.put]

/-- A run that ends in a step on constants answers what the step does. -/
theorem result_of_step [Regexp.Matcher] {env : Environment} {values : List Value} {op : Op}
    {answer : Except Error Value}
    (hstep : step env ⟨values.reverse, none⟩ op = answer.map fun value => ⟨[value], none⟩) :
    (runOps env (values.map .load ++ [op])).result = answer := by
  have hstate : ({ State.start with stack := values.reverse ++ State.start.stack } : State) =
      ⟨values.reverse, none⟩ := by simp [State.start]
  have hsteps : steps env .start (values.map .load ++ [op]) =
      steps env ⟨values.reverse, none⟩ [op] := by
    rw [steps_append, steps_loads, hstate]
    rfl
  unfold runOps
  rw [hsteps]
  simp only [steps, hstep]
  cases answer <;> rfl

end Machine

namespace Compile

/-! ## Steps that give way to their answer -/

namespace Draft

/-- The draft with more steps. -/
def emitAll (draft : Draft) (ops : List Op) : Draft :=
  { draft with ops := draft.ops ++ ops.toArray }

@[simp] theorem emitAll_nil (draft : Draft) : draft.emitAll [] = draft := by
  simp [emitAll]

@[simp] theorem emitAll_cons (draft : Draft) (op : Op) (ops : List Op) :
    draft.emitAll (op :: ops) = (draft.emit op).emitAll ops := by
  have hops : draft.ops ++ (op :: ops).toArray = draft.ops.push op ++ ops.toArray :=
    Array.toList_inj.mp (by simp)
  unfold emitAll emit
  rw [hops]

/-- The draft once steps on constant integers are compiled: their answer takes their place, and
they stay if they fail. -/
def settle (draft : Draft) (ops : List Op) : Except Error Value → Draft
  | .ok value => draft.pushConstant value
  | .error _ => (draft.emitAll ops).push (.ofDomain (.scalar .integer) draft.ops.size)

theorem pushResult_emitAll [Regexp.Matcher] {draft : Draft} {source : Source} {ops : List Op}
    {answer : Except Error Value} (hrun : (Machine.runOps ⟨source, none⟩ ops).result = answer)
    (hinteger : ∀ value, answer = .ok value → ∃ k, value = .integer k) :
    (draft.emitAll ops).pushResult source (.ofDomain (.scalar .integer) draft.ops.size) true =
      draft.settle ops answer := by
  have hlater : (draft.emitAll ops).ops.toList.drop draft.ops.size = ops := by
    simp [emitAll]
  have hearlier : (draft.emitAll ops).truncate draft.ops.size = draft := by
    simp [emitAll, truncate]
  have hfolded : foldedValue? source ops = answer.toOption := by
    unfold foldedValue?
    rw [hrun]
  unfold pushResult
  simp only [Slot.ofDomain, hlater, if_true, hfolded]
  cases answer with
  | error error => rfl
  | ok value =>
      obtain ⟨k, rfl⟩ := hinteger value rfl
      simp only [Except.toOption, hearlier]
      rfl

end Draft

/-! ## Operations on integers -/

section Exact

variable [Regexp.Matcher]

/-- What is written to compute with constant integers. -/
def onConstants (operator : Operator) (operands : List Int64) : List Operation :=
  operands.map (fun n => .pushValue (.integer n)) ++ [.apply operator operands.length]

/-- Whether an operation on integers has an answer wherever it is computed. -/
structure Computes (operator : Operator) (op : Op) (operands : List Int64)
    (answer : Except Error Value) : Prop where
  /-- The step answers it, and leaves the values below the operands and the text last read. -/
  step : ∀ env below lastText,
    Machine.step env ⟨(operands.map Value.integer).reverse ++ below, lastText⟩ op =
      answer.map fun value => ⟨value :: below, lastText⟩
  /-- The compiler writes it instead of the steps, unless it is a failure. -/
  folds : ∀ (draft : Draft) scope index,
    draft.addAll scope index (onConstants operator operands) =
      .ok (draft.settle ((operands.map Value.integer).map Op.load ++ [op]) answer)
  /-- The operation compiles, and its program answers it. -/
  runs : ∀ source vars, ∃ compiled,
    compile source vars (onConstants operator operands) = .ok compiled ∧
      ∀ env, (Machine.run env compiled.program).result = answer

theorem Computes.of_add {operator : Operator} {op : Op} {operands : List Int64}
    {answer : Except Error Value}
    (hinteger : ∀ value, answer = .ok value → ∃ k, value = .integer k)
    (hstep : ∀ env below lastText,
      Machine.step env ⟨(operands.map Value.integer).reverse ++ below, lastText⟩ op =
        answer.map fun value => ⟨value :: below, lastText⟩)
    (hadd : ∀ (draft : Draft) scope index,
      draft.addAll scope index (onConstants operator operands) =
        .ok ((draft.emitAll ((operands.map Value.integer).map Op.load ++ [op])).pushResult
          scope.source (.ofDomain (.scalar .integer) draft.ops.size) true)) :
    Computes operator op operands answer := by
  have hresult (env : Environment) :
      (Machine.runOps env ((operands.map Value.integer).map Op.load ++ [op])).result = answer :=
    Machine.result_of_step (by simpa using hstep env [] none)
  have hfolds (draft : Draft) (scope : Scope) (index : Nat) :
      draft.addAll scope index (onConstants operator operands) =
        .ok (draft.settle ((operands.map Value.integer).map Op.load ++ [op]) answer) := by
    rw [hadd, Draft.pushResult_emitAll (hresult _) hinteger]
  refine ⟨hstep, hfolds, fun source vars => ?_⟩
  have hnonempty : onConstants operator operands ≠ [] := by simp [onConstants]
  -- A compiled program is what is left of the empty draft, folded or not.
  have hcompiled := hfolds .start ⟨source, vars⟩ 0
  cases answer with
  | error error =>
      have hkept (ops : List Op) :
          (Draft.start.settle ops (.error error)).ops.toList = ops := by
        simp [Draft.settle, Draft.emitAll, Draft.push, Draft.start]
      refine ⟨_, compile_eq_of_slot hnonempty hcompiled rfl trivial, fun env => ?_⟩
      rw [Machine.run_ofOps, hkept]
      exact hresult env
  | ok value =>
      refine ⟨_, compile_eq_of_slot hnonempty hcompiled rfl trivial, fun env => ?_⟩
      rw [Machine.run_ofOps]
      rfl

section Operations

variable {draft : Draft} {scope : Scope} {index : Nat}

/-- Two constant integers give way to the answer of an arithmetic operation. -/
theorem addAll_arithmetic (operation : Arithmetic) (m n : Int64) :
    draft.addAll scope index (onConstants operation.operator [m, n]) =
      .ok ((draft.emitAll [.load (.integer m), .load (.integer n),
        .binary operation.binary]).pushResult scope.source
          (.ofDomain (.scalar .integer) draft.ops.size) true) := by
  have hjoins : operation.operator.JoinsTwo := by cases operation <;> decide
  have hcomparison : operation.operator.isComparison = false := by cases operation <;> rfl
  have harithmetic : operation.operator.isArithmetic = true := by cases operation <;> rfl
  have hemit (between : Draft) (left right : Slot) :
      between.emitBinary (index + 1 + 1) operation.binary left right =
        .ok (between.emit (.binary operation.binary)) := by
    cases operation <;> rfl
  have hadd : draft.addAll scope index (onConstants operation.operator [m, n]) =
      ((draft.pushConstant (.integer m)).pushConstant (.integer n)).add scope (index + 1 + 1)
        (.apply operation.operator 2) := by
    rw [← Draft.addAll_singleton]
    rfl
  rw [hadd, Draft.add_joinsTwo hjoins rfl, Draft.applyTo_of_binary operation.operator_binary?]
  simp only [Draft.combine, Slot.requireValues, Slot.requireValue, Slot.ofDomain, hcomparison,
    hemit, harithmetic, Bool.false_eq_true, if_false, if_true, Draft.emitAll_cons,
    Draft.emitAll_nil]
  rfl

/-- A constant integer gives way to its negative. -/
theorem addAll_negate (n : Int64) :
    draft.addAll scope index (onConstants .negate [n]) =
      .ok ((draft.emitAll [.load (.integer n), .negate]).pushResult scope.source
        (.ofDomain (.scalar .integer) draft.ops.size) true) := by
  have hpush : Operator.negate ≠ .push := by decide
  have harity : Operator.negate.acceptsArity 1 = true := rfl
  have happly (between : Draft) (slot : Slot) :
      (between.push slot).apply scope (index + 1) .negate (1 : Int).toNat =
        between.negate scope (index + 1) slot := by
    simp [Draft.apply, neededSlots, Draft.push, takeTop, Draft.applyTo]
  calc draft.addAll scope index (onConstants .negate [n])
      = (draft.pushConstant (.integer n)).add scope (index + 1) (.apply .negate 1) := by
        rw [← Draft.addAll_singleton]
        rfl
    _ = (draft.emit (.load (.integer n))).negate scope (index + 1)
          { Slot.ofDomain (.scalar .integer) draft.ops.size with
            constant := some (.integer n) } := by
        rw [Draft.add_apply hpush, if_pos harity]
        exact happly ..
    _ = _ := by
        rw [Draft.emitAll_cons, Draft.emitAll_cons, Draft.emitAll_nil]
        rfl

end Operations

theorem computes_arithmetic (operation : Arithmetic) (m n : Int64) :
    Computes operation.operator (.binary operation.binary) [m, n]
      ((Value.integer m).arithmetic operation (.integer n)) := by
  refine .of_add (fun value hvalue => ?_) (fun env below lastText => ?_) fun draft scope index =>
    addAll_arithmetic operation m n
  · by_cases hlost : operation.LosesQuotient m n
    · rw [Value.arithmetic_of_losesQuotient hlost] at hvalue
      cases hvalue
    · exact (Value.arithmetic_answersExactly hlost).eq_integer hvalue
  · show (operation.binary.apply _ _).map _ = _
    rw [operation.apply_binary]
    rfl

theorem computes_negate (n : Int64) :
    Computes .negate .negate [n] (Value.integer n).negate :=
  .of_add (fun _ => (Value.negate_answersExactly n).eq_integer) (fun _ _ _ => rfl)
    fun _ _ _ => addAll_negate n

/-- Wherever an operation on integers is computed, it answers the exact result if that is one of 64
bits, and fails by the name of what is wrong otherwise.  Besides these failures the remainder of
the least integer by -1 is refused, whose quotient is beyond 64 bits. -/
theorem integer_arithmetic :
    (∀ (operation : Arithmetic) (m n : Int64), ∃ answer,
      Computes operation.operator (.binary operation.binary) [m, n] answer ∧
        if operation.LosesQuotient m n then answer = .error (.type (.overflow m n))
        else Value.AnswersExactly (operation.IsExact m.toInt n.toInt)
          (operation.divides = true ∧ n = 0) (.type (.overflow m n)) answer) ∧
      ∀ n : Int64, ∃ answer, Computes .negate .negate [n] answer ∧
        Value.AnswersExactly (· = -n.toInt) False (.type (.negationOverflow n)) answer := by
  refine ⟨fun operation m n => ⟨_, computes_arithmetic operation m n, ?_⟩,
    fun n => ⟨_, computes_negate n, Value.negate_answersExactly n⟩⟩
  split
  · rename_i hlost
    exact Value.arithmetic_of_losesQuotient hlost
  · rename_i hkept
    exact Value.arithmetic_answersExactly hkept

end Exact

/-- The least integer has the remainder 0 by -1, which is one of 64 bits, and is refused. -/
theorem modulo_overflow :
    Arithmetic.remainder.IsExact Int64.minValue.toInt (-1 : Int64).toInt (0 : Int64).toInt ∧
      Binary.modulo.apply (.integer Int64.minValue) (.integer (-1)) =
        .error (.type (.overflow Int64.minValue (-1))) := by
  refine ⟨⟨2 ^ 63, by decide, by decide, by decide⟩, by decide +kernel⟩

end Compile

end RecordQuery

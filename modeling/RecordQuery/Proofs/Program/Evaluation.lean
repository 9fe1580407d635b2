import RecordQuery.Program.Machine

/-!
# Evaluations and the steps that compute them

An evaluation reads the text that was last read from a column and answers a value together with the
text read last by then, or the failure that ends it.  Evaluations are put in a row with `bind`, so
operands are evaluated in order and the first failure wins.

`Machine.Computes` ties steps to an evaluation: from every stack they push what the evaluation
answers and fail where it fails.  One lemma for each kind of step says how the evaluations of the
operands become the evaluation of the result.
-/

namespace RecordQuery

open Machine (State Stop)

/-- What evaluating something answers, depending on the text that was last read from a column. -/
def Evaluation (α : Type) : Type := Option String → Except Stop (α × Option String)

namespace Evaluation

variable {α β : Type}

/-- The evaluation that answers a value and reads nothing. -/
def pure (value : α) : Evaluation α := fun text => .ok (value, text)

/-- The evaluation that answers what is known without reading anything, or fails. -/
def ofExcept : Except Error α → Evaluation α
  | .ok value => fun text => .ok (value, text)
  | .error error => fun text => .error ⟨error, text⟩

/-- One evaluation after another. -/
def bind (first : Evaluation α) (next : α → Evaluation β) : Evaluation β := fun text =>
  match first text with
  | .ok (value, later) => next value later
  | .error stop => .error stop

/-- An evaluation whose answer is changed. -/
def map (change : α → β) (first : Evaluation α) : Evaluation β :=
  first.bind fun value => pure (change value)

@[simp] theorem pure_bind (value : α) (next : α → Evaluation β) :
    (pure value).bind next = next value := rfl

@[simp] theorem ofExcept_ok (value : α) : ofExcept (.ok value) = pure value := rfl

theorem map_bind {γ : Type} (first : Evaluation α) (change : α → β) (next : β → Evaluation γ) :
    (first.map change).bind next = first.bind fun value => next (change value) := by
  funext text
  simp only [map, bind]
  cases first text <;> rfl

@[simp] theorem map_id (first : Evaluation α) : (first.map fun value => value) = first := by
  funext text
  simp only [map, bind]
  cases first text <;> rfl

/-- Reads a column of a record; a text that comes from the store is remembered. -/
def readColumn (source : Source) (record : Value) (column : ColumnRef) : Evaluation Value :=
  fun text =>
    match Machine.readColumn source record column with
    | .ok (.text s, true) => .ok (.text s, some s)
    | .ok (value, _) => .ok (value, text)
    | .error error => .error ⟨error, text⟩

/-- Reads the column that a value names, as the store knows it at that moment. -/
def readNamed (source : Source) (record name : Value) : Evaluation Value :=
  match name with
  | .text columnName =>
    match record with
    | .record r =>
      match source.column r.table columnName with
      | .ok column => readColumn source record column
      | .error status => ofExcept (.error (.store .runtime status))
    | .null _ => pure .unknown
    | other => ofExcept (.error (.type (.cannotRead columnName other.dataType)))
  | other => ofExcept (.error (.type (.columnNameNotText other.dataType)))

/-- What an evaluation leaves that starts a run. -/
def outcome (evaluation : Evaluation Value) : Machine.Outcome :=
  match evaluation none with
  | .ok (value, text) => ⟨.ok value, text⟩
  | .error stop => ⟨.error stop.error, stop.lastText⟩

end Evaluation

namespace Machine

variable [Regexp.Matcher]

/-- The steps push the value of an evaluation, or fail as it does. -/
def Computes (env : Environment) (code : List Op) (evaluation : Evaluation Value) : Prop :=
  ∀ state, steps env state code =
    (evaluation state.lastText).map fun (value, text) => ⟨value :: state.stack, text⟩

/-- The steps push the values of an evaluation in order, or fail as it does. -/
structure ComputesAll (env : Environment) (count : Nat) (code : List Op)
    (values : Evaluation (List Value)) : Prop where
  /-- The steps push the values, the last one on top. -/
  run : ∀ state, steps env state code =
    (values state.lastText).map fun (answers, text) => ⟨answers.reverse ++ state.stack, text⟩
  /-- There are as many values as operands. -/
  length : ∀ text answers later, values text = .ok (answers, later) → answers.length = count

/-- The state after an evaluation whose value comes onto other values. -/
def afterAnswer (below : List Value) (answer : Except Stop (Value × Option String)) :
    Except Stop State :=
  answer.map fun (value, text) => ⟨value :: below, text⟩

variable {env : Environment} {code first second : List Op}
  {evaluation left right : Evaluation Value} {values : Evaluation (List Value)}

theorem Computes.runOps (h : Computes env code evaluation) :
    runOps env code = evaluation.outcome := by
  rw [Machine.runOps, h State.start]
  simp only [Evaluation.outcome, State.start]
  cases evaluation none <;> rfl

/-! ## Steps behind the steps of their operands -/

theorem computes_load (value : Value) : Computes env [.load value] (.pure value) :=
  fun _ => rfl

theorem computes_loadVariable (position : Nat) :
    Computes env [.loadVariable position] (.ofExcept (env.variable position)) := by
  intro state
  simp only [steps, step]
  cases env.variable position <;> rfl

theorem computesAll_nil : ComputesAll env 0 [] (.pure []) :=
  ⟨fun _ => rfl, by rintro text answers later ⟨⟩; rfl⟩

theorem Computes.cons {count : Nat} (h : Computes env first evaluation)
    (hlater : ComputesAll env count second values) :
    ComputesAll env (count + 1) (first ++ second)
      (evaluation.bind fun value => values.map fun later => value :: later) := by
  refine ⟨fun state => ?_, fun text answers later hanswers => ?_⟩
  · rw [steps_append, h state]
    simp only [Evaluation.bind, Evaluation.map]
    cases evaluation state.lastText with
    | error stop => rfl
    | ok answer =>
        obtain ⟨value, text⟩ := answer
        simp only [Except.map, Except.bind, hlater.run ⟨value :: state.stack, text⟩]
        cases values text with
        | error stop => rfl
        | ok answer => simp [Evaluation.pure]
  · simp only [Evaluation.bind, Evaluation.map] at hanswers
    cases hvalue : evaluation text with
    | error stop => simp [hvalue] at hanswers
    | ok answer =>
        cases hvalues : values answer.2 with
        | error stop => simp [hvalue, hvalues] at hanswers
        | ok tail =>
            simp only [hvalue, hvalues, Evaluation.pure, Except.ok.injEq,
              Prod.mk.injEq] at hanswers
            rw [← hanswers.1, List.length_cons, hlater.length _ _ _ hvalues]

theorem Computes.thenStep (h : Computes env code evaluation) {op : Op}
    {next : Value → Evaluation Value}
    (hop : ∀ value below text,
      steps env ⟨value :: below, text⟩ [op] = afterAnswer below (next value text)) :
    Computes env (code ++ [op]) (evaluation.bind next) := by
  intro state
  rw [steps_append, h state]
  simp only [Evaluation.bind]
  cases evaluation state.lastText with
  | error stop => rfl
  | ok answer => exact hop ..

theorem ComputesAll.thenStep {count : Nat} (h : ComputesAll env count code values) {op : Op}
    {next : List Value → Evaluation Value}
    (hop : ∀ answers below text, answers.length = count →
      steps env ⟨answers.reverse ++ below, text⟩ [op] = afterAnswer below (next answers text)) :
    Computes env (code ++ [op]) (values.bind next) := by
  intro state
  rw [steps_append, h.run state]
  simp only [Evaluation.bind]
  cases hvalues : values state.lastText with
  | error stop => rfl
  | ok answer => exact hop _ _ _ (h.length _ _ _ hvalues)

/-- A step on the values that two rows of steps before it leave. -/
theorem Computes.thenStepTwo (hleft : Computes env first left)
    (hright : Computes env second right) {op : Op} {next : Value → Value → Evaluation Value}
    (hop : ∀ l r below text,
      steps env ⟨r :: l :: below, text⟩ [op] = afterAnswer below (next l r text)) :
    Computes env (first ++ (second ++ [op])) (left.bind fun l => right.bind (next l)) := by
  intro state
  rw [steps_append, hleft state]
  simp only [Evaluation.bind]
  cases left state.lastText with
  | error stop => rfl
  | ok answer =>
      obtain ⟨l, text⟩ := answer
      simp only [Except.map, Except.bind]
      rw [steps_append, hright ⟨l :: state.stack, text⟩]
      cases right text with
      | error stop => rfl
      | ok answer => exact hop ..

/-! ## Kinds of steps -/

omit [Regexp.Matcher] in
/-- The state after a column was read is what reading it answers, on the values below. -/
theorem State.readColumn_eq (state : State) (source : Source) (record : Value)
    (column : ColumnRef) (below : List Value) :
    (match state.readColumn source record column below with
      | .error error => .error ⟨error, state.lastText⟩
      | .ok next => .ok next) =
      afterAnswer below (Evaluation.readColumn source record column state.lastText) := by
  simp only [State.readColumn, Evaluation.readColumn]
  cases Machine.readColumn source record column with
  | error error => rfl
  | ok answer =>
      obtain ⟨value, stored⟩ := answer
      cases stored with
      | false => cases value <;> rfl
      | true => cases value <;> rfl

omit [Regexp.Matcher] in
theorem State.readNamed_eq (state : State) (source : Source) (record name : Value)
    (below : List Value) :
    (match state.readNamed source record name below with
      | .error error => .error ⟨error, state.lastText⟩
      | .ok next => .ok next) =
      afterAnswer below (Evaluation.readNamed source record name state.lastText) := by
  simp only [State.readNamed, Evaluation.readNamed]
  cases name with
  | text columnName =>
      cases record with
      | record r =>
          simp only
          cases source.column r.table columnName with
          | error status => rfl
          | ok column => exact state.readColumn_eq source (.record r) column below
      | _ => rfl
  | _ => rfl

theorem Computes.getColumn (h : Computes env code evaluation) (column : ColumnRef) :
    Computes env (code ++ [.getColumn column])
      (evaluation.bind fun record => .readColumn env.source record column) :=
  h.thenStep fun record below text =>
    State.readColumn_eq ⟨record :: below, text⟩ env.source record column below

theorem Computes.getValue (hleft : Computes env first left)
    (hright : Computes env second right) :
    Computes env (first ++ (second ++ [.getValue]))
      (left.bind fun record => right.bind fun name => .readNamed env.source record name) :=
  hleft.thenStepTwo hright fun record name below text =>
    State.readNamed_eq ⟨name :: record :: below, text⟩ env.source record name below

theorem Computes.mapTop (h : Computes env code evaluation) {op : Op}
    {rule : Value → Except Error Value} (hop : ∀ state, step env state op = state.mapTop rule) :
    Computes env (code ++ [op]) (evaluation.bind fun value => .ofExcept (rule value)) := by
  refine h.thenStep fun value below text => ?_
  simp only [steps, hop, State.mapTop]
  cases rule value <;> rfl

theorem Computes.binary (hleft : Computes env first left)
    (hright : Computes env second right) (operation : Binary) :
    Computes env (first ++ (second ++ [.binary operation]))
      (left.bind fun l => right.bind fun r => .ofExcept (operation.apply l r)) := by
  refine hleft.thenStepTwo hright fun l r below text => ?_
  simp only [steps, step, State.mapTopTwo]
  cases operation.apply l r <;> rfl

theorem ComputesAll.call {count : Nat} (h : ComputesAll env count code values)
    (function : ScalarFunction) :
    Computes env (code ++ [.call function count])
      (values.bind fun arguments => .ofExcept (function.evaluate arguments)) := by
  refine h.thenStep fun arguments below text hcount => ?_
  have hreverse : arguments.reverse.length = count := by rw [List.length_reverse, hcount]
  have henough : ¬ (arguments.reverse ++ below).length < count := by
    rw [List.length_append]
    omega
  simp only [steps, step, if_neg henough, List.take_left' hreverse, List.drop_left' hreverse,
    List.reverse_reverse]
  cases function.evaluate arguments <;> rfl

theorem ComputesAll.connect {count : Nat} (h : ComputesAll env count code values)
    (hpositive : count ≠ 0) (connective : Connective) :
    Computes env (code ++ [.connect connective count])
      (values.bind fun operands => .pure (.boolean (connective.holds operands))) := by
  refine h.thenStep fun operands below text hcount => ?_
  have hreverse : operands.reverse.length = count := by rw [List.length_reverse, hcount]
  have henough : ¬ (count = 0 ∨ (operands.reverse ++ below).length < count) := by
    rw [List.length_append]
    omega
  simp only [steps, step, if_neg henough, List.take_left' hreverse, List.drop_left' hreverse,
    List.reverse_reverse]
  rfl

end Machine

end RecordQuery

import RecordQuery.Program.Engine
import RecordQuery.Proofs.Program.Fusion

/-!
# A used engine runs like a fresh one

A run starts by clearing the stack and the text that was read last, and no step looks at the
arguments of an earlier call.  So what an engine does is what the machine does that starts empty,
whatever earlier runs have left in it.  The engine and the machine differ in one place: a step of
the engine that fails may have taken its operands off the stack.  `told` forgets that stack, as the
machine does.

Together with the joining of steps this gives `execute_ofOps`: an engine that was used before, with
the program whose steps are joined, answers like a fresh engine with the steps as they are.
-/

namespace RecordQuery.Engine

open Machine (State Stop Outcome step steps)

variable {α : Type} {env : Environment} {engine : Engine}

/-- What the machine tells of a change of the engine. -/
def told : EStateM.Result Error Engine α → Except Stop State
  | .ok _ left => .ok left.toState
  | .error error left => .error ⟨error, left.lastText⟩

/-- What the machine tells of a step, a failure together with the text that was read before it. -/
def stepTold [Regexp.Matcher] (env : Environment) (state : State) (op : Op) : Except Stop State :=
  (step env state op).mapError fun error => ⟨error, state.lastText⟩

/-- What is left of a run. -/
def outcome (executed : Engine × Except Error Value) : Outcome :=
  ⟨executed.2, executed.1.lastText⟩

/-! ## Operands and results -/

theorem get_engine (engine : Engine) :
    (EStateM.get engine : EStateM.Result Error Engine Engine) = .ok engine engine := rfl

theorem take_eq_ok {count : Nat} {fault : EvaluationFault} (h : count ≤ engine.stack.length) :
    take count fault engine =
      .ok (engine.stack.take count).reverse { engine with stack := engine.stack.drop count } := by
  have henough : ¬engine.stack.length < count := by omega
  simp only [take, bind, EStateM.bind, get, getThe, MonadStateOf.get, get_engine, henough,
    if_false]
  rfl

/-- Taking more values than there are fails. -/
theorem take_eq_error {count : Nat} {fault : EvaluationFault} (h : engine.stack.length < count) :
    take count fault engine = .error (.evaluation fault) engine := by
  simp only [take, bind, EStateM.bind, get, getThe, MonadStateOf.get, get_engine, h, if_true]
  rfl

theorem told_push (computed : Except Error Value) :
    told ((ofExcept computed >>= push) engine) =
      (computed.map fun result => engine.put result engine.stack).mapError
        fun error => ⟨error, engine.lastText⟩ := by
  cases computed <;> rfl

/-! ## Reading columns -/

theorem told_readColumn (source : Source) (record : Value) (column : ColumnRef) :
    told ((readColumn source record column >>= push) engine) =
      (engine.toState.readColumn source record column engine.stack).mapError
        fun error => ⟨error, engine.lastText⟩ := by
  simp only [bind, EStateM.bind, readColumn, State.readColumn]
  cases Machine.readColumn source record column with
  | error error => rfl
  | ok answer =>
      obtain ⟨value, isStored⟩ := answer
      cases isStored <;> cases value <;> rfl

theorem told_readNamed (source : Source) (record name : Value) :
    told ((readNamed source record name >>= push) engine) =
      (engine.toState.readNamed source record name engine.stack).mapError
        fun error => ⟨error, engine.lastText⟩ := by
  cases name with
  | text columnName =>
      cases record with
      | record r =>
          simp only [readNamed, State.readNamed]
          cases source.column r.table columnName with
          | error status => rfl
          | ok column => exact told_readColumn source (.record r) column
      | _ => rfl
  | _ => rfl

/-! ## Steps -/

variable [Regexp.Matcher]

/-- A step of the engine is a step of the machine. -/
theorem told_perform (op : Op) : told (perform env op engine) = stepTold env engine.toState op := by
  obtain ⟨⟨stack, lastText⟩, arguments⟩ := engine
  cases op with
  | load value => rfl
  | loadVariable position => exact told_push (env.variable position)
  | loadVariableColumn position column =>
      simp only [perform, stepTold, step]
      cases env.variable position with
      | error error => rfl
      | ok record => exact told_readColumn env.source record column
  | getColumn column =>
      cases stack with
      | nil => rfl
      | cons record below => exact told_readColumn env.source record column
  | getValue =>
      cases stack with
      | nil => rfl
      | cons name below =>
          cases below with
          | nil => rfl
          | cons record below => exact told_readNamed env.source record name
  | pop => cases stack <;> rfl
  | call function count =>
      simp only [perform, stepTold, step, bind, EStateM.bind]
      by_cases hshort : stack.length < count
      · rw [take_eq_error hshort, if_pos hshort]
        rfl
      · rw [take_eq_ok (Nat.le_of_not_lt hshort), if_neg hshort]
        exact told_push (function.evaluate (stack.take count).reverse)
  | connect connective count =>
      simp only [perform, stepTold, step]
      by_cases hnone : count = 0
      · rw [if_pos hnone, if_pos (.inl hnone)]
        rfl
      · rw [if_neg hnone]
        simp only [bind, EStateM.bind]
        by_cases hshort : stack.length < count
        · rw [take_eq_error hshort, if_pos (.inr hshort)]
          rfl
        · rw [take_eq_ok (Nat.le_of_not_lt hshort), if_neg (not_or.mpr ⟨hnone, hshort⟩)]
          rfl
  | not => cases stack <;> rfl
  | binary operation =>
      cases stack with
      | nil => rfl
      | cons right below =>
          cases below with
          | nil => rfl
          | cons left below => exact told_push (operation.apply left right)
  | containsNeedle needle => cases stack <;> rfl
  | matchesRegexp regexp => cases stack <;> rfl
  | negate =>
      cases stack with
      | nil => rfl
      | cons value below => exact told_push value.negate

theorem steps_cons (state : State) (op : Op) (later : List Op) :
    steps env state (op :: later) =
      (stepTold env state op).bind fun next => steps env next later := by
  simp only [steps, stepTold]
  cases step env state op <;> rfl

theorem told_performAll (ops : List Op) :
    told (performAll env ops engine) = steps env engine.toState ops := by
  induction ops generalizing engine with
  | nil => rfl
  | cons op later ih =>
      rw [steps_cons, ← told_perform]
      simp only [performAll, bind, EStateM.bind]
      cases perform env op engine with
      | error error left => rfl
      | ok answer left => exact ih

/-! ## Runs -/

/-- Whatever is left in an engine, it runs a program as the machine does that starts empty. -/
theorem outcome_execute (used : Engine) (env : Environment) (program : Program) :
    outcome (used.execute env program) = Machine.run env program := by
  let cleared : Engine := { used with stack := [], lastText := none }
  have hsteps : told (performAll env program.ops cleared) = steps env .start program.ops :=
    told_performAll program.ops
  simp only [Machine.run, Machine.runOps, ← hsteps]
  have hrun : run env program used = (performAll env program.ops >>= fun _ =>
      do return (← pop?).getD .unknown) cleared := rfl
  simp only [execute, hrun, bind, EStateM.bind]
  cases performAll env program.ops cleared with
  | error error left => rfl
  | ok answer left =>
      obtain ⟨⟨stack, lastText⟩, arguments⟩ := left
      cases stack <;> rfl

/-- Joining steps never changes a run: with the program of steps an engine answers, whatever earlier
runs have left in it, as a fresh engine does with the steps themselves, and remembers the same
text. -/
theorem execute_ofOps (used : Engine) (env : Environment) (ops : List Op) :
    (used.execute env (.ofOps ops)).2 = (fresh.execute env ⟨ops⟩).2 ∧
      (used.execute env (.ofOps ops)).1.lastText = (fresh.execute env ⟨ops⟩).1.lastText := by
  have houtcome : outcome (used.execute env (.ofOps ops)) = outcome (fresh.execute env ⟨ops⟩) :=
    calc
      outcome (used.execute env (.ofOps ops)) = Machine.run env (.ofOps ops) :=
        outcome_execute used env _
      _ = Machine.runOps env ops := Machine.run_ofOps env ops
      _ = outcome (fresh.execute env ⟨ops⟩) := (outcome_execute fresh env ⟨ops⟩).symm
  exact ⟨congrArg Outcome.result houtcome, congrArg Outcome.lastText houtcome⟩

end RecordQuery.Engine

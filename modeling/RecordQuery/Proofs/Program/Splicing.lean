import RecordQuery.Proofs.Program.Stack

/-!
# Runs with steps spliced in

Steps that find what they need run on top of other values as they run alone, and what they fail
with does not depend on the text that was read before (`steps_over`).  So the steps of a value that
is discarded at once leave the stack alone, wherever they stand: they fail where evaluating the
value fails, and all that they change otherwise is the text read last (`State.discarding`).
-/

namespace RecordQuery.Machine

variable {env : Environment} {state lower : State} {op : Op} {ops : List Op}

/-! ## States on top of others -/

/-- The values of a state on top of those of another one, after the text read there. -/
def State.over (state lower : State) : State :=
  ⟨state.stack ++ lower.stack, state.lastText.or lower.lastText⟩

/-- A failure after the text that was read before the run. -/
def Stop.over (stop : Stop) (lower : State) : Stop :=
  { stop with lastText := stop.lastText.or lower.lastText }

/-- What a run leads to that starts on top of another state. -/
def runOver (lower : State) : Except Stop State → Except Stop State
  | .ok state => .ok (state.over lower)
  | .error stop => .error (stop.over lower)

theorem State.readColumn_over (source : Source) (record : Value) (column : ColumnRef)
    (below : List Value) :
    (state.over lower).readColumn source record column (below ++ lower.stack) =
      (state.readColumn source record column below).map (·.over lower) := by
  simp only [State.readColumn]
  cases Machine.readColumn source record column with
  | error error => rfl
  | ok answer =>
      obtain ⟨value, stored⟩ := answer
      cases stored with
      | false => rfl
      | true => cases value <;> rfl

theorem State.readNamed_over (source : Source) (record name : Value) (below : List Value) :
    (state.over lower).readNamed source record name (below ++ lower.stack) =
      (state.readNamed source record name below).map (·.over lower) := by
  simp only [State.readNamed]
  cases name with
  | text columnName =>
      cases record with
      | record r =>
          simp only
          cases source.column r.table columnName with
          | error status => rfl
          | ok column => exact State.readColumn_over source (.record r) column below
      | _ => rfl
  | _ => rfl

theorem State.mapTop_over (rule : Value → Except Error Value)
    (hdeep : 1 ≤ state.stack.length ∨ lower.stack = []) :
    (state.over lower).mapTop rule = (state.mapTop rule).map (·.over lower) := by
  obtain ⟨stack, text⟩ := state
  cases stack with
  | nil =>
      rcases hdeep with hdeep | hnone
      · cases hdeep
      · simp [State.mapTop, State.over, hnone, underflow, Except.map]
  | cons value below =>
      simp only [State.mapTop, State.over, List.cons_append]
      cases rule value <;> rfl

theorem State.mapTopTwo_over (rule : Value → Value → Except Error Value)
    (hdeep : 2 ≤ state.stack.length ∨ lower.stack = []) :
    (state.over lower).mapTopTwo rule = (state.mapTopTwo rule).map (·.over lower) := by
  obtain ⟨stack, text⟩ := state
  rcases stack with _ | ⟨right, _ | ⟨left, below⟩⟩
  case cons.cons =>
    simp only [State.mapTopTwo, State.over, List.cons_append]
    cases rule left right <;> rfl
  all_goals
    rcases hdeep with hdeep | hnone
    · simp at hdeep
    · simp [State.mapTopTwo, State.over, hnone, underflow, Except.map]

variable [Regexp.Matcher]

/-- A step that finds what it needs does the same on top of other values, and any step does the same
after another text. -/
theorem step_over (hdeep : op.taken ≤ state.stack.length ∨ lower.stack = []) :
    step env (state.over lower) op = (step env state op).map (·.over lower) := by
  obtain ⟨stack, text⟩ := state
  cases op with
  | load value => rfl
  | loadVariable position =>
      simp only [step]
      cases env.variable position <;> rfl
  | loadVariableColumn position column =>
      simp only [step]
      cases env.variable position with
      | error error => rfl
      | ok record => exact State.readColumn_over env.source record column stack
  -- An empty stack is short of operands above an empty stack as well, and nowhere else.
  | getColumn column =>
      cases stack with
      | nil =>
          rcases hdeep with hdeep | hnone
          · cases hdeep
          · simp [step, State.over, hnone, underflow, Except.map]
      | cons record below => exact State.readColumn_over env.source record column below
  | getValue =>
      rcases stack with _ | ⟨name, _ | ⟨record, below⟩⟩
      case cons.cons => exact State.readNamed_over env.source record name below
      all_goals
        rcases hdeep with hdeep | hnone
        · simp [Op.taken] at hdeep
        · simp [step, State.over, hnone, underflow, Except.map]
  | pop =>
      cases stack with
      | nil =>
          rcases hdeep with hdeep | hnone
          · cases hdeep
          · simp [step, State.over, hnone, underflow, Except.map]
      | cons value below => rfl
  | call function count =>
      rcases hdeep with hdeep | hnone
      · have hdeep : count ≤ stack.length := hdeep
        have hmore : ¬ (stack ++ lower.stack).length < count := by
          rw [List.length_append]
          omega
        simp only [step, State.over, if_neg hmore, if_neg (Nat.not_lt.mpr hdeep),
          List.take_append_of_le_length hdeep, List.drop_append_of_le_length hdeep]
        cases function.evaluate (stack.take count).reverse <;> rfl
      · simp only [step, State.over, hnone, List.append_nil]
        split
        · rfl
        · cases function.evaluate (stack.take count).reverse <;>
            simp [Except.map, State.put]
  | connect connective count =>
      rcases hdeep with hdeep | hnone
      · have hdeep : count ≤ stack.length := hdeep
        have hmore : ¬ (stack ++ lower.stack).length < count := by
          rw [List.length_append]
          omega
        simp only [step, State.over, hmore, Nat.not_lt.mpr hdeep,
          List.take_append_of_le_length hdeep, List.drop_append_of_le_length hdeep]
        split <;> rfl
      · simp only [step, State.over, hnone, List.append_nil]
        split
        · rfl
        · simp [Except.map, State.put]
  | not => exact State.mapTop_over _ hdeep
  | binary operation => exact State.mapTopTwo_over _ hdeep
  | containsNeedle needle => exact State.mapTop_over _ hdeep
  | matchesRegexp regexp => exact State.mapTop_over _ hdeep
  | negate => exact State.mapTop_over _ hdeep

/-! ## Runs on top of others -/

theorem steps_over_cons {rest : List Op}
    (hdeep : op.taken ≤ state.stack.length ∨ lower.stack = [])
    (hrest : ∀ next, step env state op = .ok next →
      steps env (next.over lower) rest = runOver lower (steps env next rest)) :
    steps env (state.over lower) (op :: rest) = runOver lower (steps env state (op :: rest)) := by
  simp only [steps, step_over hdeep]
  cases hstep : step env state op with
  | error error => rfl
  | ok next => exact hrest next hstep

/-- Steps that find what they need run on top of other values as they run alone. -/
theorem steps_over {limit depth last : Nat} (h : Lifts limit depth ops last)
    (hdepth : state.stack.length = depth) (lower : State) :
    steps env (state.over lower) ops = runOver lower (steps env state ops) := by
  induction h generalizing state with
  | nil => rfl
  | cons _ _ ih =>
      refine steps_over_cons (.inl (by omega)) fun next hstep => ih ?_
      have hlength := step_length hstep
      omega

theorem steps_above {limit last : Nat} (h : Lifts limit 0 ops last) (state : State) :
    steps env state ops = runOver state (steps env .start ops) :=
  have hstart : State.start.stack.length = 0 := rfl
  steps_over h hstart state

theorem steps_after (state : State) (text : Option String) (ops : List Op) :
    steps env (state.over ⟨[], text⟩) ops = runOver ⟨[], text⟩ (steps env state ops) := by
  induction ops generalizing state with
  | nil => rfl
  | cons op rest ih => exact steps_over_cons (.inr rfl) fun next _ => ih next

/-! ## Discarding -/

/-- The state after evaluating something by itself and discarding its value: if that fails, so does
the run, and otherwise the stack is as it was. -/
def State.discarding (state : State) (aside : Outcome) : Except Stop State :=
  match aside.result with
  | .error error => .error ⟨error, aside.lastText.or state.lastText⟩
  | .ok _ => .ok { state with lastText := aside.lastText.or state.lastText }

/-- Steps discard what is evaluated by itself, from every state. -/
def Discards (extra : List Op) (aside : Environment → Outcome) : Prop :=
  ∀ env state, steps env state extra = state.discarding (aside env)

/-- The steps of a value and a `POP` discard it. -/
theorem discards_value {limit : Nat} (h : Lifts limit 0 ops 1) :
    Discards (ops ++ [.pop]) fun env => runOps env ops := by
  intro env state
  rw [steps_append, steps_above h state]
  cases hsteps : steps env .start ops with
  | error stop => simp only [runOps, hsteps]; rfl
  | ok next =>
      obtain ⟨value, hnext⟩ := steps_value h hsteps
      simp only [runOps, hsteps, runOver, Except.bind, State.over, hnext, steps]
      rfl

/-- Steps in front of a constant that leave no value discard it when it is left out. -/
theorem discards_constant {limit : Nat} (h : Lifts limit 0 ops 0) (value : Value) :
    Discards ops fun env => runOps env (ops ++ [.load value]) := by
  intro env state
  rw [steps_above h state]
  cases hsteps : steps env .start ops with
  | error stop => simp only [runOps, steps_append, hsteps]; rfl
  | ok next =>
      have hnext : next.stack = [] := steps_neutral h hsteps
      simp only [runOps, steps_append, hsteps, runOver, State.over, hnext]
      rfl

section Spliced

variable {first extra behind : List Op} {aside : Environment → Outcome} {reached : State}

theorem runOps_spliced_of_error {stop : Stop} (hfirst : steps env .start first = .error stop) :
    runOps env (first ++ (extra ++ behind)) = runOps env (first ++ behind) := by
  simp only [runOps, steps_append env _ first, hfirst]
  rfl

/-- A run fails where evaluating what is discarded fails. -/
theorem runOps_spliced_error (h : Discards extra aside)
    (hfirst : steps env .start first = .ok reached) {error : Error}
    (haside : (aside env).result = .error error) :
    runOps env (first ++ (extra ++ behind)) =
      ⟨.error error, (aside env).lastText.or reached.lastText⟩ := by
  simp only [runOps, steps_append, hfirst, Except.bind, h env reached, State.discarding, haside]
  rfl

/-- A run goes on behind what is discarded, and ends as without it but for the text read last. -/
theorem runOps_spliced_ok (h : Discards extra aside)
    (hfirst : steps env .start first = .ok reached) {value : Value}
    (haside : (aside env).result = .ok value) :
    runOps env (first ++ (extra ++ behind)) =
        .ofRun (steps env
          { reached with lastText := (aside env).lastText.or reached.lastText } behind) ∧
      (runOps env (first ++ (extra ++ behind))).result = (runOps env (first ++ behind)).result := by
  have hspliced : runOps env (first ++ (extra ++ behind)) =
      .ofRun (steps env
        { reached with lastText := (aside env).lastText.or reached.lastText } behind) := by
    simp only [runOps, steps_append, hfirst, Except.bind, h env reached, State.discarding, haside]
  have hplain : runOps env (first ++ behind) = .ofRun (steps env reached behind) := by
    simp only [runOps, steps_append, hfirst, Except.bind]
  refine ⟨hspliced, ?_⟩
  -- Both runs go on from the same stack, each after a text of its own.
  have hafter (text : Option String) :
      (Outcome.ofRun (steps env { reached with lastText := text } behind)).result =
        (Outcome.ofRun (steps env { reached with lastText := none } behind)).result := by
    have hrun : steps env { reached with lastText := text } behind =
        runOver ⟨[], text⟩ (steps env { reached with lastText := none } behind) := by
      rw [← steps_after]
      simp [State.over]
    rw [hrun]
    cases steps env { reached with lastText := none } behind with
    | error stop => rfl
    | ok next => simp [runOver, Outcome.ofRun, State.over]
  calc (runOps env (first ++ (extra ++ behind))).result
      _ = (Outcome.ofRun (steps env
            { reached with lastText := (aside env).lastText.or reached.lastText } behind)).result :=
        congrArg Outcome.result hspliced
      _ = (Outcome.ofRun (steps env { reached with lastText := none } behind)).result := hafter _
      _ = (Outcome.ofRun (steps env reached behind)).result := (hafter reached.lastText).symm
      _ = (runOps env (first ++ behind)).result := congrArg Outcome.result hplain.symm

/-- Steps that fail by themselves fail as well with something discarded between them. -/
theorem result_spliced (h : Discards extra aside) {value : Value}
    (hrun : (runOps env (first ++ (extra ++ behind))).result = .ok value) :
    (runOps env (first ++ behind)).result = .ok value := by
  cases hfirst : steps env .start first with
  | error stop =>
      rw [runOps_spliced_of_error hfirst] at hrun
      exact hrun
  | ok reached =>
      cases haside : (aside env).result with
      | error error =>
          rw [runOps_spliced_error h hfirst haside] at hrun
          cases hrun
      | ok other =>
          rw [← (runOps_spliced_ok h hfirst haside).2]
          exact hrun

end Spliced

end RecordQuery.Machine

import RecordQuery.Proofs.Program.Depth

/-!
# What steps do to the stack

A step takes the values that it needs off the top of the stack and leaves its answer, or nothing if
it discards the top (`step_stack`, `step_pop`).  What the answer has to do with the values that the
step finds is said once by `Op.Answers`.

So steps whose depth is known before the run leave the values below alone (`steps_frame`).
-/

namespace RecordQuery

open Machine (State)

/-! ## Answers of single steps -/

/-- What the value that a step leaves has to do with the values that the step finds. -/
def Op.Answers [Regexp.Matcher] (env : Environment) (stack : List Value) (value : Value) : Op → Prop
  | load other => value = other
  | loadVariable position => env.variable position = .ok value
  | loadVariableColumn _ column | getColumn column =>
    ∃ record stored, Machine.readColumn env.source record column = .ok (value, stored)
  | getValue | pop => True
  | call function _ => ∃ arguments, function.evaluate arguments = .ok value
  | connect .. | not | containsNeedle _ | matchesRegexp _ => value.dataType = .boolean
  | binary operation =>
    ∃ left right below, stack = right :: left :: below ∧ operation.apply left right = .ok value
  | negate => ∃ operand below, stack = operand :: below ∧ operand.negate = .ok value

namespace Machine

variable {env : Environment} {state next : State} {op : Op} {ops : List Op}

/-- A column that is read is put onto the values below. -/
theorem State.readColumn_stack {source : Source} {record : Value} {column : ColumnRef}
    {below : List Value} (hread : state.readColumn source record column below = .ok next) :
    ∃ value stored, next.stack = value :: below ∧
      Machine.readColumn source record column = .ok (value, stored) := by
  unfold State.readColumn at hread
  split at hread
  · cases hread
  · rename_i value hvalue
    cases hread
    refine ⟨value, true, ?_, hvalue⟩
    unfold State.read
    split <;> rfl
  · rename_i value hvalue
    cases hread
    exact ⟨value, false, rfl, hvalue⟩

theorem State.readNamed_stack {source : Source} {record name : Value} {below : List Value}
    (hread : state.readNamed source record name below = .ok next) :
    ∃ value, next.stack = value :: below := by
  unfold State.readNamed at hread
  split at hread
  · split at hread
    · split at hread
      · cases hread
      · obtain ⟨value, _, hstack, _⟩ := State.readColumn_stack hread
        exact ⟨value, hstack⟩
    · cases hread
      exact ⟨_, rfl⟩
    · cases hread
  · cases hread

theorem State.mapTop_stack {rule : Value → Except Error Value}
    (hmap : state.mapTop rule = .ok next) :
    ∃ operand below value, state.stack = operand :: below ∧ rule operand = .ok value ∧
      next.stack = value :: below := by
  unfold State.mapTop at hmap
  split at hmap
  · rename_i operand below hstack
    obtain ⟨value, hvalue, rfl⟩ := exists_of_map_eq_ok hmap
    exact ⟨operand, below, value, hstack, hvalue, rfl⟩
  · cases hmap

theorem State.mapTopTwo_stack {rule : Value → Value → Except Error Value}
    (hmap : state.mapTopTwo rule = .ok next) :
    ∃ left right below value, state.stack = right :: left :: below ∧
      rule left right = .ok value ∧ next.stack = value :: below := by
  unfold State.mapTopTwo at hmap
  split at hmap
  · rename_i right left below hstack
    obtain ⟨value, hvalue, rfl⟩ := exists_of_map_eq_ok hmap
    exact ⟨left, right, below, value, hstack, hvalue, rfl⟩
  · cases hmap

theorem dataType_containsNeedle (value : Value) (needle : Needle) :
    (value.containsNeedle needle).dataType = .boolean := by
  unfold Value.containsNeedle
  split <;> rfl

theorem dataType_matchesRegexp (value : Value) (regexp : Regexp) :
    (value.matchesRegexp regexp).dataType = .boolean := by
  unfold Value.matchesRegexp
  split <;> rfl

variable [Regexp.Matcher]

theorem step_pop (hstep : step env state .pop = .ok next) :
    next.stack = state.stack.drop Op.pop.taken := by
  simp only [step] at hstep
  split at hstep
  · rename_i hstack
    cases hstep
    rw [hstack]
    rfl
  · cases hstep

/-- A step other than `POP` puts its answer onto the values that it does not take. -/
theorem step_stack (hop : op ≠ .pop) (hstep : step env state op = .ok next) :
    ∃ value, next.stack = value :: state.stack.drop op.taken ∧
      op.Answers env state.stack value := by
  cases op with
  | pop => exact absurd rfl hop
  | load value =>
      cases hstep
      exact ⟨value, rfl, rfl⟩
  | loadVariable position =>
      obtain ⟨value, hvalue, rfl⟩ := exists_of_map_eq_ok hstep
      exact ⟨value, rfl, hvalue⟩
  | loadVariableColumn position column =>
      simp only [step] at hstep
      split at hstep
      · cases hstep
      · rename_i record _
        obtain ⟨value, stored, hstack, hvalue⟩ := State.readColumn_stack hstep
        exact ⟨value, hstack, record, stored, hvalue⟩
  | getColumn column =>
      simp only [step] at hstep
      split at hstep
      · rename_i record below hstate
        obtain ⟨value, stored, hstack, hvalue⟩ := State.readColumn_stack hstep
        exact ⟨value, by rw [hstack, hstate]; rfl, record, stored, hvalue⟩
      · cases hstep
  | getValue =>
      simp only [step] at hstep
      split at hstep
      · rename_i hstate
        obtain ⟨value, hstack⟩ := State.readNamed_stack hstep
        exact ⟨value, by rw [hstack, hstate]; rfl, trivial⟩
      · cases hstep
  | call function count =>
      simp only [step] at hstep
      split at hstep
      · cases hstep
      · obtain ⟨value, hvalue, rfl⟩ := exists_of_map_eq_ok hstep
        exact ⟨value, rfl, _, hvalue⟩
  | connect connective count =>
      simp only [step] at hstep
      split at hstep
      · cases hstep
      · cases hstep
        exact ⟨_, rfl, rfl⟩
  | not =>
      obtain ⟨operand, below, value, hstate, hvalue, hstack⟩ := State.mapTop_stack hstep
      cases hvalue
      exact ⟨.boolean !operand.isTruthy, by rw [hstack, hstate]; rfl, rfl⟩
  | containsNeedle needle =>
      obtain ⟨operand, below, value, hstate, hvalue, hstack⟩ := State.mapTop_stack hstep
      cases hvalue
      exact ⟨_, by rw [hstack, hstate]; rfl, dataType_containsNeedle operand needle⟩
  | matchesRegexp regexp =>
      obtain ⟨operand, below, value, hstate, hvalue, hstack⟩ := State.mapTop_stack hstep
      cases hvalue
      exact ⟨_, by rw [hstack, hstate]; rfl, dataType_matchesRegexp operand regexp⟩
  | negate =>
      obtain ⟨operand, below, value, hstate, hvalue, hstack⟩ := State.mapTop_stack hstep
      exact ⟨value, by rw [hstack, hstate]; rfl, operand, below, hstate, hvalue⟩
  | binary operation =>
      obtain ⟨left, right, below, value, hstate, hvalue, hstack⟩ := State.mapTopTwo_stack hstep
      exact ⟨value, by rw [hstack, hstate]; rfl, left, right, below, hstate, hvalue⟩

/-! ## Values below -/

/-- A step leaves the values alone that are below those it takes. -/
theorem step_frame {top below : List Value} (hstack : state.stack = top ++ below)
    (htaken : op.taken ≤ top.length) (hstep : step env state op = .ok next) :
    ∃ left, next.stack = left ++ below := by
  have hdrop : state.stack.drop op.taken = top.drop op.taken ++ below := by
    rw [hstack, List.drop_append_of_le_length htaken]
  by_cases hop : op = .pop
  · subst hop
    exact ⟨_, (step_pop hstep).trans hdrop⟩
  · obtain ⟨value, hnext, _⟩ := step_stack hop hstep
    exact ⟨value :: top.drop op.taken, by rw [hnext, hdrop, List.cons_append]⟩

/-- Steps that start at a depth leave the values below that depth alone. -/
theorem steps_frame {limit depth last : Nat} (h : Lifts limit depth ops last)
    {top below : List Value} (hstack : state.stack = top ++ below) (htop : top.length = depth)
    (hsteps : steps env state ops = .ok next) :
    ∃ left, next.stack = left ++ below ∧ left.length = last := by
  induction h generalizing state top with
  | nil =>
      cases hsteps
      exact ⟨top, hstack, htop⟩
  | @cons kept last op rest hop _ ih =>
      rw [steps] at hsteps
      split at hsteps
      · cases hsteps
      · rename_i between hstep
        obtain ⟨left, hleft⟩ := step_frame hstack (by omega) hstep
        have hlength := step_length hstep
        rw [hleft, hstack, List.length_append, List.length_append] at hlength
        exact ih hleft (by omega) hsteps

theorem steps_value {limit : Nat} (h : Lifts limit 0 ops 1)
    (hsteps : steps env state ops = .ok next) : ∃ value, next.stack = value :: state.stack := by
  obtain ⟨left, hnext, hlength⟩ := steps_frame h (List.nil_append _).symm rfl hsteps
  obtain ⟨value, rfl⟩ := List.length_eq_one_iff.mp hlength
  exact ⟨value, hnext⟩

theorem steps_neutral {limit : Nat} (h : Lifts limit 0 ops 0)
    (hsteps : steps env state ops = .ok next) : next.stack = state.stack := by
  obtain ⟨left, hnext, hlength⟩ := steps_frame h (List.nil_append _).symm rfl hsteps
  rw [hnext, List.eq_nil_of_length_eq_zero hlength, List.nil_append]

theorem steps_append_ok {first second : List Op}
    (hsteps : steps env state (first ++ second) = .ok next) :
    ∃ between, steps env state first = .ok between ∧ steps env between second = .ok next := by
  rw [steps_append] at hsteps
  cases hfirst : steps env state first with
  | error stop =>
      rw [hfirst] at hsteps
      cases hsteps
  | ok between =>
      rw [hfirst] at hsteps
      exact ⟨between, rfl, hsteps⟩

theorem steps_single_ok (hsteps : steps env state [op] = .ok next) :
    step env state op = .ok next := by
  rw [steps] at hsteps
  split at hsteps
  · cases hsteps
  · rename_i between hstep
    cases hsteps
    exact hstep

theorem runOps_ok {ops : List Op} {value : Value} (hrun : (runOps env ops).result = .ok value) :
    ∃ next, steps env .start ops = .ok next ∧ next.stack.headD .unknown = value := by
  unfold runOps at hrun
  cases hsteps : steps env .start ops with
  | error stop =>
      rw [hsteps] at hrun
      cases hrun
  | ok next =>
      rw [hsteps] at hrun
      exact ⟨next, rfl, Except.ok.inj hrun⟩

end Machine

end RecordQuery

import RecordQuery.Program.Machine

/-!
# Joined steps run like the steps they join

Making a program joins a variable with a column of it, and a constant keyword with the search for
it.  The joined step goes through the same intermediate state as the two steps and fails where one
of them fails, so `steps_fuse` needs no assumption on the list: it holds of steps that find too few
values as well.
-/

namespace RecordQuery.Machine

variable [Regexp.Matcher]

/-- Reading a column of a variable is reading the variable and then the column. -/
theorem steps_loadVariable_getColumn (env : Environment) (state : State) (position : Nat)
    (column : ColumnRef) (rest : List Op) :
    steps env state (.loadVariable position :: .getColumn column :: rest) =
      steps env state (.loadVariableColumn position column :: rest) := by
  cases hrecord : env.variable position with
  | error error => simp only [steps, step, hrecord, Except.map]
  | ok record =>
      simp only [steps, step, hrecord, Except.map]
      -- The second step replaces the stack, so what the first one pushed leaves no trace.
      rfl

/-- Searching for a constant keyword is pushing it and then searching for the top. -/
theorem steps_load_contains (env : Environment) (state : State) (keyword : String)
    (rest : List Op) :
    steps env state (.load (.text keyword) :: .binary .contains :: rest) =
      steps env state (.containsNeedle (.ofKeyword keyword) :: rest) := by
  obtain ⟨stack, lastText⟩ := state
  cases stack with
  | nil => rfl
  | cons value below =>
      have hrule : value.containsText (.text keyword) =
          value.containsNeedle (.ofKeyword keyword) := by
        simp only [Value.containsText, Value.testTexts, Value.containsNeedle]
        cases value.searchText? <;> rfl
      simp only [steps, step, State.push, State.put, State.mapTop, State.mapTopTwo,
        Binary.apply, Except.map, hrule]

/-- A list of steps runs alike before and after neighbours are joined, from every state. -/
theorem steps_fuse (env : Environment) (state : State) (ops : List Op) :
    steps env state (Program.fuse ops) = steps env state ops := by
  fun_induction Program.fuse ops generalizing state with
  | case1 position column rest ih =>
      rw [steps_loadVariable_getColumn]
      simp only [steps]
      split
      · rfl
      · exact ih _
  | case2 keyword rest ih =>
      rw [steps_load_contains]
      simp only [steps]
      split
      · rfl
      · exact ih _
  | case3 op rest _ _ ih =>
      simp only [steps]
      split
      · rfl
      · exact ih _
  | case4 => rfl

/-- Running the program of steps is running the steps. -/
theorem run_ofOps (env : Environment) (ops : List Op) :
    run env (.ofOps ops) = runOps env ops := by
  simp only [run, runOps, Program.ofOps, steps_fuse]

end RecordQuery.Machine

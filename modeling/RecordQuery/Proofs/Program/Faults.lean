import RecordQuery.Proofs.Except
import RecordQuery.Program.Machine

/-!
# Failures of runs

A run fails because one of its steps does.  What a step itself reports is a fault of a few kinds
(`Error.IsStepFault`); every other failure is the answer of a function that the program calls
(`Machine.run_error`).
-/

namespace RecordQuery

/-- Whether an error is one that steps report themselves: a missing variable or value, a failure of
the store, a division by zero, or an operand of a wrong type. -/
def Error.IsStepFault : Error → Prop
  | .variableOutOfRange .. | .evaluation _ | .store .. | .divisionByZero => True
  | .type (.resultDoesNotFit ..) => False
  | .type _ => True
  | _ => False

namespace Machine

variable {env : Environment} {state : State} {error : Error}

theorem isStepFault_readColumn {source : Source} {record : Value} {column : ColumnRef}
    {below : List Value} (hread : state.readColumn source record column below = .error error) :
    error.IsStepFault := by
  unfold State.readColumn at hread
  split at hread
  · rename_i fault hfault
    cases hread
    unfold readColumn at hfault
    split at hfault
    · cases hfault
    · split at hfault
      · cases hfault
      · split at hfault
        · cases hfault
          trivial
        · split at hfault <;> cases hfault
          trivial
    · cases hfault
      trivial
  · cases hread
  · cases hread

theorem isStepFault_readNamed {source : Source} {record name : Value} {below : List Value}
    (hread : state.readNamed source record name below = .error error) : error.IsStepFault := by
  unfold State.readNamed at hread
  split at hread
  · split at hread
    · split at hread
      · cases hread
        trivial
      · exact isStepFault_readColumn hread
    · cases hread
    · cases hread
      trivial
  · cases hread
    trivial

theorem isStepFault_arithmetic {operation : Arithmetic} {left right : Value}
    (h : left.arithmetic operation right = .error error) : error.IsStepFault := by
  unfold Value.arithmetic at h
  split at h
  · cases h
    trivial
  · split at h
    · split at h <;> cases h
      trivial
    · cases h
    · cases h
    · cases h
    · split at h <;> cases h
      trivial

theorem isStepFault_apply [Regexp.Matcher] {operation : Binary} {left right : Value}
    (h : operation.apply left right = .error error) : error.IsStepFault := by
  cases operation with
  | regexp =>
      simp only [Binary.apply, Value.matchesPattern] at h
      split at h
      · split at h <;> cases h
        trivial
      · cases h
  | plus =>
      simp only [Binary.apply, Value.add] at h
      split at h
      · cases h
      · exact isStepFault_arithmetic h
  | minus | times | divide | modulo => exact isStepFault_arithmetic h
  | contains | startsWith | endsWith | equal | notEqual | less | greater | lessEqual
    | greaterEqual => cases h

theorem isStepFault_negate {value : Value} (h : value.negate = .error error) :
    error.IsStepFault := by
  unfold Value.negate at h
  split at h
  · split at h <;> cases h
    trivial
  · cases h
  · cases h
  · cases h
    trivial

theorem isStepFault_mapTop {rule : Value → Except Error Value}
    (hrule : ∀ value, rule value = .error error → error.IsStepFault)
    (h : state.mapTop rule = .error error) : error.IsStepFault := by
  unfold State.mapTop at h
  split at h
  · exact hrule _ (eq_error_of_map_eq_error h)
  · cases h
    trivial

theorem isStepFault_mapTopTwo {rule : Value → Value → Except Error Value}
    (hrule : ∀ left right, rule left right = .error error → error.IsStepFault)
    (h : state.mapTopTwo rule = .error error) : error.IsStepFault := by
  unfold State.mapTopTwo at h
  split at h
  · exact hrule _ _ (eq_error_of_map_eq_error h)
  · cases h
    trivial

theorem isStepFault_variable {position : Nat} (h : env.variable position = .error error) :
    error.IsStepFault := by
  unfold Environment.variable at h
  split at h
  · cases h
    trivial
  · split at h <;> cases h
    trivial

variable [Regexp.Matcher]

/-- A step fails with a fault of its own, or because the function that it calls fails. -/
theorem step_error {op : Op} (h : step env state op = .error error) :
    error.IsStepFault ∨ ∃ function count arguments, op = .call function count ∧
      function.evaluate arguments = .error error := by
  cases op with
  | load value => cases h
  | loadVariable position =>
      exact Or.inl (isStepFault_variable (eq_error_of_map_eq_error h))
  | loadVariableColumn position column =>
      simp only [step] at h
      split at h
      · rename_i hvariable
        cases h
        exact Or.inl (isStepFault_variable hvariable)
      · exact Or.inl (isStepFault_readColumn h)
  | getColumn column =>
      simp only [step] at h
      split at h
      · exact Or.inl (isStepFault_readColumn h)
      · cases h
        exact Or.inl trivial
  | getValue =>
      simp only [step] at h
      split at h
      · exact Or.inl (isStepFault_readNamed h)
      · cases h
        exact Or.inl trivial
  | pop =>
      simp only [step] at h
      split at h <;> cases h
      exact Or.inl trivial
  | call function count =>
      simp only [step] at h
      split at h
      · cases h
        exact Or.inl trivial
      · exact Or.inr ⟨function, count, _, rfl, eq_error_of_map_eq_error h⟩
  | connect connective count =>
      simp only [step] at h
      split at h <;> cases h
      exact Or.inl trivial
  | not | containsNeedle _ | matchesRegexp _ =>
      exact Or.inl (isStepFault_mapTop (fun _ hrule => by cases hrule) h)
  | negate => exact Or.inl (isStepFault_mapTop (fun _ => isStepFault_negate) h)
  | binary operation => exact Or.inl (isStepFault_mapTopTwo (fun _ _ => isStepFault_apply) h)

theorem steps_error {ops : List Op} {stop : Stop} (h : steps env state ops = .error stop) :
    stop.error.IsStepFault ∨ ∃ function count arguments, Op.call function count ∈ ops ∧
      function.evaluate arguments = .error stop.error := by
  induction ops generalizing state with
  | nil => cases h
  | cons op rest ih =>
      rw [steps] at h
      split at h
      · rename_i error hstep
        cases h
        rcases step_error hstep with hfault | ⟨function, count, arguments, rfl, hevaluate⟩
        · exact Or.inl hfault
        · exact Or.inr ⟨function, count, arguments, List.mem_cons_self .., hevaluate⟩
      · rcases ih h with hfault | ⟨function, count, arguments, hmem, hevaluate⟩
        · exact Or.inl hfault
        · exact Or.inr ⟨function, count, arguments, List.mem_cons_of_mem _ hmem, hevaluate⟩

/-- A run fails with a fault of a step, or because a function that the program calls fails. -/
theorem run_error {program : Program} (h : (run env program).result = .error error) :
    error.IsStepFault ∨ ∃ function count arguments, Op.call function count ∈ program.ops ∧
      function.evaluate arguments = .error error := by
  unfold run runOps at h
  cases hsteps : steps env .start program.ops with
  | ok next =>
      rw [hsteps] at h
      cases h
  | error stop =>
      rw [hsteps] at h
      cases h
      exact steps_error hsteps

end Machine

end RecordQuery

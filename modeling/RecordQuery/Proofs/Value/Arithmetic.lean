import RecordQuery.Compile.Operator
import RecordQuery.Proofs.Except
import RecordQuery.Proofs.Value.Fitting

/-!
# Types of arithmetic results

What arithmetic answers is an integer for two integers, a float if one of the operands is one, and
otherwise a null (`Value.arithmetic_cases`).  So the domain that the compiler gives to an arithmetic
result accepts every value that the operation answers on values which the domains of the operands
accept (`Value.apply_convertsTo`).
-/

namespace RecordQuery.Value

variable {left right value : Value} {first second : Domain}

/-- What arithmetic answers, by its operands. -/
theorem arithmetic_cases {operation : Arithmetic}
    (h : left.arithmetic operation right = .ok value) :
    (∃ m n k, left = integer m ∧ right = integer n ∧ value = integer k) ∨
      (∃ x, value = float x ∧ ((∃ y, left = float y) ∨ ∃ y, right = float y)) ∨
      value.isNull = true := by
  unfold arithmetic at h
  split at h
  · cases h
  · split at h
    · split at h
      · cases h
        exact Or.inl ⟨_, _, _, rfl, rfl, rfl⟩
      · cases h
    · cases h
      exact Or.inr (Or.inl ⟨_, rfl, Or.inl ⟨_, rfl⟩⟩)
    · cases h
      exact Or.inr (Or.inl ⟨_, rfl, Or.inr ⟨_, rfl⟩⟩)
    · cases h
      exact Or.inr (Or.inl ⟨_, rfl, Or.inl ⟨_, rfl⟩⟩)
    · split at h
      · cases h
        exact Or.inr (Or.inr rfl)
      · cases h

theorem add_cases (h : left.add right = .ok value) :
    (∃ s t, left = text s ∧ right = text t ∧ value = text (s ++ t)) ∨
      left.arithmetic .add right = .ok value := by
  unfold add at h
  split at h
  · cases h
    exact Or.inl ⟨_, _, rfl, rfl, rfl⟩
  · exact Or.inr h

/-- An arithmetic operation joins texts, as a sum, or computes with numbers. -/
theorem apply_cases [Regexp.Matcher] {operator : Operator} {operation : Binary}
    (hoperator : operator.binary? = some operation) (harithmetic : operator.isArithmetic = true)
    (h : operation.apply left right = .ok value) :
    (∃ s t, left = text s ∧ right = text t ∧ value = text (s ++ t)) ∨
      ∃ arithmetic, left.arithmetic arithmetic right = .ok value := by
  cases operator with
  | plus =>
      cases hoperator
      exact (add_cases h).imp_right fun hsum => ⟨_, hsum⟩
  | minus | times | divide | modulo =>
      cases hoperator
      exact Or.inr ⟨_, h⟩
  | _ => cases harithmetic

/-- What a domain of numbers accepts. -/
theorem ConvertsTo.number {type : DataType} (htype : type.isNumeric = true)
    (h : value.ConvertsTo (.scalar type)) :
    value.isNull = true ∨ (∃ n, value = integer n) ∨ (type = .float ∧ ∃ x, value = float x) := by
  cases value with
  | null _ => exact Or.inl rfl
  | integer n => exact Or.inr (Or.inl ⟨n, rfl⟩)
  | float x =>
      cases type with
      | float => exact Or.inr (Or.inr ⟨rfl, x, rfl⟩)
      | integer => simp [convertsTo_scalar_iff, isNull, dataType] at h
      | _ => cases htype
  | boolean _ | text _ | record _ =>
      cases type with
      | integer | float => simp [convertsTo_scalar_iff, isNull, dataType] at h
      | _ => cases htype

theorem ConvertsTo.text (h : value.ConvertsTo (.scalar .text)) :
    value.isNull = true ∨ ∃ s, value = .text s := by
  cases value with
  | null _ => exact Or.inl rfl
  | text s => exact Or.inr ⟨s, rfl⟩
  | _ => simp [convertsTo_scalar_iff, isNull, dataType] at h

/-- The domain of an arithmetic result accepts what the operation answers. -/
theorem apply_convertsTo [Regexp.Matcher] {operator : Operator} {operation : Binary}
    (hoperator : operator.binary? = some operation) (harithmetic : operator.isArithmetic = true)
    (hleft : left.ConvertsTo first) (hright : right.ConvertsTo second)
    (h : operation.apply left right = .ok value) :
    value.ConvertsTo (Compile.arithmeticRange operator first second) := by
  have hanswers := apply_cases hoperator harithmetic h
  unfold Compile.arithmeticRange
  split
  · -- Two integers: neither a text nor a float can be an operand.
    rename_i hfirst hsecond
    have hl := (hleft.of_dataType? hfirst (by decide)).number rfl
    have hr := (hright.of_dataType? hsecond (by decide)).number rfl
    rcases hanswers with ⟨s, t, rfl, _, _⟩ | ⟨arithmetic, hresult⟩
    · simp [isNull] at hl
    · rcases arithmetic_cases hresult with ⟨_, _, k, _, _, rfl⟩ | ⟨x, _, hfloat⟩ | hnull
      · exact convertsTo_dataType (.integer k)
      · rcases hfloat with ⟨y, rfl⟩ | ⟨y, rfl⟩
        · simp [isNull] at hl
        · simp [isNull] at hr
      · exact convertsTo_of_isNull hnull _
  · rename_i hfirst hsecond
    split
    · have hl := (hleft.of_dataType? hfirst (by decide)).text
      have hr := (hright.of_dataType? hsecond (by decide)).text
      rcases hanswers with ⟨s, t, _, _, rfl⟩ | ⟨arithmetic, hresult⟩
      · exact convertsTo_dataType (.text _)
      · rcases arithmetic_cases hresult with ⟨_, _, k, rfl, _, _⟩ | ⟨x, _, hfloat⟩ | hnull
        · simp [isNull] at hl
        · rcases hfloat with ⟨y, rfl⟩ | ⟨y, rfl⟩
          · simp [isNull] at hl
          · simp [isNull] at hr
        · exact convertsTo_of_isNull hnull _
    · exact convertsTo_any value
  · rename_i a b _ _ hfirst hsecond
    split
    · -- Two numbers: an integer that is answered widens to a float.
      rename_i hnumeric
      obtain ⟨ha, hb⟩ := Bool.and_eq_true_iff.mp hnumeric
      have hl := (hleft.of_dataType? hfirst (by rintro rfl; cases ha)).number ha
      rcases hanswers with ⟨s, t, rfl, _, _⟩ | ⟨arithmetic, hresult⟩
      · simp [isNull] at hl
      · rcases arithmetic_cases hresult with ⟨_, _, k, _, _, rfl⟩ | ⟨x, rfl, _⟩ | hnull
        · exact ⟨_, rfl⟩
        · exact convertsTo_dataType (.float x)
        · exact convertsTo_of_isNull hnull _
    · exact convertsTo_any value
  · exact convertsTo_any value

/-- A negative is of the type of the value. -/
theorem negate_type (h : left.negate = .ok value) :
    value.isNull = left.isNull ∧ value.dataType = left.dataType := by
  cases left with
  | integer n =>
      simp only [negate] at h
      split at h
      · cases h
        exact ⟨rfl, rfl⟩
      · cases h
  | float _ | null _ =>
      cases h
      exact ⟨rfl, rfl⟩
  | boolean _ | text _ | record _ => cases h

/-- A domain whose values have negatives accepts the negatives of those that it accepts. -/
theorem negate_convertsTo {index : Nat} {domain : Domain}
    (hdomain : Compile.requireNumber index domain = .ok ()) (hvalue : left.ConvertsTo domain)
    (h : left.negate = .ok value) : value.ConvertsTo domain := by
  cases domain with
  | any => exact convertsTo_any value
  | scalar type =>
      obtain ⟨hnull, htype⟩ := negate_type h
      rwa [convertsTo_scalar_iff, hnull, htype, ← convertsTo_scalar_iff]
  | table table => cases hdomain

end RecordQuery.Value

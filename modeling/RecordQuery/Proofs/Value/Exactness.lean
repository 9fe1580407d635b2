import RecordQuery.Program.Op
import RecordQuery.Proofs.Decimal.Reading

/-!
# Exact arithmetic

What an operation on two integers has to answer is told by equations between integers of any size
(`Arithmetic.IsExact`), a quotient and a remainder by those of a division that is cut towards zero
(`Arithmetic.IsDivision`).  The library answers the exact result if it has 64 bits, and fails by the
name of what is wrong otherwise (`Value.AnswersExactly`).  One failure is not an exact one: the
least integer has the remainder 0 by -1, which is refused since the quotient is beyond 64 bits
(`Value.arithmetic_of_losesQuotient`).
-/

namespace RecordQuery

/-! ## Integers of 64 bits -/

namespace Decimal

/-- Whether an integer is one of 64 bits. -/
def Fits (n : Int) : Prop := Int64.minValue.toInt ≤ n ∧ n ≤ Int64.maxValue.toInt

theorem fits_toInt (n : Int64) : Fits n.toInt :=
  ⟨Int64.minValue_le_toInt n, Int64.toInt_le n⟩

theorem int64?_eq_some_iff {n : Int} {k : Int64} : int64? n = some k ↔ n = k.toInt := by
  constructor
  · intro h
    unfold int64? at h
    split at h
    · rename_i hfits
      have hgreatest : n < 2 ^ 63 := by
        have := hfits.2
        rw [Int64.toInt_maxValue] at this
        omega
      cases h
      exact (Int64.toInt_ofInt_of_le (Int64.toInt_minValue ▸ hfits.1) hgreatest).symm
    · cases h
  · rintro rfl
    exact int64?_toInt k

theorem int64?_eq_none_iff {n : Int} : int64? n = none ↔ ¬ Fits n := by
  unfold int64?
  split
  · rename_i hfits
    exact ⟨fun h => (by cases h), fun hbeyond => absurd hfits hbeyond⟩
  · rename_i hbeyond
    exact ⟨fun _ => hbeyond, fun _ => rfl⟩

end Decimal

open Decimal (Fits fits_toInt int64? int64?_eq_some_iff int64?_eq_none_iff)

/-! ## Exact results -/

namespace Arithmetic

variable {operation : Arithmetic} {quotient rest result : Int}

/-- Whether a division by `n` that is cut towards zero gives a quotient and leaves a rest: the two
make up what is divided, and the rest is smaller than the divisor and on the side of what is
divided. -/
structure IsDivision (m n quotient rest : Int) : Prop where
  /-- Nothing is lost. -/
  total : n * quotient + rest = m
  /-- The rest is smaller than the divisor. -/
  smaller : rest.natAbs < n.natAbs
  /-- A rest has the sign of what is divided. -/
  sign : rest ≠ 0 → rest.sign = m.sign

/-- Whether an integer is the exact result of an operation. -/
def IsExact (operation : Arithmetic) (m n result : Int) : Prop :=
  match operation with
  | add => result = m + n
  | subtract => result = m - n
  | multiply => result = m * n
  | divide => ∃ rest, IsDivision m n result rest
  | remainder => ∃ quotient, IsDivision m n quotient result

theorem isDivision_tdiv {m n : Int} (hn : n ≠ 0) : IsDivision m n (m.tdiv n) (m.tmod n) where
  total := Int.mul_tdiv_add_tmod m n
  smaller := by
    rw [Int.natAbs_tmod]
    exact Nat.mod_lt _ (Int.natAbs_pos.mpr hn)
  sign := by
    intro hrest
    have hindivisible : ¬ n ∣ m := fun hdvd => hrest (Int.tmod_eq_zero_of_dvd hdvd)
    rw [Int.sign_tmod, if_neg hindivisible]

/-- There is one quotient and one rest. -/
theorem IsDivision.unique {m n : Int} (h : IsDivision m n quotient rest) :
    m.tdiv n = quotient ∧ m.tmod n = rest := by
  have hn : n ≠ 0 := by
    rintro rfl
    exact absurd h.smaller (Nat.not_lt_zero _)
  have hsmaller := h.smaller
  have htotal : rest + n * quotient = m := by rw [Int.add_comm]; exact h.total
  rcases Int.lt_trichotomy rest 0 with hneg | hzero | hpos
  · have hm : m < 0 := Int.sign_eq_neg_one_iff_neg.mp
      ((h.sign (by omega)).symm.trans (Int.sign_eq_neg_one_of_neg hneg))
    exact (Int.tdiv_tmod_unique' (by omega) hn).mpr ⟨htotal, by omega, by omega⟩
  · rcases Int.le_total 0 m with hm | hm
    · exact (Int.tdiv_tmod_unique hm hn).mpr ⟨htotal, by omega, by omega⟩
    · exact (Int.tdiv_tmod_unique' hm hn).mpr ⟨htotal, by omega, by omega⟩
  · have hm : 0 < m := Int.sign_eq_one_iff_pos.mp
      ((h.sign (by omega)).symm.trans (Int.sign_eq_one_of_pos hpos))
    exact (Int.tdiv_tmod_unique (by omega) hn).mpr ⟨htotal, by omega, by omega⟩

/-- The exact result is the computed one, unless there is none. -/
theorem isExact_iff {m n : Int} :
    operation.IsExact m n result ↔
      ¬ (operation.divides = true ∧ n = 0) ∧ operation.exact m n = result := by
  cases operation with
  | add | subtract | multiply => simp [IsExact, divides, exact, eq_comm]
  | divide =>
      simp only [IsExact, divides, exact, true_and]
      constructor
      · rintro ⟨rest, h⟩
        refine ⟨?_, h.unique.1⟩
        rintro rfl
        exact absurd h.smaller (Nat.not_lt_zero _)
      · rintro ⟨hn, rfl⟩
        exact ⟨_, isDivision_tdiv hn⟩
  | remainder =>
      simp only [IsExact, divides, exact, true_and]
      constructor
      · rintro ⟨quotient, h⟩
        refine ⟨?_, h.unique.2⟩
        rintro rfl
        exact absurd h.smaller (Nat.not_lt_zero _)
      · rintro ⟨hn, rfl⟩
        exact ⟨_, isDivision_tdiv hn⟩

/-! ## Results of 64 bits -/

/-- Whether an operation is the remainder of the one division whose quotient is beyond 64 bits. -/
def LosesQuotient (operation : Arithmetic) (m n : Int64) : Prop :=
  operation = remainder ∧ m = Int64.minValue ∧ n = -1

instance (operation : Arithmetic) (m n : Int64) : Decidable (operation.LosesQuotient m n) :=
  inferInstanceAs (Decidable (_ ∧ _))

/-- Only the least integer divided by -1 is beyond 64 bits. -/
theorem not_fits_tdiv_iff {m n : Int64} :
    ¬ Fits (m.toInt.tdiv n.toInt) ↔ m = Int64.minValue ∧ n = -1 := by
  constructor
  · intro h
    have hleast := Int64.le_toInt m
    have hgreatest := Int64.toInt_lt m
    have hsize : (m.toInt.tdiv n.toInt).natAbs ≤ m.toInt.natAbs := Int.natAbs_tdiv_le_natAbs ..
    -- A quotient is no larger than its dividend, which leaves one value outside the range.
    have hquotient : m.toInt.tdiv n.toInt = 2 ^ 63 := by
      rw [Fits, Int64.toInt_minValue, Int64.toInt_maxValue] at h
      omega
    have hm : m.toInt = -2 ^ 63 := by
      rw [hquotient] at hsize
      omega
    have hn : n.toInt ≠ 0 := by
      intro hn
      rw [hn, Int.tdiv_zero] at hquotient
      cases hquotient
    have hdivision := isDivision_tdiv (m := m.toInt) hn
    have htotal := hdivision.total
    have hsmaller := hdivision.smaller
    have hrest : m.toInt.tmod n.toInt ≤ 0 := by
      refine Int.not_lt.mp fun hpositive => ?_
      have hsign := hdivision.sign (by omega)
      rw [hm, ← hm, Int.sign_eq_one_of_pos hpositive, hm] at hsign
      cases hsign
    rw [hquotient] at htotal
    refine ⟨Int64.toInt_inj.mp (hm.trans Int64.toInt_minValue.symm), Int64.toInt_inj.mp ?_⟩
    show n.toInt = -1
    omega
  · rintro ⟨rfl, rfl⟩
    unfold Fits
    decide

/-- The integers on which an operation answers: those of an exact result of 64 bits, but for the one
remainder that is refused. -/
theorem onIntegers_eq {m n : Int64} :
    operation.onIntegers m n =
      if operation.LosesQuotient m n then none else int64? (operation.exact m.toInt n.toInt) := by
  cases operation with
  | add | subtract | multiply | divide => simp [onIntegers, LosesQuotient]
  | remainder =>
      by_cases hlost : m = Int64.minValue ∧ n = -1
      · have hquotient : int64? (divide.exact m.toInt n.toInt) = none :=
          int64?_eq_none_iff.mpr (not_fits_tdiv_iff.mpr hlost)
        rw [if_pos ⟨rfl, hlost⟩]
        simp only [onIntegers, hquotient, Option.bind_none]
      · obtain ⟨quotient, hquotient⟩ :
            ∃ quotient, int64? (divide.exact m.toInt n.toInt) = some quotient :=
          Option.ne_none_iff_exists'.mp fun hnone =>
            hlost (not_fits_tdiv_iff.mp (int64?_eq_none_iff.mp hnone))
        rw [if_neg fun hloses => hlost hloses.2]
        simp only [onIntegers, hquotient, Option.bind_some]

end Arithmetic

/-! ## Answers -/

namespace Value

/-- What a computation with integers has to answer: its exact result if that is one of 64 bits, a
failure if it divides by zero or if the exact result is beyond 64 bits, and nothing else. -/
structure AnswersExactly (IsExact : Int → Prop) (byZero : Prop) (beyond : Error)
    (answer : Except Error Value) : Prop where
  /-- The integers that are answered are the exact results. -/
  value : ∀ k : Int64, answer = .ok (.integer k) ↔ IsExact k.toInt
  /-- A division by zero is refused, and nothing else is for it. -/
  divisionByZero : answer = .error .divisionByZero ↔ byZero
  /-- So is an exact result beyond 64 bits. -/
  overflow : answer = .error beyond ↔ ∃ result, IsExact result ∧ ¬ Fits result
  /-- Nothing else is answered. -/
  nothingElse : (∃ k : Int64, answer = .ok (.integer k)) ∨ answer = .error .divisionByZero ∨
    answer = .error beyond

variable {IsExact : Int → Prop} {byZero : Prop} {beyond : Error} {exact : Int}

theorem AnswersExactly.eq_integer {answer : Except Error Value} {value : Value}
    (h : AnswersExactly IsExact byZero beyond answer) (hvalue : answer = .ok value) :
    ∃ k, value = integer k := by
  rcases h.nothingElse with ⟨k, hk⟩ | hfailed | hfailed
  · exact ⟨k, Except.ok.inj (hvalue.symm.trans hk)⟩
  · cases hvalue.symm.trans hfailed
  · cases hvalue.symm.trans hfailed

theorem answersExactly_divisionByZero (hzero : byZero) (hexact : ∀ result, ¬ IsExact result)
    (hbeyond : beyond ≠ .divisionByZero) :
    AnswersExactly IsExact byZero beyond (.error .divisionByZero) where
  value k := ⟨fun h => (by cases h), fun hk => absurd hk (hexact _)⟩
  divisionByZero := ⟨fun _ => hzero, fun _ => rfl⟩
  overflow :=
    ⟨fun h => absurd (Except.error.inj h).symm hbeyond,
      fun ⟨result, hresult, _⟩ => absurd hresult (hexact result)⟩
  nothingElse := Or.inr (Or.inl rfl)

theorem answersExactly_integer {k : Int64} (hzero : ¬ byZero)
    (hexact : ∀ result, IsExact result ↔ result = k.toInt) :
    AnswersExactly IsExact byZero beyond (.ok (integer k)) where
  value j := by
    rw [hexact, Int64.toInt_inj]
    simp [eq_comm]
  divisionByZero := ⟨fun h => (by cases h), fun h => absurd h hzero⟩
  overflow := by
    refine ⟨fun h => (by cases h), fun ⟨result, hresult, hlarge⟩ => absurd ?_ hlarge⟩
    rw [(hexact result).mp hresult]
    exact fits_toInt k
  nothingElse := Or.inl ⟨k, rfl⟩

theorem answersExactly_overflow (hzero : ¬ byZero)
    (hexact : ∀ result, IsExact result ↔ result = exact) (hlarge : ¬ Fits exact)
    (hbeyond : beyond ≠ .divisionByZero) :
    AnswersExactly IsExact byZero beyond (.error beyond) where
  value k := by
    refine ⟨fun h => (by cases h), fun hk => absurd ?_ hlarge⟩
    rw [← (hexact _).mp hk]
    exact fits_toInt k
  divisionByZero :=
    ⟨fun h => absurd (Except.error.inj h) hbeyond, fun h => absurd h hzero⟩
  overflow := ⟨fun _ => ⟨exact, (hexact _).mpr rfl, hlarge⟩, fun _ => rfl⟩
  nothingElse := Or.inr (Or.inr rfl)

theorem arithmetic_of_losesQuotient {operation : Arithmetic} {m n : Int64}
    (h : operation.LosesQuotient m n) :
    (integer m).arithmetic operation (integer n) = .error (.type (.overflow m n)) := by
  have hnonzero : (integer n).isZero = false := by
    rw [h.2.2]
    rfl
  have hnone : operation.onIntegers m n = none := by rw [Arithmetic.onIntegers_eq, if_pos h]
  simp [arithmetic, hnonzero, hnone]

/-- All other operations on integers are exact. -/
theorem arithmetic_answersExactly {operation : Arithmetic} {m n : Int64}
    (h : ¬ operation.LosesQuotient m n) :
    AnswersExactly (operation.IsExact m.toInt n.toInt) (operation.divides = true ∧ n = 0)
      (.type (.overflow m n)) ((integer m).arithmetic operation (integer n)) := by
  have hbeyond : Error.type (.overflow m n) ≠ .divisionByZero := by simp
  have hn : n.toInt = 0 ↔ n = 0 := by rw [← Int64.toInt_zero, Int64.toInt_inj]
  have hzeroTest : (operation.divides && (integer n).isZero) = true ↔
      operation.divides = true ∧ n = 0 := by simp [isZero]
  unfold arithmetic
  by_cases hzero : operation.divides = true ∧ n = 0
  · rw [if_pos (hzeroTest.mpr hzero)]
    refine answersExactly_divisionByZero hzero (fun result hresult => ?_) hbeyond
    exact (Arithmetic.isExact_iff.mp hresult).1 ⟨hzero.1, hn.mpr hzero.2⟩
  · have hexact : ∀ result, operation.IsExact m.toInt n.toInt result ↔
        result = operation.exact m.toInt n.toInt := by
      intro result
      rw [Arithmetic.isExact_iff, hn, and_iff_right hzero, eq_comm]
    rw [if_neg fun htest => hzero (hzeroTest.mp htest)]
    simp only [Arithmetic.onIntegers_eq, if_neg h]
    cases hresult : int64? (operation.exact m.toInt n.toInt) with
    | none => exact answersExactly_overflow hzero hexact (int64?_eq_none_iff.mp hresult) hbeyond
    | some k =>
        rw [int64?_eq_some_iff.mp hresult] at hexact
        exact answersExactly_integer hzero hexact

/-- Negatives are exact. -/
theorem negate_answersExactly (n : Int64) :
    AnswersExactly (· = -n.toInt) False (.type (.negationOverflow n)) (integer n).negate := by
  have hbeyond : Error.type (.negationOverflow n) ≠ .divisionByZero := by simp
  simp only [negate]
  cases hresult : int64? (-n.toInt) with
  | none =>
      exact answersExactly_overflow id (fun _ => Iff.rfl) (int64?_eq_none_iff.mp hresult) hbeyond
  | some k =>
      rw [int64?_eq_some_iff.mp hresult]
      exact answersExactly_integer id fun _ => Iff.rfl

end Value

end RecordQuery

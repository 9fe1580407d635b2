import RecordQuery.Decimal.Reading

/-!
# Written integers are read back

A 64-bit integer is what its text is read as (`readInt64_toString`).
-/

namespace RecordQuery.Decimal

/-- The digits of a number stand for it. -/
theorem natOfDigits_toDigits (n : Nat) : natOfDigits 0 (Nat.toDigits 10 n) = n :=
  Nat.ofDigitChars_ten_toDigits

theorem isDigit_of_mem_toDigits {n : Nat} {c : Char} (h : c ∈ Nat.toDigits 10 n) :
    c.isDigit = true :=
  Nat.isDigit_of_mem_toDigits (by decide) (by decide) h

/-- The text of an integer: its digits, behind a minus if it is negative. -/
theorem toList_toString (n : Int) :
    (toString n).toList =
      (if n < 0 then ['-'] else []) ++ Nat.toDigits 10 n.natAbs := by
  cases n with
  | ofNat n =>
      have hnonneg : ¬ Int.ofNat n < 0 := by simp
      rw [if_neg hnonneg]
      exact Nat.toList_repr
  | negSucc n =>
      have hneg : Int.negSucc n < 0 := Int.negSucc_lt_zero n
      rw [if_pos hneg]
      show ("-" ++ Nat.repr (n + 1)).toList = _
      rw [String.toList_append, Nat.toList_repr]
      rfl

theorem readSign_of_isDigit {c : Char} {rest : List Char} (h : c.isDigit = true) :
    readSign (c :: rest) = (false, c :: rest) := by
  unfold readSign
  split
  · rename_i heq
    obtain ⟨rfl, rfl⟩ := List.cons.inj heq
    exact absurd h (by decide)
  · rename_i heq
    obtain ⟨rfl, rfl⟩ := List.cons.inj heq
    exact absurd h (by decide)
  · rfl

theorem readSign_toString (n : Int) :
    readSign (toString n).toList = (decide (n < 0), Nat.toDigits 10 n.natAbs) := by
  rw [toList_toString]
  by_cases hneg : n < 0
  · rw [if_pos hneg, decide_eq_true hneg]
    rfl
  · obtain ⟨c, rest, hdigits⟩ := List.exists_cons_of_ne_nil (Nat.toDigits_ne_nil (n := n.natAbs))
    have hdigit : c.isDigit = true := isDigit_of_mem_toDigits (by rw [hdigits]; simp)
    rw [if_neg hneg, decide_eq_false hneg, hdigits]
    exact readSign_of_isDigit hdigit

theorem int64?_toInt (n : Int64) : int64? n.toInt = some n := by
  have hleast := Int64.minValue_le_toInt n
  have hgreatest := Int64.toInt_le n
  unfold int64?
  rw [if_pos ⟨hleast, hgreatest⟩, Int64.ofInt_toInt]

/-- A 64-bit integer is what its text is read as. -/
theorem readInt64_toString (n : Int64) : readInt64 (toString n).toList = some n := by
  have hall : (Nat.toDigits 10 n.toInt.natAbs).all Char.isDigit = true :=
    List.all_eq_true.mpr fun c hc => isDigit_of_mem_toDigits hc
  have hsign : readSign (toString n).toList =
      (decide (n.toInt < 0), Nat.toDigits 10 n.toInt.natAbs) := readSign_toString n.toInt
  have hvalue : (if decide (n.toInt < 0) then -(n.toInt.natAbs : Int) else n.toInt.natAbs) =
      n.toInt := by
    by_cases hneg : n.toInt < 0
    · rw [decide_eq_true hneg, if_pos rfl]
      omega
    · rw [decide_eq_false hneg, if_neg (by simp)]
      omega
  unfold readInt64
  rw [hsign]
  simp only [Nat.toDigits_ne_nil, hall, ne_eq, not_false_eq_true, and_self, if_true]
  rw [natOfDigits_toDigits, hvalue, int64?_toInt]

end RecordQuery.Decimal

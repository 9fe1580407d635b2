import RecordQuery.Text.Letter

/-!
# Letters and numbers are no blanks

The runs of blanks meet neither the runs of letters nor the runs of numbers, which is checked run by
run (`Ranges.Apart`).
-/

namespace RecordQuery.Text

/-- Whether no run of one kind meets a run of the other. -/
def Ranges.Apart (first second : Ranges) : Prop :=
  ∀ one ∈ first, ∀ other ∈ second, one.2 < other.1 ∨ other.2 < one.1

instance (first second : Ranges) : Decidable (first.Apart second) :=
  inferInstanceAs (Decidable (∀ one ∈ first, ∀ other ∈ second, one.2 < other.1 ∨ other.2 < one.1))

theorem Ranges.Apart.contains_eq_false {first second : Ranges} (h : first.Apart second)
    {code : Nat} (hcode : first.contains code = true) : second.contains code = false := by
  obtain ⟨one, hone, hfrom, hto⟩ := (first.contains_iff code).mp hcode
  rw [Bool.eq_false_iff]
  intro hsecond
  obtain ⟨other, hother, hfrom', hto'⟩ := (second.contains_iff code).mp hsecond
  rcases h one hone other hother with hbefore | hbehind <;> omega

theorem isAscii_iff {c : Char} : isAscii c = true ↔ c.toNat < 128 := by
  simp [isAscii, UInt32.lt_iff_toNat_lt]

theorem apart_blankRanges_alphabeticRanges : Ranges.Apart blankRanges alphabeticRanges := by
  decide +kernel

theorem apart_blankRanges_numericRanges : Ranges.Apart blankRanges numericRanges := by
  decide +kernel

theorem isAlphanumeric_of_isBlank_ascii :
    ∀ n < 128, isBlank (Char.ofNat n) = true → isAlphanumeric (Char.ofNat n) = false := by
  decide +kernel

/-- A letter or number is no blank. -/
theorem isBlank_eq_false_of_isAlphanumeric {c : Char} (h : isAlphanumeric c = true) :
    isBlank c = false := by
  rw [Bool.eq_false_iff]
  intro hblank
  by_cases hascii : isAscii c = true
  · have hnone := isAlphanumeric_of_isBlank_ascii c.toNat (isAscii_iff.mp hascii)
    rw [Char.ofNat_toNat] at hnone
    rw [hnone hblank] at h
    exact Bool.false_ne_true h
  · unfold isAlphanumeric isAlphabetic isNumeric at h
    rw [if_neg hascii, if_neg hascii,
      apart_blankRanges_alphabeticRanges.contains_eq_false hblank,
      apart_blankRanges_numericRanges.contains_eq_false hblank] at h
    exact Bool.false_ne_true h

theorem isAscii_of_isDigit {c : Char} (h : c.isDigit = true) : isAscii c = true := by
  simp only [Char.isDigit, Bool.and_eq_true, decide_eq_true_eq] at h
  have hbound := UInt32.le_iff_toNat_le.mp h.2
  simp only [isAscii, decide_eq_true_eq, UInt32.lt_iff_toNat_lt]
  exact Nat.lt_of_le_of_lt hbound (by decide)

theorem isAlphanumeric_of_isDigit {c : Char} (h : c.isDigit = true) : isAlphanumeric c = true := by
  simp [isAlphanumeric, isNumeric, isAscii_of_isDigit h, h]

end RecordQuery.Text

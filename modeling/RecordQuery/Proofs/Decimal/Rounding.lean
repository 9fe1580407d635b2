import RecordQuery.Proofs.Decimal.Rank

/-!
# Integers rounded to floats

An integer becomes the float whose mantissa holds its 53 leading bits, rounded to the nearest one
and to an even one between two.  Cutting bits off keeps the order of mantissas (`roundedShift_mono`),
and a mantissa that is rounded up to `2 ^ 53` has the rank of the next exponent's first one, so the
rank of the float grows with the integer (`rank_floatOfInt64_mono`).  Up to `2 ^ 53` nothing is cut
off, and different integers become different floats (`eq_of_rank_floatOfInt64`).
-/

namespace RecordQuery.Decimal

open Float.Model (Format UnpackedFloat totalExponent)
open Float.Model.UnpackedFloat

/-! ## Cutting bits off -/

/-- A mantissa with the two bits that stand for what was cut off. -/
def weight (mantissa : ExtendedMantissa) : Nat :=
  4 * mantissa.mantissa + 2 * mantissa.roundBit.toNat + mantissa.stickyBit.toNat

/-- A mantissa of which nothing was cut off. -/
def whole (mantissa : Nat) : ExtendedMantissa := ⟨mantissa, false, false⟩

/-- A mantissa with a number of bits cut off, rounded to nearest, between two to even. -/
def roundedShift (mantissa count : Nat) : Nat := (whole mantissa >>> count).roundedMantissa

theorem shift_succ (mantissa : ExtendedMantissa) (count : Nat) :
    mantissa >>> (count + 1) = (mantissa >>> count).shiftRightOne := rfl

theorem weight_shiftRightOne {first second : ExtendedMantissa} (h : weight first ≤ weight second) :
    weight first.shiftRightOne ≤ weight second.shiftRightOne := by
  obtain ⟨m, round, sticky⟩ := first
  obtain ⟨n, round', sticky'⟩ := second
  have hbit (k : Nat) : 2 * (k % 2 != 0).toNat = 2 * (k % 2) := by
    rcases Nat.mod_two_eq_zero_or_one k with hk | hk <;> rw [hk] <;> rfl
  simp only [weight, ExtendedMantissa.shiftRightOne, hbit] at h ⊢
  cases round <;> cases sticky <;> cases round' <;> cases sticky' <;>
    (simp only [Bool.toNat_true, Bool.toNat_false, Bool.or_true, Bool.or_false, Bool.or_self] at h ⊢
     omega)

theorem weight_shift {first second : ExtendedMantissa} (h : weight first ≤ weight second)
    (count : Nat) : weight (first >>> count) ≤ weight (second >>> count) := by
  induction count with
  | zero => exact h
  | succ count ih =>
      rw [shift_succ, shift_succ]
      exact weight_shiftRightOne ih

theorem roundedMantissa_mono {first second : ExtendedMantissa} (h : weight first ≤ weight second) :
    first.roundedMantissa ≤ second.roundedMantissa := by
  obtain ⟨m, round, sticky⟩ := first
  obtain ⟨n, round', sticky'⟩ := second
  cases round <;> cases sticky <;> cases round' <;> cases sticky' <;>
    (simp only [weight, ExtendedMantissa.roundedMantissa, ExtendedMantissa.accuracy,
      Accuracy.roundToNearestEven, Bool.toNat_true, Bool.toNat_false] at h ⊢
     omega)

theorem roundedShift_mono {m n : Nat} (h : m ≤ n) (count : Nat) :
    roundedShift m count ≤ roundedShift n count :=
  roundedMantissa_mono (weight_shift (by simp only [weight, whole]; omega) count)

theorem mantissa_shift (mantissa : ExtendedMantissa) (count : Nat) :
    (mantissa >>> count).mantissa = mantissa.mantissa / 2 ^ count := by
  induction count with
  | zero => simp [HShiftRight.hShiftRight, Nat.repeat]
  | succ count ih =>
      rw [shift_succ, Nat.pow_succ, ← Nat.div_div_eq_div_mul, ← ih]
      rfl

theorem roundedShift_bounds (m count : Nat) :
    m / 2 ^ count ≤ roundedShift m count ∧ roundedShift m count ≤ m / 2 ^ count + 1 := by
  have hcut := mantissa_shift (whole m) count
  rw [roundedShift]
  generalize whole m >>> count = mantissa at *
  obtain ⟨n, round, sticky⟩ := mantissa
  have hcut : n = m / 2 ^ count := hcut
  rw [← hcut]
  cases round <;> cases sticky <;>
    (simp only [ExtendedMantissa.roundedMantissa, ExtendedMantissa.accuracy,
      Accuracy.roundToNearestEven]
     omega)

theorem shift_comm (mantissa : ExtendedMantissa) (count : Nat) :
    mantissa.shiftRightOne >>> count = (mantissa >>> count).shiftRightOne := by
  induction count with
  | zero => rfl
  | succ count ih => rw [shift_succ, shift_succ, ih]

theorem whole_shift_add (m count zeros : Nat) :
    whole (m * 2 ^ zeros) >>> (count + zeros) = whole m >>> count := by
  induction zeros with
  | zero => rw [Nat.pow_zero, Nat.mul_one, Nat.add_zero]
  | succ zeros ih =>
      have hone : (whole (m * 2 ^ (zeros + 1))).shiftRightOne = whole (m * 2 ^ zeros) := by
        rw [Nat.pow_succ, ← Nat.mul_assoc]
        simp [whole, ExtendedMantissa.shiftRightOne]
      rw [← Nat.add_assoc, shift_succ, ← shift_comm, hone, ih]

theorem roundedShift_scale (m count zeros : Nat) :
    roundedShift (m * 2 ^ zeros) (count + zeros) = roundedShift m count := by
  rw [roundedShift, roundedShift, whole_shift_add]

theorem roundedShift_zero (m : Nat) : roundedShift m 0 = m := rfl

/-! ## Rounding -/

theorem shiftToTargetExponent_eq {m count : Nat} {e : Int} (hm : m.log2 = 52 + count)
    (he : -1074 ≤ e + count) :
    shiftToTargetExponent .binary64 m e .exact = (whole m >>> count, e + count) := by
  have htarget : Format.targetExponent .binary64 (totalExponent m e) = e + count := by
    simp only [Format.targetExponent, totalExponent, Format.mantissaBits, Format.minExponent, hm]
    omega
  have hcount : (e + count - e).toNat = count := by omega
  rw [shiftToTargetExponent, shiftToExponent, htarget, hcount]
  rfl

theorem log2_eq_of_bounds {m count : Nat} (hlow : 2 ^ count ≤ m) (hhigh : m < 2 ^ (count + 1)) :
    m.log2 = count := by
  rw [Nat.log2_eq_iff (by have := Nat.two_pow_pos count; omega)]
  exact ⟨hlow, hhigh⟩

theorem roundWithAccuracy_of_shifts {m : Nat} {e : Int} {first second : ExtendedMantissa × Int}
    (s : Sign) (hfirst : shiftToTargetExponent .binary64 m e .exact = first)
    (hsecond : shiftToTargetExponent .binary64 first.1.roundedMantissa first.2 .exact = second)
    (hpositive : 0 < second.1.mantissa) :
    roundWithAccuracy .binary64 s m e .exact =
      .finite s second.1.mantissa second.2 hpositive := by
  subst hfirst hsecond
  exact dif_neg (Nat.ne_of_gt hpositive)

/-- What is left of a mantissa of some bits more than 53 has 53 bits. -/
theorem cut_bounds {m count : Nat} (hm : m.log2 = 52 + count) :
    2 ^ 52 ≤ m / 2 ^ count ∧ m / 2 ^ count < 2 ^ 53 := by
  have hpositive : m ≠ 0 := by
    rintro rfl
    rw [Nat.log2_zero] at hm
    omega
  obtain ⟨hlow, hhigh⟩ := (Nat.log2_eq_iff hpositive).mp hm
  constructor
  · rw [Nat.le_div_iff_mul_le (Nat.two_pow_pos count), ← Nat.pow_add]
    exact hlow
  · rw [Nat.div_lt_iff_lt_mul (Nat.two_pow_pos count), ← Nat.pow_add]
    rwa [Nat.add_right_comm] at hhigh

/-- A mantissa that is too long is rounded to 53 bits, which have the rank of what is left of it. -/
theorem roundWithAccuracy_eq {m count : Nat} {e : Int} (s : Sign) (hm : m.log2 = 52 + count)
    (he : -1074 ≤ e + count) :
    ∃ n f hn, roundWithAccuracy .binary64 s m e .exact = .finite s n f hn ∧ 2 ^ 52 ≤ n ∧
      n < 2 ^ 53 ∧ e + count ≤ f ∧ f ≤ e + count + 1 ∧
      finiteRank n f = finiteRank (roundedShift m count) (e + count) := by
  obtain ⟨hcutLow, hcutHigh⟩ := cut_bounds hm
  obtain ⟨hroundLow, hroundHigh⟩ := roundedShift_bounds m count
  -- What is rounded up to the next power of two loses one more bit, which is a zero.
  obtain ⟨again, hlog, hrank⟩ :
      ∃ again, (roundedShift m count).log2 = 52 + again ∧
        ((again = 0 ∧ roundedShift m count < 2 ^ 53) ∨
          (again = 1 ∧ roundedShift m count = 2 ^ 53)) := by
    rcases Nat.lt_or_ge (roundedShift m count) (2 ^ 53) with hsmall | hlarge
    · exact ⟨0, log2_eq_of_bounds (by omega) hsmall, Or.inl ⟨rfl, hsmall⟩⟩
    · exact ⟨1, log2_eq_of_bounds hlarge (by omega), Or.inr ⟨rfl, by omega⟩⟩
  have hsecond := shiftToTargetExponent_eq (e := e + count) hlog (by omega)
  have hcut :
      (whole (roundedShift m count) >>> again).mantissa = roundedShift m count / 2 ^ again :=
    mantissa_shift _ _
  refine ⟨_, _, ?_, roundWithAccuracy_of_shifts s (shiftToTargetExponent_eq hm he) hsecond ?_, ?_⟩
  all_goals
    simp only [hcut, finiteRank]
    obtain ⟨rfl, hrounded⟩ | ⟨rfl, hrounded⟩ := hrank <;> omega

/-! ## Packing -/

/-- A mantissa of 53 bits, whose leading bit is not written. -/
theorem unpack_normal {m biased : Nat} (s : Sign) (hm : 0 < m) (hlow : 2 ^ 52 ≤ m)
    (hhigh : m < 2 ^ 53) (hbiased : 0 < biased) (hbiased' : biased < 2047) :
    unpack .binary64 (packComponents .binary64 s (BitVec.ofNat 11 biased) (BitVec.ofNat 52 m)) =
      .finite s m (biased - 1075) hm := by
  have hexponent : (BitVec.ofNat 11 biased).toNat = biased := by
    rw [BitVec.toNat_ofNat, Nat.mod_eq_of_lt (by omega)]
  have hmantissa : (1#1 ++ BitVec.ofNat 52 m).toNat = m := by
    rw [toNat_implicit, BitVec.toNat_ofNat]
    omega
  have hfinite : BitVec.ofNat 11 biased ≠ -1#11 := fun h => by
    have hlast := congrArg BitVec.toNat h
    rw [hexponent] at hlast
    exact absurd hlast (Nat.ne_of_lt hbiased')
  have hnormal : BitVec.ofNat 11 biased ≠ 0#11 := fun h => by
    have hfirst := congrArg BitVec.toNat h
    rw [hexponent] at hfirst
    exact absurd hfirst (Nat.ne_of_gt hbiased)
  have hbias : (Format.exponentBias .binary64 : Int) + (52 : Nat) = 1075 := rfl
  unfold unpack
  simp only [unpackExponent_packComponents, unpackMantissa_packComponents,
    unpackSign_packComponents, Sign.ofBitVec_toBitVec, if_neg hfinite, if_neg hnormal, hexponent,
    hmantissa, hbias]

/-- A mantissa of fewer bits, which has the least exponent. -/
theorem unpack_subnormal {m : Nat} (s : Sign) (hm : 0 < m) (hhigh : m < 2 ^ 52) :
    unpack .binary64 (packComponents .binary64 s 0#11 (BitVec.ofNat 52 m)) =
      .finite s m (-1074) hm := by
  have hmantissa : (BitVec.ofNat 52 m).toNat = m := by
    rw [BitVec.toNat_ofNat, Nat.mod_eq_of_lt hhigh]
  have hnonzero : BitVec.ofNat 52 m ≠ 0#52 := fun h => by
    have hzero := congrArg BitVec.toNat h
    rw [hmantissa] at hzero
    exact absurd hzero (Nat.ne_of_gt hm)
  have hfinite : 0#11 ≠ -1#11 := by decide
  have hexponent : ((0 : Nat) : Int) - ((Format.exponentBias .binary64 : Int) + (52 : Nat)) + 1 =
      -1074 := rfl
  unfold unpack
  simp only [unpackExponent_packComponents, unpackMantissa_packComponents,
    unpackSign_packComponents, Sign.ofBitVec_toBitVec, if_neg hfinite, if_true, dif_neg hnonzero,
    hmantissa, BitVec.toNat_ofNat, Nat.zero_mod, hexponent]

/-- A canonical form is the one of its float. -/
theorem unpack_pack {u : UnpackedFloat} (h : IsCanonical u) : (Float.Model.pack u).unpack = u := by
  cases u with
  | notANumber => rfl
  | infinity s => cases s <;> rfl
  | zero s => cases s <;> rfl
  | finite s m e hm =>
      obtain ⟨hm', he, he', hlow⟩ := h
      have hbiased : (e + Format.exponentBias .binary64 + (52 : Nat)).toNat = (e + 1075).toNat := by
        rw [show (Format.exponentBias .binary64 : Int) = 1023 from rfl]
        omega
      have hfits : ¬ 2 ^ 11 ≤ (e + 1075).toNat + 1 := by omega
      have hbits : Format.mantissaBits .binary64 = 53 := rfl
      change unpack .binary64 (pack .binary64 (.finite s m e hm)) = _
      unfold pack
      simp only [hbiased, if_neg hfits, hbits]
      rcases Nat.lt_or_ge m (2 ^ 52) with hsmall | hlarge
      · have hlog : m.log2 < 52 := (Nat.log2_lt (by omega)).mpr hsmall
        obtain rfl : e = -1074 := by omega
        rw [if_neg (by omega), unpack_subnormal s hm hsmall]
      · have hlog : m.log2 = 52 := log2_eq_of_bounds hlarge hm'
        have hexponent : ((e + 1075).toNat : Int) - 1075 = e := by omega
        rw [if_pos (by rw [hlog]), unpack_normal s hm hlarge hm' (by omega) (by omega)]
        simp only [hexponent]

/-! ## Natural numbers -/

/-- The rank of the float nearest to a natural number. -/
def natRank (n : Nat) : Int :=
  if n = 0 then 0 else finiteRank (roundedShift (n * 2 ^ 53) (n.log2 + 1)) (n.log2 - 52)

theorem log2_mul_two_pow {n : Nat} (hn : n ≠ 0) (k : Nat) : (n * 2 ^ k).log2 = n.log2 + k := by
  obtain ⟨hlow, hhigh⟩ := (Nat.log2_eq_iff hn).mp rfl
  refine log2_eq_of_bounds ?_ ?_
  · rw [Nat.pow_add]
    exact Nat.mul_le_mul_right _ hlow
  · rw [Nat.add_right_comm, Nat.pow_add]
    exact Nat.mul_lt_mul_of_pos_right hhigh (Nat.two_pow_pos k)

/-- Whether an unpacked float is a canonical number above zero of a rank. -/
def HasRank (r : Int) (u : UnpackedFloat) : Prop :=
  IsCanonical u ∧ ∃ m e hm, u = .finite .positive m e hm ∧ finiteRank m e = r

theorem hasRank_roundWithAccuracy {m count : Nat} {e : Int} (hm : m.log2 = 52 + count)
    (he : -1074 ≤ e + count) (he' : e + count < 971) :
    HasRank (finiteRank (roundedShift m count) (e + count))
      (roundWithAccuracy .binary64 .positive m e .exact) := by
  obtain ⟨n, f, hn, hround, hlow, hhigh, hf, hf', hrank⟩ := roundWithAccuracy_eq .positive hm he
  rw [hround]
  exact ⟨⟨hhigh, by omega, by omega, Or.inl hlow⟩, n, f, hn, rfl, hrank⟩

/-- A normal number is the only one of its rank. -/
theorem HasRank.eq_finite {m : Nat} {e : Int} {u : UnpackedFloat}
    (h : HasRank (finiteRank m e) u) (hlow : 2 ^ 52 ≤ m) (hhigh : m < 2 ^ 53) (he : -1074 ≤ e) :
    u = .finite .positive m e (by omega) := by
  obtain ⟨hcanonical, n, f, hn, rfl, hrank⟩ := h
  obtain ⟨hn', hf, -, hnormal⟩ := hcanonical
  simp only [finiteRank] at hrank
  obtain rfl : n = m := by omega
  obtain rfl : f = e := by omega
  rfl

/-- A natural number below `2 ^ 53` is first given as many bits as a mantissa has. -/
theorem ofUInt64_eq {n : Nat} (hn : n ≠ 0) (hsmall : n < 2 ^ 53) :
    UnpackedFloat.ofUInt64 .binary64 n.toUInt64 =
      roundWithAccuracy .binary64 .positive (n * 2 ^ (52 - n.log2)) (n.log2 - 52) .exact := by
  have hlog : n.log2 < 53 := (Nat.log2_lt hn).mpr hsmall
  have hnat : n.toUInt64.toNat = n := by
    rw [Nat.toUInt64_eq, UInt64.toNat_ofNat_of_lt' (Nat.lt_trans hsmall (by decide))]
  have hcompare : compare (n : Int) 0 = .gt := compare_gt_iff_gt.mpr (by omega)
  have htarget : Format.targetExponent .binary64 (totalExponent n 0) = n.log2 - 52 := by
    simp only [Format.targetExponent, totalExponent, Format.mantissaBits, Format.minExponent]
    omega
  have hcount : (0 - ((n.log2 : Int) - 52)).toNat = 52 - n.log2 := by omega
  have hexponent : (0 : Int) - (52 - n.log2 : Nat) = n.log2 - 52 := by omega
  simp only [UnpackedFloat.ofUInt64, UnpackedFloat.ofNat, UnpackedFloat.ofInt,
    UnpackedFloat.normalize, hnat, hcompare, UnpackedFloat.round, Int.toNat_natCast, htarget,
    decreaseExponent, hcount, Nat.shiftLeft_eq, hexponent]

/-- A natural number below `2 ^ 53` is a float. -/
theorem unpack_toFloat {n : Nat} (hn : n ≠ 0) (hsmall : n < 2 ^ 53) :
    ∃ hm, n.toUInt64.toFloat.toModel.unpack =
      .finite .positive (n * 2 ^ (52 - n.log2)) (n.log2 - 52) hm := by
  have hlog : n.log2 < 53 := (Nat.log2_lt hn).mpr hsmall
  have hlength : (n * 2 ^ (52 - n.log2)).log2 = 52 + 0 := by
    rw [log2_mul_two_pow hn]
    omega
  have hbounds := cut_bounds hlength
  rw [Nat.pow_zero, Nat.div_one] at hbounds
  have hrank := hasRank_roundWithAccuracy (e := n.log2 - 52) hlength (by omega) (by omega)
  rw [roundedShift_zero, show (n.log2 : Int) - 52 + (0 : Nat) = n.log2 - 52 by omega] at hrank
  refine ⟨by omega, ?_⟩
  change (Float.Model.pack (UnpackedFloat.ofUInt64 .binary64 n.toUInt64)).unpack = _
  rw [ofUInt64_eq hn hsmall, unpack_pack hrank.1,
    hrank.eq_finite hbounds.1 hbounds.2 (by omega)]

theorem unpack_one :
    Float.exactlyRepresentablePowersOfTen[0].toModel.unpack =
      .finite .positive (2 ^ 52) (-52) (by decide) := rfl

theorem natRank_of_small {n : Nat} (hn : n ≠ 0) (hsmall : n < 2 ^ 53) :
    natRank n = finiteRank (n * 2 ^ (52 - n.log2)) (n.log2 - 52) := by
  have hlog : n.log2 < 53 := (Nat.log2_lt hn).mpr hsmall
  have hsplit : n * 2 ^ 53 = n * 2 ^ (52 - n.log2) * 2 ^ (n.log2 + 1) := by
    rw [Nat.mul_assoc, ← Nat.pow_add]
    congr 2
    omega
  have hscale := roundedShift_scale (n * 2 ^ (52 - n.log2)) 0 (n.log2 + 1)
  rw [Nat.zero_add, roundedShift_zero] at hscale
  rw [natRank, if_neg hn, hsplit, hscale]

theorem length_of_nat {n : Nat} (hn : n ≠ 0) : (n * 2 ^ 53).log2 = 52 + (n.log2 + 1) := by
  rw [log2_mul_two_pow hn]
  omega

/-- A natural number below `2 ^ 53` is multiplied by one, the power of ten with the exponent 0. -/
theorem hasRank_ofNat_of_small {n : Nat} (hn : n ≠ 0) (hsmall : n < 2 ^ 53) :
    HasRank (natRank n) (Float.ofNat n).toModel.unpack := by
  have hlog : n.log2 < 53 := (Nat.log2_lt hn).mpr hsmall
  obtain ⟨hm, hfloat⟩ := unpack_toFloat hn hsmall
  have hlength : (n * 2 ^ (52 - n.log2) * 2 ^ 52).log2 = 52 + 52 := by
    rw [log2_mul_two_pow (Nat.ne_of_gt hm), log2_mul_two_pow hn]
    omega
  have hrank := hasRank_roundWithAccuracy (e := n.log2 - 52 + -52) hlength (by omega) (by omega)
  have hscale := roundedShift_scale (n * 2 ^ (52 - n.log2)) 0 52
  rw [Nat.zero_add, roundedShift_zero] at hscale
  rw [hscale, show (n.log2 : Int) - 52 + -52 + (52 : Nat) = n.log2 - 52 by omega,
    ← natRank_of_small hn hsmall] at hrank
  have hproduct : (Float.ofNat n).toModel = n.toUInt64.toFloat.toModel *
      Float.exactlyRepresentablePowersOfTen[0].toModel :=
    congrArg Float.toModel (dif_pos ⟨hsmall, by decide⟩)
  have hmul : (Float.ofNat n).toModel = Float.Model.pack (roundWithAccuracy .binary64 .positive
      (n * 2 ^ (52 - n.log2) * 2 ^ 52) (n.log2 - 52 + -52) .exact) := by
    rw [hproduct]
    change Float.Model.pack (mul .binary64 _ _) = _
    rw [hfloat, unpack_one]
    rfl
  rw [hmul, unpack_pack hrank.1]
  exact hrank

/-- A greater one is given 53 more bits and then cut. -/
theorem hasRank_ofNat_of_large {n : Nat} (hlarge : 2 ^ 53 ≤ n) (hbits : n < 2 ^ 64) :
    HasRank (natRank n) (Float.ofNat n).toModel.unpack := by
  have hn : n ≠ 0 := by omega
  have hlog : n.log2 < 64 := (Nat.log2_lt hn).mpr hbits
  have hrank :=
    hasRank_roundWithAccuracy (e := -53) (length_of_nat hn) (by omega) (by omega)
  rw [show (-53 : Int) + (n.log2 + 1 : Nat) = n.log2 - 52 by omega] at hrank
  have hscientific : (Float.ofNat n).toModel = Float.Model.ofScientific n 0 :=
    congrArg Float.toModel (dif_neg fun h => absurd h.1 (Nat.not_lt.mpr hlarge))
  have hshort : ¬ (0 : Int) > 2 ^ 11 := by decide
  have hlong : ¬ (0 : Int) < -((2 ^ 11 : Int) + n.log2) := by omega
  have hmul : (Float.ofNat n).toModel = Float.Model.pack (roundWithAccuracy .binary64 .positive
      (n * 2 ^ 53) (-53) .exact) := by
    rw [hscientific, Float.Model.ofScientific, UnpackedFloat.ofScientific, dif_neg hn,
      if_neg hshort, if_neg hlong, if_pos (by decide)]
    simp only [mul, Nat.shiftLeft_eq, Int.toNat_zero, Nat.pow_zero, Nat.mul_one]
    rfl
  rw [natRank, if_neg hn, hmul, unpack_pack hrank.1]
  exact hrank

/-- A natural number of up to 64 bits becomes a float of its rank. -/
theorem hasRank_ofNat {n : Nat} (hn : n ≠ 0) (hbits : n < 2 ^ 64) :
    HasRank (natRank n) (Float.ofNat n).toModel.unpack := by
  rcases Nat.lt_or_ge n (2 ^ 53) with hsmall | hlarge
  · exact hasRank_ofNat_of_small hn hsmall
  · exact hasRank_ofNat_of_large hlarge hbits

theorem natRank_nonneg (n : Nat) : 0 ≤ natRank n := by
  unfold natRank
  split
  · exact Int.le_refl 0
  · simp only [finiteRank]
    omega

/-- A natural number of more bits has a greater rank than the others of fewer, which may be rounded
up to it. -/
theorem natRank_of_log2_lt {m n : Nat} (hm : m ≠ 0) (h : m.log2 < n.log2) :
    natRank m ≤ finiteRank (2 ^ 52) (n.log2 - 52) ∧
      finiteRank (2 ^ 52) (n.log2 - 52) ≤ natRank n := by
  have hn : n ≠ 0 := by
    rintro rfl
    exact absurd h (Nat.not_lt.mpr (by simp))
  have hcut := cut_bounds (length_of_nat hm)
  have hround := roundedShift_bounds (m * 2 ^ 53) (m.log2 + 1)
  have hcut' := cut_bounds (length_of_nat hn)
  have hround' := roundedShift_bounds (n * 2 ^ 53) (n.log2 + 1)
  simp only [natRank, if_neg hm, if_neg hn, finiteRank]
  omega

/-- The rank of a natural number grows with it. -/
theorem natRank_mono {m n : Nat} (h : m ≤ n) : natRank m ≤ natRank n := by
  rcases Nat.eq_zero_or_pos m with rfl | hm
  · exact natRank_nonneg n
  · have hm : m ≠ 0 := Nat.ne_of_gt hm
    have hn : n ≠ 0 := by omega
    have hbits : m.log2 ≤ n.log2 := (Nat.le_log2 hn).mpr (Nat.le_trans (Nat.log2_self_le hm) h)
    rcases Nat.lt_or_ge m.log2 n.log2 with hless | hsame
    · obtain ⟨hupper, hlower⟩ := natRank_of_log2_lt hm hless
      calc natRank m ≤ finiteRank (2 ^ 52) (n.log2 - 52) := hupper
        _ ≤ natRank n := hlower
    · have hsame : n.log2 = m.log2 := by omega
      have hround := roundedShift_mono (Nat.mul_le_mul_right (2 ^ 53) h) (m.log2 + 1)
      simp only [natRank, if_neg hm, if_neg hn, hsame, finiteRank]
      omega

/-- Up to `2 ^ 53` different natural numbers have different ranks. -/
theorem natRank_strictMono {m n : Nat} (h : m < n) (hlast : n ≤ 2 ^ 53) :
    natRank m < natRank n := by
  have hn : n ≠ 0 := by omega
  rcases Nat.eq_zero_or_pos m with rfl | hm
  · have hcut := cut_bounds (length_of_nat hn)
    have hround := roundedShift_bounds (n * 2 ^ 53) (n.log2 + 1)
    simp only [natRank, if_true, if_neg hn, finiteRank]
    omega
  · have hm : m ≠ 0 := Nat.ne_of_gt hm
    have hbits : m.log2 ≤ n.log2 := (Nat.le_log2 hn).mpr (Nat.le_trans (Nat.log2_self_le hm) h.le)
    have hfirst := natRank_of_small hm (by omega)
    have hlength : (m * 2 ^ (52 - m.log2)).log2 = 52 + 0 := by
      have hlog := (Nat.log2_lt hm).mpr (show m < 2 ^ 53 by omega)
      rw [log2_mul_two_pow hm]
      omega
    have hcut := cut_bounds hlength
    rw [Nat.pow_zero, Nat.div_one] at hcut
    -- More bits mean a larger exponent; with as many of them the significands decide.
    rcases Nat.lt_or_ge m.log2 n.log2 with hless | hsame
    · have hlower := (natRank_of_log2_lt hm hless).2
      simp only [hfirst, finiteRank] at hlower ⊢
      omega
    · have hsame : n.log2 = m.log2 := by omega
      have hsmall : n < 2 ^ 53 := (Nat.log2_lt hn).mp (by
        rw [hsame]
        exact (Nat.log2_lt hm).mpr (by omega))
      have hscaled := Nat.mul_lt_mul_of_pos_right h (Nat.two_pow_pos (52 - m.log2))
      rw [hfirst, natRank_of_small hn hsmall, hsame]
      simp only [finiteRank]
      omega

/-! ## Integers -/

/-- The rank of the float nearest to an integer. -/
def intRank : Int → Int
  | .ofNat n => natRank n
  | .negSucc n => -natRank (n + 1)

theorem unpack_ofNat_zero : (Float.ofNat 0).toModel.unpack = .zero .positive := rfl

theorem isCanonical_neg {u : UnpackedFloat} (h : IsCanonical u) : IsCanonical u.neg := by
  cases u with
  | notANumber | infinity _ | zero _ => trivial
  | finite s m e hm => exact h

theorem unpack_neg (x : Float) : x.neg.toModel.unpack = x.toModel.unpack.neg :=
  unpack_pack (isCanonical_neg (isCanonical_unpack x.toModel))

theorem unpackedRank_neg {u : UnpackedFloat} (h : u ≠ .notANumber) :
    unpackedRank u.neg = -unpackedRank u := by
  cases u with
  | notANumber => exact absurd rfl h
  | infinity s => cases s <;> rfl
  | zero s => rfl
  | finite s m e hm =>
      cases s with
      | positive => rfl
      | negative => exact (Int.neg_neg _).symm

theorem unpack_ofNat {n : Nat} (hbits : n < 2 ^ 64) :
    (Float.ofNat n).toModel.unpack ≠ .notANumber ∧ rank (Float.ofNat n) = natRank n := by
  rcases Nat.eq_zero_or_pos n with rfl | hn
  · rw [rank, unpack_ofNat_zero]
    exact ⟨by simp, rfl⟩
  · obtain ⟨-, m, e, hm, hfloat, hrank⟩ := hasRank_ofNat (Nat.ne_of_gt hn) hbits
    rw [rank, hfloat]
    exact ⟨by simp, hrank⟩

theorem unpack_ofInt {n : Int} (hbits : n.natAbs < 2 ^ 64) :
    (Float.ofInt n).toModel.unpack ≠ .notANumber ∧ rank (Float.ofInt n) = intRank n := by
  cases n with
  | ofNat n => exact unpack_ofNat hbits
  | negSucc n =>
      obtain ⟨hnumber, hrank⟩ := unpack_ofNat (n := n + 1) hbits
      change (Float.ofNat (n + 1)).neg.toModel.unpack ≠ _ ∧ rank (Float.ofNat (n + 1)).neg = _
      rw [rank, unpack_neg, unpackedRank_neg hnumber, intRank, ← hrank]
      refine ⟨?_, rfl⟩
      cases hfloat : (Float.ofNat (n + 1)).toModel.unpack with
      | notANumber => exact absurd hfloat hnumber
      | infinity _ | zero _ | finite _ _ _ _ => simp [UnpackedFloat.neg]

theorem intRank_mono {m n : Int} (h : m ≤ n) : intRank m ≤ intRank n := by
  cases m with
  | ofNat m =>
      cases n with
      | ofNat n => exact natRank_mono (Int.ofNat_le.mp h)
      | negSucc n =>
          exact absurd (Int.le_trans (Int.natCast_nonneg m) h)
            (Int.not_le.mpr (Int.negSucc_lt_zero n))
  | negSucc m =>
      have hleft := natRank_nonneg (m + 1)
      cases n with
      | ofNat n =>
          have hright := natRank_nonneg n
          simp only [intRank]
          omega
      | negSucc n =>
          have hright : natRank (n + 1) ≤ natRank (m + 1) := natRank_mono (by omega)
          simp only [intRank]
          omega

theorem intRank_strictMono {m n : Int} (h : m < n) (hm : m.natAbs ≤ 2 ^ 53)
    (hn : n.natAbs ≤ 2 ^ 53) : intRank m < intRank n := by
  cases m with
  | ofNat m =>
      cases n with
      | ofNat n => exact natRank_strictMono (Int.ofNat_lt.mp h) hn
      | negSucc n =>
          exact absurd (Int.le_trans (Int.natCast_nonneg m) h.le)
            (Int.not_le.mpr (Int.negSucc_lt_zero n))
  | negSucc m =>
      have hleft : natRank 0 < natRank (m + 1) := natRank_strictMono (by omega) hm
      rw [show natRank 0 = 0 from rfl] at hleft
      cases n with
      | ofNat n =>
          have hright := natRank_nonneg n
          simp only [intRank]
          omega
      | negSucc n =>
          have hright : natRank (n + 1) < natRank (m + 1) := natRank_strictMono (by omega) hm
          simp only [intRank]
          omega

theorem natAbs_toInt_lt (n : Int64) : n.toInt.natAbs < 2 ^ 64 := by
  have hlow := n.le_toInt
  have hhigh := n.toInt_lt
  omega

/-- An integer of 64 bits becomes a number. -/
theorem isNaN_floatOfInt64 (n : Int64) : ¬ (floatOfInt64 n).isNaN = true :=
  mt isNaN_iff.mp (unpack_ofInt (natAbs_toInt_lt n)).1

theorem rank_floatOfInt64 (n : Int64) : rank (floatOfInt64 n) = intRank n.toInt :=
  (unpack_ofInt (natAbs_toInt_lt n)).2

theorem rank_floatOfInt64_mono {m n : Int64} (h : m ≤ n) :
    rank (floatOfInt64 m) ≤ rank (floatOfInt64 n) := by
  rw [rank_floatOfInt64, rank_floatOfInt64]
  exact intRank_mono (Int64.le_iff_toInt_le.mp h)

/-- Integers that differ and become one float lie beyond `2 ^ 53`. -/
theorem eq_of_rank_floatOfInt64 {m n : Int64} (hm : m.toInt.natAbs ≤ 2 ^ 53)
    (hn : n.toInt.natAbs ≤ 2 ^ 53) (h : rank (floatOfInt64 m) = rank (floatOfInt64 n)) : m = n := by
  rw [rank_floatOfInt64, rank_floatOfInt64] at h
  rcases lt_trichotomy m.toInt n.toInt with hless | hsame | hgreater
  · exact absurd h (Int.ne_of_lt (intRank_strictMono hless hm hn))
  · exact Int64.toInt_inj.mp hsame
  · exact absurd h (Int.ne_of_gt (intRank_strictMono hgreater hn hm))

end RecordQuery.Decimal

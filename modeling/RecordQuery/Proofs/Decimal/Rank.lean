import Mathlib
import RecordQuery.Value.Basic

/-!
# Floats by their rank

Every float has an integer rank, with what is not a number above the infinities and the zeros at 0,
such that two floats compare as their ranks do (`compareFloats_eq`).  For finite floats the rank
counts the floats between zero and them: a mantissa below `2 ^ 53` is added to `2 ^ 52` for each
step of the exponent, so a mantissa that reaches `2 ^ 53` goes on with the next exponent.
-/

namespace RecordQuery.Decimal

open Float.Model (Format UnpackedFloat)
open Float.Model.UnpackedFloat

/-! ## Ranks -/

/-- The rank of the positive number `mantissa · 2 ^ exponent`, for a mantissa up to `2 ^ 53`. -/
def finiteRank (mantissa : Nat) (exponent : Int) : Int := (exponent + 1074) * 2 ^ 52 + mantissa

/-- The rank of an unpacked float. -/
def unpackedRank : UnpackedFloat → Int
  | .notANumber => 2 ^ 64
  | .infinity .positive => 2 ^ 63
  | .infinity .negative => -2 ^ 63
  | .zero _ => 0
  | .finite .positive mantissa exponent _ => finiteRank mantissa exponent
  | .finite .negative mantissa exponent _ => -finiteRank mantissa exponent

/-- The rank of a float. -/
def rank (x : Float) : Int := unpackedRank x.toModel.unpack

/-! ## Unpacked floats -/

/-- Whether an unpacked float is the only form of its value. -/
def IsCanonical : UnpackedFloat → Prop
  | .finite _ mantissa exponent _ =>
    mantissa < 2 ^ 53 ∧ -1074 ≤ exponent ∧ exponent ≤ 971 ∧
      (2 ^ 52 ≤ mantissa ∨ exponent = -1074)
  | _ => True

theorem toNat_implicit (fraction : BitVec 52) :
    (1#1 ++ fraction).toNat = 2 ^ 52 + fraction.toNat := by
  rw [BitVec.toNat_append, ← Nat.shiftLeft_add_eq_or_of_lt fraction.isLt]
  rfl

/-- A float unpacks to a canonical form. -/
theorem isCanonical_unpack (x : Float.Model) : IsCanonical x.unpack := by
  have hfraction : (@unpackMantissa .binary64 x.toBits.toBitVec).toNat < 2 ^ 52 :=
    BitVec.isLt _
  have hexponent : (@unpackExponent .binary64 x.toBits.toBitVec).toNat < 2 ^ 11 :=
    BitVec.isLt _
  have hbias : (Format.exponentBias .binary64 : Int) + (52 : Nat) = 1075 := rfl
  unfold Float.Model.unpack UnpackedFloat.unpack
  dsimp only
  split
  · split <;> trivial
  · rename_i hfinite
    split
    · rename_i hzero
      split
      · trivial
      · simp only [IsCanonical, hzero, hbias, BitVec.toNat_ofNat]
        omega
    · rename_i hzero
      have hlow : (@unpackExponent .binary64 x.toBits.toBitVec).toNat ≠ 0 :=
        fun h => hzero (BitVec.eq_of_toNat_eq h)
      have hhigh : (@unpackExponent .binary64 x.toBits.toBitVec).toNat ≠ 2047 :=
        fun h => hfinite (BitVec.eq_of_toNat_eq h)
      have hmantissa := toNat_implicit (@unpackMantissa .binary64 x.toBits.toBitVec)
      simp only [IsCanonical, hmantissa, hbias]
      omega

/-! ## Order -/

theorem compare_neg (m n : Int) : compare (-m) (-n) = (compare m n).swap := by
  rcases lt_trichotomy m n with h | rfl | h
  · rw [compare_lt_iff_lt.mpr h, compare_gt_iff_gt.mpr (by omega), Ordering.swap]
  · rw [compare_eq_iff_eq.mpr rfl, compare_eq_iff_eq.mpr rfl, Ordering.swap]
  · rw [compare_gt_iff_gt.mpr h, compare_lt_iff_lt.mpr (by omega), Ordering.swap]

variable {a b : UnpackedFloat}

theorem finiteRank_bounds {m : Nat} {e : Int} {s : Sign} {hm : 0 < m}
    (h : IsCanonical (.finite s m e hm)) : 0 < finiteRank m e ∧ finiteRank m e < 2 ^ 63 := by
  obtain ⟨hm', he, he', _⟩ := h
  simp only [finiteRank]
  omega

/-- The exponent decides between positive numbers in canonical form, and the mantissa where it does
not. -/
theorem compare_finite {m n : Nat} {e f : Int} {s t : Sign} {hm : 0 < m} {hn : 0 < n}
    (hleft : IsCanonical (.finite s m e hm)) (hright : IsCanonical (.finite t n f hn)) :
    (compare e f).then (compare m n) = compare (finiteRank m e) (finiteRank n f) := by
  obtain ⟨hm', he, -, hlow⟩ := hleft
  obtain ⟨hn', hf, -, hlow'⟩ := hright
  have hnext (h : e < f) : finiteRank m e < finiteRank n f := by
    simp only [finiteRank]
    omega
  have hprevious (h : f < e) : finiteRank n f < finiteRank m e := by
    simp only [finiteRank]
    omega
  rcases lt_trichotomy e f with h | rfl | h
  · rw [compare_lt_iff_lt.mpr h, compare_lt_iff_lt.mpr (hnext h), Ordering.lt_then]
  · rw [compare_eq_iff_eq.mpr rfl, Ordering.eq_then]
    simp only [finiteRank]
    rcases lt_trichotomy m n with h | rfl | h
    · rw [compare_lt_iff_lt.mpr h, compare_lt_iff_lt.mpr (by omega)]
    · rw [compare_eq_iff_eq.mpr rfl, compare_eq_iff_eq.mpr rfl]
    · rw [compare_gt_iff_gt.mpr h, compare_gt_iff_gt.mpr (by omega)]
  · rw [compare_gt_iff_gt.mpr h, compare_gt_iff_gt.mpr (hprevious h), Ordering.gt_then]

/-- Numbers in canonical form compare as their ranks do. -/
theorem compare_unpacked (ha : IsCanonical a) (hb : IsCanonical b) (hnumber : a ≠ .notANumber)
    (hnumber' : b ≠ .notANumber) :
    a.compare b = some (compare (unpackedRank a) (unpackedRank b)) := by
  have hless {m n : Int} (h : m < n) : some Ordering.lt = some (compare m n) :=
    congrArg some (compare_lt_iff_lt.mpr h).symm
  have hgreater {m n : Int} (h : n < m) : some Ordering.gt = some (compare m n) :=
    congrArg some (compare_gt_iff_gt.mpr h).symm
  cases a with
  | notANumber => exact absurd rfl hnumber
  | infinity s =>
      cases b with
      | notANumber => exact absurd rfl hnumber'
      | infinity t => cases s <;> cases t <;> rfl
      | zero t => cases s <;> rfl
      | finite t n f hn =>
          have hbounds := finiteRank_bounds hb
          cases s <;> cases t <;>
            first
            | exact hless (by simp only [unpackedRank]; omega)
            | exact hgreater (by simp only [unpackedRank]; omega)
  | zero s =>
      cases b with
      | notANumber => exact absurd rfl hnumber'
      | infinity t => cases t <;> rfl
      | zero t => rfl
      | finite t n f hn =>
          have hbounds := finiteRank_bounds hb
          cases t with
          | positive => exact hless (by simp only [unpackedRank]; omega)
          | negative => exact hgreater (by simp only [unpackedRank]; omega)
  | finite s m e hm =>
      have hbounds := finiteRank_bounds ha
      cases b with
      | notANumber => exact absurd rfl hnumber'
      | infinity t =>
          cases s <;> cases t <;>
            first
            | exact hless (by simp only [unpackedRank]; omega)
            | exact hgreater (by simp only [unpackedRank]; omega)
      | zero t =>
          cases s with
          | positive => exact hgreater (by simp only [unpackedRank]; omega)
          | negative => exact hless (by simp only [unpackedRank]; omega)
      | finite t n f hn =>
          have hbounds' := finiteRank_bounds hb
          have hcompare := compare_finite ha hb
          cases s with
          | positive =>
              cases t with
              | positive => exact congrArg some hcompare
              | negative => exact hgreater (by simp only [unpackedRank]; omega)
          | negative =>
              cases t with
              | positive => exact hless (by simp only [unpackedRank]; omega)
              | negative =>
                  -- Of two negative numbers the farther one from zero is the less.
                  rw [unpackedRank, unpackedRank, compare_neg, ← hcompare]
                  rfl

/-! ## Floats -/

variable {x y : Float}

theorem lt_iff : x < y ↔ x.toModel.unpack.compare y.toModel.unpack = some .lt := by
  change (decide (x.toModel < y.toModel)) = true ↔ _
  rw [decide_eq_true_iff]
  exact beq_iff_eq

theorem beq_iff : (x == y) = true ↔ x.toModel.unpack.compare y.toModel.unpack = some .eq := by
  change (x.toModel.unpack.compare y.toModel.unpack == some .eq) = true ↔ _
  exact beq_iff_eq

theorem isNaN_iff : x.isNaN = true ↔ x.toModel.unpack = .notANumber :=
  UnpackedFloat.isNaN_iff

theorem rank_eq_of_isNaN (h : x.isNaN = true) : rank x = 2 ^ 64 := by
  rw [rank, isNaN_iff.mp h]
  rfl

theorem rank_lt_of_number (h : ¬ x.isNaN = true) : rank x < 2 ^ 64 := by
  have hcanonical := isCanonical_unpack x.toModel
  rw [isNaN_iff] at h
  rw [rank]
  generalize x.toModel.unpack = unpacked at *
  cases unpacked with
  | notANumber => exact absurd rfl h
  | infinity s => cases s <;> decide
  | zero s => exact Int.pow_pos (by decide)
  | finite s m e hm =>
      have hbounds := finiteRank_bounds hcanonical
      cases s <;> (simp only [unpackedRank]; omega)

theorem compare_of_numbers (hx : ¬ x.isNaN = true) (hy : ¬ y.isNaN = true) :
    x.toModel.unpack.compare y.toModel.unpack = some (compare (rank x) (rank y)) :=
  compare_unpacked (isCanonical_unpack _) (isCanonical_unpack _) (mt isNaN_iff.mpr hx)
    (mt isNaN_iff.mpr hy)

theorem compare_of_isNaN (h : x.isNaN = true ∨ y.isNaN = true) :
    x.toModel.unpack.compare y.toModel.unpack = none := by
  rcases h with h | h
  · rw [isNaN_iff.mp h]
    rfl
  · rw [isNaN_iff.mp h]
    cases x.toModel.unpack with
    | infinity s => cases s <;> rfl
    | finite s _ _ _ => cases s <;> rfl
    | notANumber | zero _ => rfl

/-- Two floats compare as their ranks do. -/
theorem compareFloats_eq (x y : Float) : Value.compareFloats x y = compare (rank x) (rank y) := by
  unfold Value.compareFloats
  by_cases hx : x.isNaN = true
  · have hnone := compare_of_isNaN (y := y) (Or.inl hx)
    have hnone' := compare_of_isNaN (x := y) (Or.inr hx)
    simp only [lt_iff, beq_iff, hnone, hnone', reduceCtorEq, if_false, hx, Bool.true_and]
    by_cases hy : y.isNaN = true
    · rw [if_pos hy, rank_eq_of_isNaN hx, rank_eq_of_isNaN hy, compare_eq_iff_eq.mpr rfl]
    · have hbelow := rank_lt_of_number hy
      rw [if_neg hy, if_pos trivial, rank_eq_of_isNaN hx, compare_gt_iff_gt.mpr hbelow]
  · by_cases hy : y.isNaN = true
    · have hnone := compare_of_isNaN (x := x) (Or.inr hy)
      have hnone' := compare_of_isNaN (y := x) (Or.inl hy)
      have hbelow := rank_lt_of_number hx
      simp only [lt_iff, beq_iff, hnone, hnone', reduceCtorEq, if_false, hx, Bool.false_and]
      rw [rank_eq_of_isNaN hy, compare_lt_iff_lt.mpr hbelow]
    · simp only [lt_iff, beq_iff, compare_of_numbers hx hy, compare_of_numbers hy hx,
        Option.some.injEq, compare_lt_iff_lt, compare_eq_iff_eq]
      rcases lt_trichotomy (rank x) (rank y) with h | h | h
      · rw [if_pos h, compare_lt_iff_lt.mpr h]
      · rw [if_neg (by omega), if_pos h, compare_eq_iff_eq.mpr h]
      · rw [if_neg (by omega), if_neg (by omega), if_pos h, compare_gt_iff_gt.mpr h]

/-- Two numbers are equal if their ranks are; what is not a number equals nothing. -/
theorem beq_iff_rank : (x == y) = true ↔ ¬ x.isNaN = true ∧ rank x = rank y := by
  rw [beq_iff]
  by_cases hx : x.isNaN = true
  · rw [compare_of_isNaN (Or.inl hx)]
    exact iff_of_false nofun fun h => h.1 hx
  · rw [and_iff_right hx]
    by_cases hy : y.isNaN = true
    · have hbelow := rank_lt_of_number hx
      rw [compare_of_isNaN (Or.inr hy), rank_eq_of_isNaN hy]
      exact iff_of_false nofun (Int.ne_of_lt hbelow)
    · rw [compare_of_numbers hx hy, Option.some.injEq, compare_eq_iff_eq]

end RecordQuery.Decimal

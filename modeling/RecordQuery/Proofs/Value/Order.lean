import RecordQuery.Proofs.Decimal.Rounding

/-!
# The order of values

Two values that can be compared are both numbers, or of one other type (`Comparison`).  Turning them
around turns their order around, and from the orders of neighbours follows the order of the outer two
of three values (`Chained`), but for one case: different integers may become one float (`Merge`).
Both are equal to that float then, and not to each other.
-/

namespace RecordQuery.Value

open Decimal (rank compareFloats_eq beq_iff_rank isNaN_floatOfInt64 rank_floatOfInt64_mono
  rank_lt_of_number rank_eq_of_isNaN eq_of_rank_floatOfInt64)
open Std (OrientedCmp OrientedOrd TransCmp TransOrd)

/-- The order of two values that can be compared, numbers being compared by rank unless both are
integers. -/
inductive Comparison : Value → Value → Ordering → Prop where
  | integers (m n : Int64) : Comparison (integer m) (integer n) (compare m.toInt n.toInt)
  | floats (x y : Float) : Comparison (float x) (float y) (compare (rank x) (rank y))
  | integerFloat (m : Int64) (y : Float) :
    Comparison (integer m) (float y) (compare (rank (floatOfInt64 m)) (rank y))
  | floatInteger (x : Float) (n : Int64) :
    Comparison (float x) (integer n) (compare (rank x) (rank (floatOfInt64 n)))
  | texts (s t : String) : Comparison (text s) (text t) (compare s t)
  | booleans (a b : Bool) : Comparison (boolean a) (boolean b) (compare a b)
  | records (table : TableId) (i j : Nat) :
    Comparison (record ⟨table, i⟩) (record ⟨table, j⟩) (compare i j)

/-- The order of the outer two of three values, as the orders of the neighbours give it. -/
structure Chained (left right outer : Ordering) : Prop where
  isLE : outer.isLE = true
  eq_iff : outer = .eq ↔ left = .eq ∧ right = .eq

/-- Whether two of three values are different integers, and the third is a float that both become. -/
def Merge : Value → Value → Value → Prop
  | integer m, integer n, float x
  | integer m, float x, integer n
  | float x, integer m, integer n =>
    m ≠ n ∧ (integer m).equals (float x) = true ∧ (integer n).equals (float x) = true
  | _, _, _ => False

variable {a b c : Value} {o p : Ordering}

theorem compare?_eq_some_iff : a.compare? b = some o ↔ Comparison a b o := by
  constructor
  · intro h
    unfold compare? at h
    split at h
    · cases h
      exact .integers _ _
    · cases h
      rw [compareFloats_eq]
      exact .floats _ _
    · cases h
      rw [compareFloats_eq]
      exact .integerFloat _ _
    · cases h
      rw [compareFloats_eq]
      exact .floatInteger _ _
    · cases h
      exact .texts _ _
    · cases h
      exact .booleans _ _
    · rename_i r q
      obtain ⟨table, i⟩ := r
      obtain ⟨table', j⟩ := q
      split at h
      · rename_i hsame
        cases h
        cases hsame
        exact .records table i j
      · cases h
    · cases h
  · intro h
    cases h with
    | integers | texts | booleans => rfl
    | floats | integerFloat | floatInteger => rw [compare?, compareFloats_eq]
    | records => rw [compare?, if_pos rfl]

/-! ## Turning around -/

theorem Comparison.swap (h : Comparison a b o) : Comparison b a o.swap := by
  cases h with
  | integers m n => exact OrientedOrd.eq_swap (a := n.toInt) ▸ .integers n m
  | floats x y => exact OrientedOrd.eq_swap (a := rank y) ▸ .floats y x
  | integerFloat m y => exact OrientedOrd.eq_swap (a := rank y) ▸ .floatInteger y m
  | floatInteger x n => exact OrientedOrd.eq_swap (a := rank (floatOfInt64 n)) ▸ .integerFloat n x
  | texts s t => exact OrientedOrd.eq_swap (a := t) ▸ .texts t s
  | booleans a b => exact OrientedOrd.eq_swap (a := b) ▸ .booleans b a
  | records table i j => exact OrientedOrd.eq_swap (a := j) ▸ .records table j i

theorem compare?_swap (a b : Value) : b.compare? a = (a.compare? b).map Ordering.swap := by
  cases h : a.compare? b with
  | some o => exact compare?_eq_some_iff.mpr (compare?_eq_some_iff.mp h).swap
  | none =>
      cases h' : b.compare? a with
      | none => rfl
      | some o =>
          rw [compare?_eq_some_iff.mpr (compare?_eq_some_iff.mp h').swap] at h
          cases h

/-! ## Equality -/

theorem beq_floatOfInt64_iff {x : Float} {n : Int64} :
    (x == floatOfInt64 n) = true ↔ rank x = rank (floatOfInt64 n) := by
  rw [beq_iff_rank, and_iff_right_iff_imp]
  intro hsame hnan
  have hnumber := rank_lt_of_number (isNaN_floatOfInt64 n)
  have hlast := rank_eq_of_isNaN hnan
  omega

theorem equals_float_iff {x y : Float} : (float x).equals (float y) = true ↔ rank x = rank y := by
  simp only [equals, Bool.or_eq_true, Bool.and_eq_true, beq_iff_rank]
  constructor
  · rintro (⟨hx, hy⟩ | ⟨-, hsame⟩)
    · rw [rank_eq_of_isNaN hx, rank_eq_of_isNaN hy]
    · exact hsame
  · intro hsame
    by_cases hx : x.isNaN = true
    · refine Or.inl ⟨hx, ?_⟩
      by_contra hy
      have hnumber := rank_lt_of_number hy
      rw [← hsame, rank_eq_of_isNaN hx] at hnumber
      exact absurd hnumber (Int.lt_irrefl _)
    · exact Or.inr ⟨hx, hsame⟩

theorem Comparison.eq_iff (h : Comparison a b o) : o = .eq ↔ a.equals b = true := by
  cases h with
  | integers m n => simp [equals, Int64.toInt_inj]
  | floats x y => rw [equals_float_iff, compare_eq_iff_eq]
  | integerFloat m y => rw [equals, beq_floatOfInt64_iff, compare_eq_iff_eq, eq_comm]
  | floatInteger x n => rw [equals, beq_floatOfInt64_iff, compare_eq_iff_eq]
  | texts s t => simp [equals]
  | booleans a b => simp [equals]
  | records table i j => simp [equals]

theorem equals_self (a : Value) : a.equals a = true := by
  cases a with
  | null type => rfl
  | float x => exact equals_float_iff.mpr rfl
  | integer n => exact beq_self_eq_true n
  | text s => exact beq_self_eq_true s
  | boolean b => exact beq_self_eq_true b
  | record r => exact beq_self_eq_true r

/-- Equal values can be compared, unless they are nulls. -/
theorem comparison_of_equals (h : a.equals b = true) (ha : ¬ a.isNull = true) :
    ∃ o, Comparison a b o := by
  unfold equals at h
  split at h
  · exact absurd rfl ha
  · exact ⟨_, .floats _ _⟩
  · exact ⟨_, .integerFloat _ _⟩
  · exact ⟨_, .floatInteger _ _⟩
  · exact ⟨_, .integers _ _⟩
  · exact ⟨_, .texts _ _⟩
  · exact ⟨_, .booleans _ _⟩
  · cases eq_of_beq h
    exact ⟨_, .records _ _ _⟩
  · cases h

/-- Two values of which one is no null compare as equal if they are equal. -/
theorem compare?_eq_iff (ha : ¬ a.isNull = true) :
    a.compare? b = some .eq ↔ a.equals b = true := by
  rw [compare?_eq_some_iff]
  constructor
  · intro h
    exact h.eq_iff.mp rfl
  · intro h
    obtain ⟨o, ho⟩ := comparison_of_equals h ha
    obtain rfl := ho.eq_iff.mpr h
    exact ho

/-! ## Chains -/

/-- The order of the outer two of three, in a type whose order is transitive. -/
theorem chained_compare {α : Type} [Ord α] [TransOrd α] {x y z : α}
    (hleft : (compare x y).isLE = true) (hright : (compare y z).isLE = true) :
    Chained (compare x y) (compare y z) (compare x z) where
  isLE := TransOrd.isLE_trans hleft hright
  eq_iff := by
    constructor
    · intro houter
      have hback : (compare y x).isLE = true := by
        rwa [TransCmp.congr_right houter]
      have hback' : (compare z y).isLE = true := by
        rwa [← TransCmp.congr_left houter]
      exact ⟨OrientedCmp.isLE_antisymm hleft hback, OrientedCmp.isLE_antisymm hright hback'⟩
    · rintro ⟨hleft, hright⟩
      exact TransCmp.eq_trans hleft hright

theorem chained_iff {i j k l r s : Int} :
    Chained (compare i j) (compare k l) (compare r s) ↔ r ≤ s ∧ (r = s ↔ i = j ∧ k = l) := by
  constructor
  · intro h
    exact ⟨Int.isLE_compare.mp h.isLE, by simpa only [compare_eq_iff_eq] using h.eq_iff⟩
  · intro h
    exact ⟨Int.isLE_compare.mpr h.1, by simpa only [compare_eq_iff_eq] using h.2⟩

theorem merged_iff {m n : Int64} {x : Float} :
    (m ≠ n ∧ (integer m).equals (float x) = true ∧ (integer n).equals (float x) = true) ↔
      m.toInt ≠ n.toInt ∧ rank x = rank (floatOfInt64 m) ∧ rank x = rank (floatOfInt64 n) := by
  rw [Ne, ← Int64.toInt_inj, equals, equals, beq_floatOfInt64_iff, beq_floatOfInt64_iff]

theorem rank_floatOfInt64_of_le {m n : Int64} :
    (m.toInt ≤ n.toInt → rank (floatOfInt64 m) ≤ rank (floatOfInt64 n)) ∧
      (n.toInt ≤ m.toInt → rank (floatOfInt64 n) ≤ rank (floatOfInt64 m)) :=
  ⟨fun h => rank_floatOfInt64_mono (Int64.le_iff_toInt_le.mpr h),
    fun h => rank_floatOfInt64_mono (Int64.le_iff_toInt_le.mpr h)⟩

/-- The outer two of three values in order are in the order that the neighbours give, unless two
different integers become the float that is the third. -/
theorem Comparison.chain (hleft : Comparison a b o) (hright : Comparison b c p)
    (ho : o.isLE = true) (hp : p.isLE = true) :
    ∃ q, Comparison a c q ∧ (Chained o p q ↔ ¬ Merge a b c) := by
  cases hleft with
  | texts s t =>
      cases hright with
      | texts _ u => exact ⟨_, .texts s u, iff_of_true (chained_compare ho hp) id⟩
  | booleans x y =>
      cases hright with
      | booleans _ z => exact ⟨_, .booleans x z, iff_of_true (chained_compare ho hp) id⟩
  | records table i j =>
      cases hright with
      | records _ _ k => exact ⟨_, .records table i k, iff_of_true (chained_compare ho hp) id⟩
  | floats x y =>
      cases hright with
      | floats _ z => exact ⟨_, .floats x z, iff_of_true (chained_compare ho hp) id⟩
      | floatInteger _ n => exact ⟨_, .floatInteger x n, iff_of_true (chained_compare ho hp) id⟩
  | integers m n =>
      cases hright with
      | integers _ k => exact ⟨_, .integers m k, iff_of_true (chained_compare ho hp) id⟩
      -- The middle integer is compared as itself on one side and as a float on the other.
      | integerFloat _ x =>
          have hranks := rank_floatOfInt64_of_le (m := m) (n := n)
          refine ⟨_, .integerFloat m x, ?_⟩
          rw [Int.isLE_compare] at ho hp
          rw [chained_iff, Merge, merged_iff]
          omega
  | integerFloat m x =>
      cases hright with
      | floats _ y => exact ⟨_, .integerFloat m y, iff_of_true (chained_compare ho hp) id⟩
      | floatInteger _ n =>
          have hranks := rank_floatOfInt64_of_le (m := m) (n := n)
          refine ⟨_, .integers m n, ?_⟩
          rw [Int.isLE_compare] at ho hp
          rw [chained_iff, Merge, merged_iff]
          omega
  | floatInteger x m =>
      cases hright with
      | integerFloat _ y => exact ⟨_, .floats x y, iff_of_true (chained_compare ho hp) id⟩
      | integers _ n =>
          have hranks := rank_floatOfInt64_of_le (m := m) (n := n)
          refine ⟨_, .floatInteger x n, ?_⟩
          rw [Int.isLE_compare] at ho hp
          rw [chained_iff, Merge, merged_iff]
          omega

/-! ## Numbers -/

/-- Of two different integers that become one float one lies beyond `2 ^ 53`. -/
theorem Merge.beyond (h : Merge a b c) :
    ∃ n, integer n ∈ [a, b, c] ∧ 2 ^ 53 < n.toInt.natAbs := by
  have hbeyond {m n : Int64} {x : Float} (h : m ≠ n ∧ (integer m).equals (float x) = true ∧
      (integer n).equals (float x) = true) :
      ∃ k, (k = m ∨ k = n) ∧ 2 ^ 53 < k.toInt.natAbs := by
    obtain ⟨-, hm, hn⟩ := merged_iff.mp h
    by_contra hsmall
    push Not at hsmall
    exact h.1 (eq_of_rank_floatOfInt64 (hsmall m (Or.inl rfl)) (hsmall n (Or.inr rfl))
      (hm.symm.trans hn))
  unfold Merge at h
  split at h
  · obtain ⟨k, rfl | rfl, hk⟩ := hbeyond h <;> exact ⟨_, by simp, hk⟩
  · obtain ⟨k, rfl | rfl, hk⟩ := hbeyond h <;> exact ⟨_, by simp, hk⟩
  · obtain ⟨k, rfl | rfl, hk⟩ := hbeyond h <;> exact ⟨_, by simp, hk⟩
  · exact h.elim

/-- What is not a number is above all numbers, and equal to what is not one either. -/
theorem compare?_of_isNaN {x y : Float} (hx : x.isNaN = true) (hb : b.toFloat? = some y) :
    (float x).compare? b = some (if y.isNaN = true then .eq else .gt) := by
  have horder : compareFloats x y = if y.isNaN = true then .eq else .gt := by
    rw [compareFloats_eq, rank_eq_of_isNaN hx]
    split
    · rename_i hy
      rw [rank_eq_of_isNaN hy, compare_eq_iff_eq]
    · rename_i hy
      rw [compare_gt_iff_gt]
      exact rank_lt_of_number hy
  unfold toFloat? at hb
  split at hb
  · cases hb
    rw [compare?, horder]
  · cases hb
    rw [compare?, horder]
  · cases hb

/-! ## The order -/

/-- Two values turned around have their order turned around; the outer two of three values in order
are in order, and equal if both neighbours are, unless the three are a float and two different
integers that become it, one of them beyond `2 ^ 53`; values that are no nulls compare as equal if
they are equal; and what is not a number is above all numbers. -/
theorem order_consistent (a b c : Value) :
    b.compare? a = (a.compare? b).map Ordering.swap ∧
      (∀ o p, a.compare? b = some o → b.compare? c = some p → o.isLE = true → p.isLE = true →
        ∃ q, a.compare? c = some q ∧ (Chained o p q ↔ ¬ Merge a b c)) ∧
      (Merge a b c → ∃ n, integer n ∈ [a, b, c] ∧ 2 ^ 53 < n.toInt.natAbs) ∧
      (¬ a.isNull = true → (a.compare? b = some .eq ↔ a.equals b = true)) ∧
      ∀ x y, x.isNaN = true → b.toFloat? = some y →
        (float x).compare? b = some (if y.isNaN = true then .eq else .gt) := by
  refine ⟨compare?_swap a b, ?_, Merge.beyond, compare?_eq_iff, fun _ _ => compare?_of_isNaN⟩
  intro o p hleft hright ho hp
  obtain ⟨q, houter, hchained⟩ :=
    (compare?_eq_some_iff.mp hleft).chain (compare?_eq_some_iff.mp hright) ho hp
  exact ⟨q, compare?_eq_some_iff.mpr houter, hchained⟩

/-- Two integers that become one float are equal to it, and the first is greater than the second. -/
theorem order_of_merged :
    let first := integer 9007199254740993
    let second := integer 9007199254740992
    let between := float 9007199254740992.0
    first.compare? between = some .eq ∧ between.compare? second = some .eq ∧
      first.compare? second = some .gt := by
  decide +kernel

end RecordQuery.Value

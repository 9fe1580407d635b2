import Mathlib.Data.Finset.Card
import Mathlib.Data.List.TakeWhile
import RecordQuery.Proofs.Snippet.Occurrences

/-!
# The sweep along the text

The proposed windows are found in one sweep, in which the occurrences inside the current window are
a queue.  This works because both edges only move forward, whatever windows alternate
(`Occurrence.bounds_mono`), so an occurrence that has left never comes back.  The invariant of the
sweep (`Sweeps`) splits the occurrences of the text into those that have left, those inside and
those ahead, and says what the counters count; a move keeps it (`Sweeps.move`).
-/

namespace RecordQuery.Snippet

/-! ## Proposed windows -/

/-- The window that an occurrence proposes, plainly: the occurrence itself if it fills the width,
or the characters from its start on, as many as the width; where the text ends too soon they are
its last ones. -/
def Occurrence.range (width length : Nat) (o : Occurrence) : Nat × Nat :=
  if width ≤ o.stop - o.start then (o.start, o.stop)
  else if o.start + width ≤ length then (o.start, o.start + width)
  else (length - width, length)

theorem Occurrence.range_cases (width length : Nat) (o : Occurrence) :
    (width ≤ o.stop - o.start ∧
      (o.range width length).1 = o.start ∧ (o.range width length).2 = o.stop) ∨
    (o.stop - o.start < width ∧ o.start + width ≤ length ∧
      (o.range width length).1 = o.start ∧ (o.range width length).2 = o.start + width) ∨
    (o.stop - o.start < width ∧ length < o.start + width ∧
      (o.range width length).1 = length - width ∧ (o.range width length).2 = length) := by
  unfold range
  by_cases hwide : width ≤ o.stop - o.start
  · rw [if_pos hwide]
    exact Or.inl ⟨hwide, rfl, rfl⟩
  · rw [if_neg hwide]
    by_cases hfits : o.start + width ≤ length
    · rw [if_pos hfits]
      exact Or.inr (Or.inl ⟨Nat.lt_of_not_le hwide, hfits, rfl, rfl⟩)
    · rw [if_neg hfits]
      exact Or.inr (Or.inr ⟨Nat.lt_of_not_le hwide, Nat.lt_of_not_le hfits, rfl, rfl⟩)

variable {width length : Nat} {o : Occurrence}

theorem Occurrence.bounds_eq_range (width length : Nat) (o : Occurrence) :
    o.bounds width length = o.range width length := by
  have hrange := o.range_cases width length
  unfold bounds
  split
  · ext <;> omega
  · ext <;> simp only <;> omega

theorem Occurrence.start_add_width_le (width length : Nat) (o : Occurrence) :
    min o.start (length - width) + width ≤ max width length := by
  omega

theorem Occurrence.range_spec (width : Nat) (hnonempty : o.start < o.stop)
    (hlength : o.stop ≤ length) :
    (o.range width length).1 ≤ o.start ∧ o.stop ≤ (o.range width length).2 ∧
      (o.range width length).2 ≤ length := by
  have hrange := o.range_cases width length
  omega

/-- Both edges move forward from occurrence to occurrence, and the right one only together with the
left one. -/
theorem Occurrence.range_mono {first second : Occurrence} (hfirst : first.start < first.stop)
    (hapart : first.stop ≤ second.start) (hsecond : second.start < second.stop)
    (hlength : second.stop ≤ length) :
    (first.range width length).1 ≤ (second.range width length).1 ∧
      (first.range width length).2 ≤ (second.range width length).2 ∧
      ((first.range width length).1 = (second.range width length).1 →
        first.range width length = second.range width length) := by
  have hfirstRange := first.range_cases width length
  have hsecondRange := second.range_cases width length
  refine ⟨?_, ?_, fun hstart => Prod.ext hstart ?_⟩
  all_goals omega

/-- The occurrences wholly inside a part of the text. -/
def within (start stop : Nat) (occurrences : List Occurrence) : List Occurrence :=
  occurrences.filter fun o => start ≤ o.start && o.stop ≤ stop

/-- The window that an occurrence proposes, scored by the distinct keywords that occur wholly
inside. -/
def Occurrence.window (width length : Nat) (occurrences : List Occurrence) (o : Occurrence) :
    Window :=
  let range := o.range width length
  ⟨range.1, range.2, ((within range.1 range.2 occurrences).map (·.keyword)).toFinset.card⟩

@[simp] theorem Occurrence.start_window (width length : Nat) (occurrences : List Occurrence)
    (o : Occurrence) :
    (o.window width length occurrences).start = (o.range width length).1 := rfl

/-! ## Counters -/

namespace Counter

/-- Whether the counters count the keywords of certain occurrences. -/
structure Counts (counter : Counter) (members : List Occurrence) : Prop where
  /-- Every keyword is counted as often as it occurs. -/
  count : ∀ keyword,
    counter.counts.getD keyword 0 = (members.map (·.keyword)).count keyword
  /-- Every keyword that occurs is counted once. -/
  distinct : counter.distinct = (members.map (·.keyword)).toFinset.card

variable {counter : Counter} {members entering leaving : List Occurrence} {o : Occurrence}

theorem getD_modify {counts : List Nat} {place : Nat} (h : place < counts.length)
    (change : Nat → Nat) (keyword : Nat) :
    (counts.modify place change).getD keyword 0 =
      if place = keyword then change (counts.getD keyword 0) else counts.getD keyword 0 := by
  simp only [List.getD_eq_getElem?_getD, List.getElem?_modify]
  by_cases hplace : place = keyword
  · subst hplace
    simp [List.getElem?_eq_getElem h]
  · simp [hplace]

/-- Changes that keep the queue and the number of counters keep them one after the other. -/
theorem foldl_kept {change : Counter → Occurrence → Counter}
    (hchange : ∀ counter o, (change counter o).inside = counter.inside ∧
      (change counter o).ahead = counter.ahead ∧
      (change counter o).counts.length = counter.counts.length)
    (counter : Counter) (occurrences : List Occurrence) :
    (occurrences.foldl change counter).inside = counter.inside ∧
      (occurrences.foldl change counter).ahead = counter.ahead ∧
      (occurrences.foldl change counter).counts.length = counter.counts.length := by
  induction occurrences generalizing counter with
  | nil => exact ⟨rfl, rfl, rfl⟩
  | cons o later ih =>
      obtain ⟨hinside, hahead, hlength⟩ := hchange counter o
      obtain ⟨hinsideLater, haheadLater, hlengthLater⟩ := ih (change counter o)
      exact ⟨hinsideLater.trans hinside, haheadLater.trans hahead, hlengthLater.trans hlength⟩

theorem foldl_count_kept (counter : Counter) (entering : List Occurrence) :
    (entering.foldl count counter).inside = counter.inside ∧
      (entering.foldl count counter).ahead = counter.ahead ∧
      (entering.foldl count counter).counts.length = counter.counts.length :=
  foldl_kept (fun _ _ => by exact ⟨rfl, rfl, List.length_modify ..⟩) counter entering

theorem foldl_discount_kept (counter : Counter) (leaving : List Occurrence) :
    (leaving.foldl discount counter).inside = counter.inside ∧
      (leaving.foldl discount counter).ahead = counter.ahead ∧
      (leaving.foldl discount counter).counts.length = counter.counts.length :=
  foldl_kept (fun _ _ => by exact ⟨rfl, rfl, List.length_modify ..⟩) counter leaving

section Edges

variable (counter : Counter) (edge : Nat)

@[simp] theorem inside_enter :
    (counter.enter edge).inside = counter.inside ++ counter.ahead.takeWhile (·.stop ≤ edge) :=
  (foldl_count_kept ..).1

@[simp] theorem ahead_enter :
    (counter.enter edge).ahead = counter.ahead.dropWhile (·.stop ≤ edge) :=
  (foldl_count_kept ..).2.1

@[simp] theorem length_counts_enter :
    (counter.enter edge).counts.length = counter.counts.length :=
  (foldl_count_kept ..).2.2

@[simp] theorem inside_leave :
    (counter.leave edge).inside = counter.inside.dropWhile (·.start < edge) :=
  (foldl_discount_kept ..).1

@[simp] theorem ahead_leave : (counter.leave edge).ahead = counter.ahead :=
  (foldl_discount_kept ..).2.1

@[simp] theorem length_counts_leave :
    (counter.leave edge).counts.length = counter.counts.length :=
  (foldl_discount_kept ..).2.2

end Edges

theorem Counts.count_one (h : counter.Counts members)
    (hknown : o.keyword < counter.counts.length) : (counter.count o).Counts (members ++ [o]) := by
  refine ⟨fun keyword => ?_, ?_⟩
  · have hcount := h.count keyword
    rw [Counter.count, getD_modify hknown, hcount]
    by_cases hkeyword : o.keyword = keyword
    · simp [hkeyword]
    · simp [hkeyword]
  · have hcount := h.count o.keyword
    have hdistinct := h.distinct
    have hinsert : ((members ++ [o]).map (·.keyword)).toFinset =
        insert o.keyword (members.map (·.keyword)).toFinset := by
      ext keyword
      simp
    rw [Counter.count, hinsert]
    by_cases hnew : o.keyword ∈ members.map (·.keyword)
    · have hpositive := List.count_pos_iff.mpr hnew
      have hold : ¬ counter.counts.getD o.keyword 0 = 0 := by omega
      rw [Finset.insert_eq_of_mem (List.mem_toFinset.mpr hnew), ← hdistinct]
      exact if_neg hold
    · have hzero : counter.counts.getD o.keyword 0 = 0 :=
        hcount.trans (List.count_eq_zero.mpr hnew)
      rw [Finset.card_insert_of_notMem (fun h => hnew (List.mem_toFinset.mp h)), ← hdistinct]
      exact if_pos hzero

/-- What is counted can be discounted: no counter falls below zero. -/
theorem Counts.discount_one (h : counter.Counts (o :: members))
    (hknown : o.keyword < counter.counts.length) :
    0 < counter.counts.getD o.keyword 0 ∧ 0 < counter.distinct ∧
      (counter.discount o).Counts members := by
  have hcount := h.count o.keyword
  have hdistinct := h.distinct
  have hinsert : ((o :: members).map (·.keyword)).toFinset =
      insert o.keyword (members.map (·.keyword)).toFinset := by simp
  rw [List.map_cons, List.count_cons_self] at hcount
  rw [hinsert] at hdistinct
  refine ⟨by omega, ?_, fun keyword => ?_, ?_⟩
  · rw [hdistinct]
    exact Finset.card_pos.mpr (Finset.insert_nonempty ..)
  · have hkeywordCount := h.count keyword
    rw [discount, getD_modify hknown, hkeywordCount]
    by_cases hkeyword : o.keyword = keyword
    · simp [hkeyword]
    · simp [hkeyword]
  · rw [discount]
    by_cases hlast : o.keyword ∈ members.map (·.keyword)
    · have hpositive := List.count_pos_iff.mpr hlast
      have hmore : ¬ counter.counts.getD o.keyword 0 = 1 := by omega
      rw [Finset.insert_eq_of_mem (List.mem_toFinset.mpr hlast)] at hdistinct
      exact (if_neg hmore).trans hdistinct
    · have hnone := List.count_eq_zero.mpr hlast
      have hone : counter.counts.getD o.keyword 0 = 1 := by omega
      rw [Finset.card_insert_of_notMem (fun h => hlast (List.mem_toFinset.mp h))] at hdistinct
      refine (if_pos hone).trans ?_
      omega

theorem Counts.counted (h : counter.Counts members)
    (hknown : ∀ o ∈ entering, o.keyword < counter.counts.length) :
    (entering.foldl Counter.count counter).Counts (members ++ entering) := by
  induction entering generalizing counter members with
  | nil => simpa using h
  | cons o later ih =>
      have hone := h.count_one (hknown o (List.mem_cons_self ..))
      have hcounts := ih hone fun p hmem => by
        rw [Counter.count, List.length_modify]
        exact hknown p (List.mem_cons_of_mem _ hmem)
      rwa [List.append_assoc] at hcounts

theorem Counts.discounted (h : counter.Counts (leaving ++ members))
    (hknown : ∀ o ∈ leaving, o.keyword < counter.counts.length) :
    (leaving.foldl discount counter).Counts members := by
  induction leaving generalizing counter with
  | nil => exact h
  | cons o later ih =>
      obtain ⟨_, _, hone⟩ := h.discount_one (hknown o (List.mem_cons_self ..))
      refine ih hone fun p hmem => ?_
      rw [discount, List.length_modify]
      exact hknown p (List.mem_cons_of_mem _ hmem)

end Counter

/-! ## Moves -/

/-- A move of the window: the counter before and the edges of the new window. -/
structure Move where
  /-- The counter before. -/
  before : Counter
  /-- The new left edge. -/
  start : Nat
  /-- The new right edge. -/
  stop : Nat

namespace Move

/-- The counter once the right edge has moved. -/
def entered (move : Move) : Counter := move.before.enter move.stop

/-- The counter once both edges have moved. -/
def after (move : Move) : Counter := move.entered.leave move.start

/-- The occurrences that the right edge passes. -/
def entering (move : Move) : List Occurrence := move.before.ahead.takeWhile (·.stop ≤ move.stop)

/-- The occurrences that the left edge passes. -/
def leaving (move : Move) : List Occurrence :=
  move.entered.inside.takeWhile (·.start < move.start)

/-- The window moved to, which is passed over if no keyword is inside. -/
def window? (move : Move) : Option Window :=
  if move.after.distinct = 0 then none else some ⟨move.start, move.stop, move.after.distinct⟩

/-- Whether all counting of a move is exact: every keyword has a counter, no counter falls below
zero while occurrences leave one after the other, and some keyword is inside afterwards. -/
structure Exact (move : Move) : Prop where
  /-- The keywords that enter have counters. -/
  entering : ∀ o ∈ move.entering, o.keyword < move.before.counts.length
  /-- The counters that are lowered are positive. -/
  leaving : ∀ earlier o later, move.leaving = earlier ++ o :: later →
    let counter := earlier.foldl Counter.discount
      { move.entered with inside := move.entered.inside.dropWhile (·.start < move.start) }
    o.keyword < counter.counts.length ∧ 0 < counter.counts.getD o.keyword 0 ∧
      0 < counter.distinct
  /-- The window has a keyword. -/
  found : move.after.distinct ≠ 0

end Move

/-- The moves of a sweep: those of `candidates`, whose windows are its result. -/
def moves (width length : Nat) (counter : Counter) (previous : Option Nat) :
    List Occurrence → List Move
  | [] => []
  | o :: later =>
    let (start, stop) := o.bounds width length
    if previous = some start then moves width length counter previous later
    else
      let move : Move := ⟨counter, start, stop⟩
      move :: moves width length move.after
        (if move.after.distinct = 0 then previous else some start) later

/-- The windows of a sweep are those of its moves. -/
theorem candidates_eq_moves (width length : Nat) (counter : Counter) (previous : Option Nat)
    (occurrences : List Occurrence) :
    candidates width length counter previous occurrences =
      (moves width length counter previous occurrences).filterMap Move.window? := by
  induction occurrences generalizing counter previous with
  | nil => rfl
  | cons o later ih =>
      simp only [candidates, moves]
      by_cases hskip : previous = some (o.bounds width length).1
      · rw [if_pos hskip, if_pos hskip, ih]
      · rw [if_neg hskip, if_neg hskip, List.filterMap_cons]
        generalize o.bounds width length = edges
        obtain ⟨start, stop⟩ := edges
        by_cases hnone : (Move.mk counter start stop).after.distinct = 0
        · have hwindow : (Move.mk counter start stop).window? = none := if_pos hnone
          rw [hwindow, if_pos hnone, ← ih]
          exact if_pos hnone
        · have hwindow : (Move.mk counter start stop).window? = some ⟨start, stop, _⟩ :=
            if_neg hnone
          rw [hwindow, if_neg hnone, ← ih]
          exact if_neg hnone

/-! ## The invariant of a sweep -/

/-- Behind the first member of a sorted list that fails a condition all fail it. -/
theorem not_of_mem_dropWhile {α : Type} {condition : α → Bool} {precedes : α → α → Prop}
    (hmono : ∀ a b, precedes a b → condition b = true → condition a = true) {xs : List α}
    (hsorted : xs.Pairwise precedes) : ∀ x ∈ xs.dropWhile condition, condition x = false := by
  induction hsorted with
  | nil => exact fun _ hmem => absurd hmem List.not_mem_nil
  | @cons x later hfirst _ ih =>
      intro y hmem
      by_cases hx : condition x = true
      · rw [List.dropWhile_cons_of_pos hx] at hmem
        exact ih y hmem
      · rw [List.dropWhile_cons_of_neg hx] at hmem
        rcases List.mem_cons.mp hmem with rfl | hmem
        · exact Bool.eq_false_iff.mpr hx
        · exact Bool.eq_false_iff.mpr fun hy => hx (hmono x y (hfirst y hmem) hy)

/-- Whether a counter has come to a right edge among occurrences, some of which have left it. -/
structure Reaches (occurrences gone : List Occurrence) (stop : Nat) (counter : Counter) :
    Prop where
  /-- The occurrences are those that have left, those in the queue and those ahead. -/
  parts : occurrences = gone ++ (counter.inside ++ counter.ahead)
  /-- The edge has passed the queue. -/
  passed : ∀ o ∈ counter.inside, o.stop ≤ stop
  /-- The edge has not passed what is ahead. -/
  ahead : ∀ o ∈ counter.ahead, stop < o.stop
  /-- The keywords of the queue are counted. -/
  counts : counter.Counts counter.inside
  /-- Every keyword has a counter. -/
  known : ∀ o ∈ occurrences, o.keyword < counter.counts.length

namespace Reaches

variable {keywordCount length start stop stop' : Nat} {occurrences gone : List Occurrence}
  {counter : Counter}

theorem mem_of_inside (h : Reaches occurrences gone stop counter) {o : Occurrence}
    (hmem : o ∈ counter.inside) : o ∈ occurrences := by
  rw [h.parts]
  simp [hmem]

theorem mem_of_ahead (h : Reaches occurrences gone stop counter) {o : Occurrence}
    (hmem : o ∈ counter.ahead) : o ∈ occurrences := by
  rw [h.parts]
  simp [hmem]

/-- The right edge moves forward. -/
theorem enter (h : Reaches occurrences gone stop counter)
    (harranged : Arranged keywordCount length occurrences) (hstop : stop ≤ stop') :
    Reaches occurrences gone stop' (counter.enter stop') := by
  have hsorted : counter.ahead.Pairwise fun first second => first.stop ≤ second.stop := by
    have hahead : counter.ahead.Sublist occurrences := by
      rw [h.parts, ← List.append_assoc]
      exact List.sublist_append_right ..
    refine (harranged.apart.sublist hahead).imp_of_mem fun _ hsecond hapart => ?_
    have hnonempty := harranged.nonempty _ (h.mem_of_ahead hsecond)
    omega
  refine ⟨?_, fun o hmem => ?_, fun o hmem => ?_, ?_, fun o hmem => ?_⟩
  · rw [Counter.inside_enter, Counter.ahead_enter, List.append_assoc,
      List.takeWhile_append_dropWhile]
    exact h.parts
  · rw [Counter.inside_enter] at hmem
    rcases List.mem_append.mp hmem with hmem | hmem
    · exact Nat.le_trans (h.passed o hmem) hstop
    · have hpassed := List.mem_takeWhile_imp hmem
      simpa using hpassed
  · rw [Counter.ahead_enter] at hmem
    have hbehind := not_of_mem_dropWhile (fun first second hle hsecond => ?_) hsorted o hmem
    · exact Nat.lt_of_not_le (of_decide_eq_false hbehind)
    · exact decide_eq_true (Nat.le_trans hle (of_decide_eq_true hsecond))
  · rw [Counter.inside_enter]
    refine Counter.Counts.counted ⟨h.counts.count, h.counts.distinct⟩ fun o hmem => ?_
    exact h.known o (h.mem_of_ahead ((List.takeWhile_sublist _).mem hmem))
  · rw [Counter.length_counts_enter]
    exact h.known o hmem

/-- The left edge moves forward. -/
theorem leave (h : Reaches occurrences gone stop counter) (start : Nat) :
    Reaches occurrences (gone ++ counter.inside.takeWhile (·.start < start)) stop
      (counter.leave start) := by
  have hsplit : counter.inside.takeWhile (·.start < start) ++
      counter.inside.dropWhile (·.start < start) = counter.inside :=
    List.takeWhile_append_dropWhile
  refine ⟨?_, fun o hmem => ?_, fun o hmem => ?_, ?_, fun o hmem => ?_⟩
  · rw [Counter.inside_leave, Counter.ahead_leave, List.append_assoc, ← List.append_assoc
      (counter.inside.takeWhile _), hsplit]
    exact h.parts
  · rw [Counter.inside_leave] at hmem
    exact h.passed o ((List.dropWhile_sublist _).mem hmem)
  · rw [Counter.ahead_leave] at hmem
    exact h.ahead o hmem
  · rw [Counter.inside_leave]
    have hcounts := h.counts
    rw [← hsplit] at hcounts
    refine Counter.Counts.discounted ⟨hcounts.count, hcounts.distinct⟩ fun o hmem => ?_
    exact h.known o (h.mem_of_inside ((List.takeWhile_sublist _).mem hmem))
  · rw [Counter.length_counts_leave]
    exact h.known o hmem

/-- What is left in the queue starts at the left edge or behind it. -/
theorem le_start_of_leave (h : Reaches occurrences gone stop counter)
    (harranged : Arranged keywordCount length occurrences) {o : Occurrence}
    (hmem : o ∈ (counter.leave start).inside) : start ≤ o.start := by
  have hsorted : counter.inside.Pairwise fun first second => first.start ≤ second.start := by
    have hinside : counter.inside.Sublist occurrences := by
      rw [h.parts]
      exact (List.sublist_append_left ..).trans (List.sublist_append_right ..)
    refine (harranged.apart.sublist hinside).imp_of_mem fun hfirst _ hapart => ?_
    have hnonempty := harranged.nonempty _ (h.mem_of_inside hfirst)
    omega
  rw [Counter.inside_leave] at hmem
  have hbehind := not_of_mem_dropWhile (fun first second hle hsecond => ?_) hsorted o hmem
  · exact Nat.le_of_not_lt (of_decide_eq_false hbehind)
  · exact decide_eq_true (Nat.lt_of_le_of_lt hle (of_decide_eq_true hsecond))

/-- No counter falls below zero while occurrences leave one after the other. -/
theorem discounts (h : Reaches occurrences gone stop counter) {start : Nat}
    {earlier later : List Occurrence} {o : Occurrence}
    (hleaving : counter.inside.takeWhile (·.start < start) = earlier ++ o :: later) :
    let state := earlier.foldl Counter.discount
      { counter with inside := counter.inside.dropWhile (·.start < start) }
    o.keyword < state.counts.length ∧ 0 < state.counts.getD o.keyword 0 ∧ 0 < state.distinct := by
  intro state
  have hsplit : counter.inside =
      earlier ++ (o :: (later ++ counter.inside.dropWhile (·.start < start))) := by
    have htaken := List.takeWhile_append_dropWhile (p := (·.start < start)) (l := counter.inside)
    rw [hleaving, List.append_assoc] at htaken
    exact htaken.symm
  have hknown : ∀ p ∈ earlier ++ [o], p.keyword < counter.counts.length := by
    intro p hmem
    refine h.known p (h.mem_of_inside ?_)
    rw [hsplit]
    simp only [List.mem_append, List.mem_cons] at hmem ⊢
    tauto
  have hlength : state.counts.length = counter.counts.length :=
    (Counter.foldl_discount_kept _ earlier).2.2
  have hcounts := h.counts
  rw [hsplit] at hcounts
  have hstate : state.Counts (o :: (later ++ counter.inside.dropWhile (·.start < start))) :=
    Counter.Counts.discounted ⟨hcounts.count, hcounts.distinct⟩ fun p hmem =>
      hknown p (List.mem_append_left _ hmem)
  have ho : o.keyword < state.counts.length := by
    rw [hlength]
    exact hknown o (by simp)
  obtain ⟨hpositive, hdistinct, _⟩ := hstate.discount_one ho
  exact ⟨ho, hpositive, hdistinct⟩

end Reaches

/-- Whether a counter stands at a window among occurrences. -/
structure Sweeps (occurrences : List Occurrence) (start stop : Nat) (counter : Counter) :
    Prop where
  /-- The right edge has come here, and what has left is behind the left edge. -/
  reaches : ∃ gone, Reaches occurrences gone stop counter ∧ ∀ o ∈ gone, o.start < start
  /-- The queue is not. -/
  inside : ∀ o ∈ counter.inside, start ≤ o.start

namespace Sweeps

variable {keywordCount length width start stop start' stop' : Nat}
  {occurrences later : List Occurrence} {counter : Counter} {previous : Option Nat}

theorem initial (h : Arranged keywordCount length occurrences) :
    Sweeps occurrences 0 0 (.start keywordCount occurrences) := by
  refine ⟨⟨[], ⟨rfl, nofun, fun o hmem => ?_, ⟨fun keyword => ?_, rfl⟩, fun o hmem => ?_⟩, nofun⟩,
    nofun⟩
  · have hnonempty := h.nonempty o hmem
    omega
  · simp only [Counter.start, List.getD_eq_getElem?_getD, List.getElem?_replicate]
    split <;> rfl
  · rw [Counter.start, List.length_replicate]
    exact h.known o hmem

/-- The queue holds the occurrences wholly inside the window. -/
theorem inside_eq (h : Sweeps occurrences start stop counter) :
    counter.inside = within start stop occurrences := by
  obtain ⟨gone, hreaches, hgone⟩ := h.reaches
  have hleft : within start stop gone = [] := by
    refine List.filter_eq_nil_iff.mpr fun o hmem => ?_
    have hstart := hgone o hmem
    simp only [Bool.and_eq_true, decide_eq_true_eq]
    omega
  have hinside : within start stop counter.inside = counter.inside := by
    refine List.filter_eq_self.mpr fun o hmem => ?_
    have hstart := h.inside o hmem
    have hstop := hreaches.passed o hmem
    simp only [Bool.and_eq_true, decide_eq_true_eq]
    omega
  have hahead : within start stop counter.ahead = [] := by
    refine List.filter_eq_nil_iff.mpr fun o hmem => ?_
    have hstop := hreaches.ahead o hmem
    simp only [Bool.and_eq_true, decide_eq_true_eq]
    omega
  have hsplit : within start stop occurrences =
      within start stop gone ++
        (within start stop counter.inside ++ within start stop counter.ahead) := by
    rw [hreaches.parts, within, List.filter_append, List.filter_append]
    rfl
  rw [hsplit, hleft, hinside, hahead, List.nil_append, List.append_nil]

theorem distinct_eq (h : Sweeps occurrences start stop counter) :
    counter.distinct = ((within start stop occurrences).map (·.keyword)).toFinset.card := by
  obtain ⟨gone, hreaches, _⟩ := h.reaches
  rw [hreaches.counts.distinct, h.inside_eq]

/-- Both edges move forward to a window with an occurrence. -/
theorem move (h : Sweeps occurrences start stop counter)
    (harranged : Arranged keywordCount length occurrences) (hstart : start ≤ start')
    (hstop : stop ≤ stop') {o : Occurrence} (hmem : o ∈ occurrences) (hleft : start' ≤ o.start)
    (hright : o.stop ≤ stop') :
    Sweeps occurrences start' stop' (Move.mk counter start' stop').after ∧
      (Move.mk counter start' stop').Exact := by
  obtain ⟨gone, hreaches, hgone⟩ := h.reaches
  have hentered := hreaches.enter harranged hstop
  have hafter : Sweeps occurrences start' stop' (Move.mk counter start' stop').after := by
    refine ⟨⟨_, hentered.leave start', fun p hp => ?_⟩,
      fun p hp => hentered.le_start_of_leave harranged hp⟩
    rcases List.mem_append.mp hp with hp | hp
    · exact Nat.lt_of_lt_of_le (hgone p hp) hstart
    · have hpassed := List.mem_takeWhile_imp hp
      simpa using hpassed
  refine ⟨hafter, fun p hp => ?_, fun earlier p later hleaving => hentered.discounts hleaving, ?_⟩
  · exact hreaches.known p (hreaches.mem_of_ahead ((List.takeWhile_sublist _).mem hp))
  · have hwithin : o ∈ within start' stop' occurrences := by
      refine List.mem_filter.mpr ⟨hmem, ?_⟩
      simp only [Bool.and_eq_true, decide_eq_true_eq]
      exact ⟨hleft, hright⟩
    have hkeyword : o.keyword ∈ ((within start' stop' occurrences).map (·.keyword)).toFinset :=
      List.mem_toFinset.mpr (List.mem_map_of_mem hwithin)
    rw [hafter.distinct_eq]
    exact Finset.card_ne_zero_of_mem hkeyword

/-- The windows of later occurrences that start elsewhere than the one of an occurrence are those
other than it, and none of them starts where the window before does. -/
theorem filter_windows {o : Occurrence} (hprevious : previous = none ∨ previous = some start)
    (hstart : start ≤ (o.range width length).1) (hskip : previous ≠ some (o.range width length).1)
    (hmono : ∀ p ∈ later, (o.range width length).1 ≤ (p.range width length).1 ∧
      (o.range width length).2 ≤ (p.range width length).2 ∧
      ((o.range width length).1 = (p.range width length).1 →
        o.range width length = p.range width length)) :
    ((later.map (·.window width length occurrences)).filter
        fun window => previous != some window.start).filter
        (fun window => !(window == o.window width length occurrences)) =
      (later.map (·.window width length occurrences)).filter
        fun window => some (o.range width length).1 != some window.start := by
  rw [List.filter_filter]
  refine List.filter_congr fun window hwindow => ?_
  obtain ⟨p, hp, rfl⟩ := List.mem_map.mp hwindow
  obtain ⟨hle, _, hsame⟩ := hmono p hp
  rw [Bool.eq_iff_iff]
  simp only [Bool.and_eq_true, Bool.not_eq_true', beq_eq_false_iff_ne, bne_iff_ne, ne_eq,
    Option.some.injEq, Occurrence.start_window]
  constructor
  · rintro ⟨hother, _⟩ hequal
    refine hother ?_
    unfold Occurrence.window
    rw [hsame hequal]
  · intro hother
    refine ⟨fun hequal => hother (congrArg Window.start hequal).symm, ?_⟩
    rintro rfl
    rcases hprevious with hnone | hold
    · cases hnone
    · have hedge := Option.some.inj hold
      omega

/-- From any window on a sweep moves exactly, and proposes the windows of the occurrences that are
left, each once. -/
theorem candidates_eq (h : Sweeps occurrences start stop counter)
    (harranged : Arranged keywordCount length occurrences)
    (hprevious : previous = none ∨ previous = some start)
    (hmem : ∀ o ∈ later, o ∈ occurrences)
    (hsorted : later.Pairwise fun first second => first.stop ≤ second.start)
    (hahead : ∀ o ∈ later, start ≤ (o.range width length).1 ∧ stop ≤ (o.range width length).2) :
    (∀ move ∈ moves width length counter previous later, move.Exact) ∧
      candidates width length counter previous later =
        ((later.map (·.window width length occurrences)).filter
          fun window => previous != some window.start).eraseDups := by
  induction later generalizing start stop counter previous with
  | nil => exact ⟨nofun, rfl⟩
  | cons o later ih =>
      have ho := hmem o (List.mem_cons_self ..)
      have hnonempty := harranged.nonempty o ho
      have hlength := harranged.inside o ho
      have hlater : ∀ p ∈ later, p ∈ occurrences := fun p hp => hmem p (List.mem_cons_of_mem _ hp)
      obtain ⟨hapart, hlaterSorted⟩ := List.pairwise_cons.mp hsorted
      have hmono : ∀ p ∈ later,
          (o.range width length).1 ≤ (p.range width length).1 ∧
            (o.range width length).2 ≤ (p.range width length).2 ∧
            ((o.range width length).1 = (p.range width length).1 →
              o.range width length = p.range width length) := fun p hp =>
        Occurrence.range_mono hnonempty (hapart p hp) (harranged.nonempty p (hlater p hp))
          (harranged.inside p (hlater p hp))
      simp only [moves, candidates, Occurrence.bounds_eq_range]
      by_cases hskip : previous = some (o.range width length).1
      · -- The window has been proposed: it is the one of the occurrence before.
        obtain ⟨hexact, hcandidates⟩ := ih h hprevious hlater hlaterSorted fun p hp =>
          hahead p (List.mem_cons_of_mem _ hp)
        rw [if_pos hskip, if_pos hskip, List.map_cons, List.filter_cons_of_neg]
        · exact ⟨hexact, hcandidates⟩
        · simp [hskip, Occurrence.window]
      · obtain ⟨hleft, hright, _⟩ := Occurrence.range_spec width hnonempty hlength
        obtain ⟨hstart, hstop⟩ := hahead o (List.mem_cons_self ..)
        obtain ⟨hafter, hexact⟩ := h.move harranged hstart hstop ho hleft hright
        obtain ⟨hexacts, hcandidates⟩ := ih hafter (Or.inr rfl) hlater hlaterSorted fun p hp =>
          ⟨(hmono p hp).1, (hmono p hp).2.1⟩
        have hfound := hexact.found
        have hwindow : (⟨(o.range width length).1, (o.range width length).2,
            (Move.mk counter (o.range width length).1 (o.range width length).2).after.distinct⟩ :
            Window) = o.window width length occurrences := by
          rw [hafter.distinct_eq]
          rfl
        rw [if_neg hskip, if_neg hskip, if_neg hfound]
        refine ⟨List.forall_mem_cons.mpr ⟨hexact, hexacts⟩, ?_⟩
        rw [List.map_cons, List.filter_cons_of_pos, List.eraseDups_cons,
          filter_windows hprevious hstart hskip hmono, ← hcandidates, ← hwindow]
        · exact if_neg hfound
        · exact bne_iff_ne.mpr hskip

end Sweeps

/-- A sweep over all occurrences moves exactly and proposes the window of every occurrence, each
once and in text order. -/
theorem candidates_eq_windows {keywordCount length : Nat} {occurrences : List Occurrence}
    (h : Arranged keywordCount length occurrences) (width : Nat) :
    (∀ move ∈ moves width length (.start keywordCount occurrences) none occurrences,
        move.Exact) ∧
      candidates width length (.start keywordCount occurrences) none occurrences =
        (occurrences.map (·.window width length occurrences)).eraseDups := by
  obtain ⟨hexact, hcandidates⟩ := (Sweeps.initial h).candidates_eq h (Or.inl rfl)
    (fun _ hmem => hmem) h.apart fun _ _ => ⟨Nat.zero_le _, Nat.zero_le _⟩
  refine ⟨hexact, hcandidates.trans ?_⟩
  congr 1
  exact List.filter_eq_self.mpr fun _ _ => rfl

end RecordQuery.Snippet

import Mathlib
import RecordQuery.Proofs.Snippet.Distinct
import RecordQuery.Proofs.Snippet.Sweep

/-!
# The windows that are chosen

The windows of a snippet are what their plain definition says (`windows_eq_plain`): every occurrence
proposes the window that starts at it, the windows are ranked by their scores and then by their
starts, and are taken greedily while they do not overlap.  Since a window overlaps itself, it does
not matter how often it is proposed.
-/

namespace RecordQuery.Snippet

/-! ## Taking greedily -/

/-- Whether one of two windows ends before the other one starts. -/
def Window.Apart (first second : Window) : Prop :=
  first.stop ≤ second.start ∨ second.stop ≤ first.start
  deriving Decidable

/-- Whether a window has more keywords than another one, or as many and starts no later. -/
def Window.RanksFirst (first second : Window) : Prop :=
  second.score < first.score ∨ first.score = second.score ∧ first.start ≤ second.start
  deriving Decidable

/-- Takes windows in order, as many as a limit allows, each time passing over those that overlap the
one taken. -/
def greedily : Nat → List Window → List Window
  | 0, _ => []
  | _ + 1, [] => []
  | limit + 1, window :: later =>
    window :: greedily limit (later.filter fun other => window.Apart other)

/-- The windows of all occurrences, those with more keywords first, then the earlier ones. -/
def ranked (width length : Nat) (occurrences : List Occurrence) : List Window :=
  (occurrences.map (·.window width length occurrences)).mergeSort
    fun first second => first.RanksFirst second

/-- The windows of a snippet by their plain definition, in text order. -/
def plainWindows (width limit length : Nat) (occurrences : List Occurrence) : List Window :=
  (greedily limit (ranked width length occurrences)).mergeSort
    fun first second => first.start ≤ second.start

theorem Window.overlaps_eq (first second : Window) :
    first.overlaps second = !decide (first.Apart second) := by
  rw [Bool.eq_iff_iff, Bool.not_eq_true', decide_eq_false_iff_not, overlaps, Bool.and_eq_true,
    decide_eq_true_eq, decide_eq_true_eq]
  unfold Apart
  omega

theorem Window.precedes_eq :
    Window.precedes = fun first second : Window => decide (first.RanksFirst second) := by
  funext first second
  rw [Bool.eq_iff_iff, decide_eq_true_eq]
  simp [precedes, RanksFirst]

theorem Window.apart_comm {first second : Window} : first.Apart second ↔ second.Apart first :=
  Or.comm

theorem Window.not_apart_self {window : Window} (h : window.start < window.stop) :
    ¬ window.Apart window := by
  unfold Apart
  omega

/-- Choosing goes on greedily with the windows that overlap none of those chosen. -/
theorem choose_eq_greedily {limit : Nat} {chosen : List Window} (h : chosen.length ≤ limit)
    (offered : List Window) :
    choose limit chosen offered =
      chosen ++ greedily (limit - chosen.length)
        (offered.filter fun window => !chosen.any window.overlaps) := by
  induction offered generalizing chosen with
  | nil => cases limit - chosen.length <;> simp [choose, greedily]
  | cons window later ih =>
      rw [choose]
      by_cases hfull : chosen.length = limit
      · rw [if_pos hfull, hfull, Nat.sub_self, greedily, List.append_nil]
      · rw [if_neg hfull]
        by_cases hoverlaps : chosen.any window.overlaps = true
        · rw [if_pos hoverlaps, ih h, List.filter_cons_of_neg (by simpa using hoverlaps)]
        · have hroom : limit - chosen.length = limit - (chosen ++ [window]).length + 1 := by
            rw [List.length_append, List.length_singleton]
            omega
          have hfits : (chosen ++ [window]).length ≤ limit := by
            rw [List.length_append, List.length_singleton]
            omega
          -- To be apart from the chosen windows is to be apart from this one and those before it.
          have hothers : later.filter (fun other => !(chosen ++ [window]).any other.overlaps) =
              (later.filter fun other => !chosen.any other.overlaps).filter
                fun other => window.Apart other := by
            rw [List.filter_filter]
            refine List.filter_congr fun other _ => ?_
            rw [List.any_append, List.any_cons, List.any_nil, Bool.or_false, Bool.not_or,
              Window.overlaps_eq other window, Bool.not_not, Bool.and_comm,
              decide_eq_decide.mpr Window.apart_comm]
          rw [if_neg hoverlaps, ih hfits, List.filter_cons_of_pos (by simpa using hoverlaps), hroom,
            greedily, hothers, List.append_assoc]
          rfl

/-- It does not matter how often a window is offered that overlaps itself. -/
theorem greedily_eraseDups {limit : Nat} {offered : List Window}
    (h : ∀ window ∈ offered, ¬ window.Apart window) :
    greedily limit offered.eraseDups = greedily limit offered := by
  induction limit generalizing offered with
  | zero => rfl
  | succ limit ih =>
      cases offered with
      | nil => rfl
      | cons window later =>
          have hself := h window (List.mem_cons_self ..)
          have hothers : (later.filter fun other => !(other == window)).filter
                (fun other => window.Apart other) =
              later.filter fun other => window.Apart other := by
            rw [List.filter_filter]
            refine List.filter_congr fun other _ => ?_
            by_cases hother : other = window
            · simp [hother, hself]
            · simp [hother]
          rw [List.eraseDups_cons, greedily, greedily, filter_eraseDups, hothers, ih]
          exact fun other hmem => h other (List.mem_cons_of_mem _ (List.mem_of_mem_filter hmem))

/-! ## What is taken -/

theorem greedily_sublist (limit : Nat) (offered : List Window) :
    (greedily limit offered).Sublist offered := by
  induction limit generalizing offered with
  | zero => exact List.nil_sublist _
  | succ limit ih =>
      cases offered with
      | nil => exact List.Sublist.refl _
      | cons window later => exact ((ih _).trans List.filter_sublist).cons_cons window

theorem length_greedily_le (limit : Nat) (offered : List Window) :
    (greedily limit offered).length ≤ limit := by
  induction limit generalizing offered with
  | zero => exact Nat.le_refl 0
  | succ limit ih =>
      cases offered with
      | nil => exact Nat.zero_le _
      | cons window later => exact Nat.succ_le_succ (ih _)

/-- No two of the windows that are taken overlap. -/
theorem pairwise_greedily (limit : Nat) (offered : List Window) :
    (greedily limit offered).Pairwise Window.Apart := by
  induction limit generalizing offered with
  | zero => exact .nil
  | succ limit ih =>
      cases offered with
      | nil => exact .nil
      | cons window later =>
          refine List.pairwise_cons.mpr ⟨fun other hmem => ?_, ih _⟩
          have hkept := List.of_mem_filter ((greedily_sublist ..).mem hmem)
          exact of_decide_eq_true hkept

theorem greedily_ne_nil {limit : Nat} {offered : List Window} (hlimit : 0 < limit)
    (hoffered : offered ≠ []) : greedily limit offered ≠ [] := by
  obtain ⟨limit, rfl⟩ := Nat.exists_eq_succ_of_ne_zero (Nat.ne_of_gt hlimit)
  obtain ⟨window, later, rfl⟩ := List.exists_cons_of_ne_nil hoffered
  exact List.cons_ne_nil _ _

/-! ## Ranking -/

theorem pairwise_byRank (windows : List Window) :
    (windows.mergeSort fun first second => first.RanksFirst second).Pairwise
      Window.RanksFirst := by
  have hsorted : (windows.mergeSort fun first second => first.RanksFirst second).Pairwise
      fun first second => decide (first.RanksFirst second) = true := by
    refine List.pairwise_mergeSort (fun first second third h h' => ?_) (fun first second => ?_) _
    · simp only [decide_eq_true_eq] at h h' ⊢
      unfold Window.RanksFirst at h h' ⊢
      omega
    · simp only [Bool.or_eq_true, decide_eq_true_eq]
      unfold Window.RanksFirst
      omega
  exact hsorted.imp of_decide_eq_true

theorem pairwise_byStart (windows : List Window) :
    (windows.mergeSort fun first second => first.start ≤ second.start).Pairwise
      fun first second => first.start ≤ second.start := by
  have hsorted : (windows.mergeSort fun first second => first.start ≤ second.start).Pairwise
      fun first second => decide (first.start ≤ second.start) = true := by
    refine List.pairwise_mergeSort (fun first second third h h' => ?_) (fun first second => ?_) _
    · simp only [decide_eq_true_eq] at h h' ⊢
      omega
    · simp only [Bool.or_eq_true, decide_eq_true_eq]
      omega
  exact hsorted.imp of_decide_eq_true

theorem mem_ranked {width length : Nat} {occurrences : List Occurrence} {window : Window} :
    window ∈ ranked width length occurrences ↔
      ∃ o ∈ occurrences, o.window width length occurrences = window := by
  rw [ranked, (List.mergeSort_perm ..).mem_iff, List.mem_map]

section Arranged

variable {keywordCount length : Nat} {occurrences : List Occurrence}
  (h : Arranged keywordCount length occurrences) (width limit : Nat)

include h

/-- Windows of occurrences that start at one place are the same. -/
theorem Arranged.window_eq {o p : Occurrence} (ho : o ∈ occurrences) (hp : p ∈ occurrences)
    (hstart : (o.window width length occurrences).start =
      (p.window width length occurrences).start) :
    o.window width length occurrences = p.window width length occurrences := by
  have hapart : occurrences.Pairwise fun first second =>
      (first.range width length).1 = (second.range width length).1 →
        first.range width length = second.range width length := by
    refine h.apart.imp_of_mem fun hfirst hsecond hapart => ?_
    exact (Occurrence.range_mono (h.nonempty _ hfirst) hapart (h.nonempty _ hsecond)
      (h.inside _ hsecond)).2.2
  have hall := List.Pairwise.forall_of_forall_of_flip (fun _ _ _ => rfl) hapart
    (hapart.imp fun hsame hstart => (hsame hstart.symm).symm)
  unfold Occurrence.window
  rw [hall ho hp hstart]

/-- An occurrence lies inside its window, and that inside the text. -/
theorem Arranged.window_spec {o : Occurrence} (ho : o ∈ occurrences) :
    (o.window width length occurrences).start ≤ o.start ∧
      o.stop ≤ (o.window width length occurrences).stop ∧
      (o.window width length occurrences).start < (o.window width length occurrences).stop ∧
      (o.window width length occurrences).stop ≤ length := by
  have hnonempty := h.nonempty o ho
  have hrange := Occurrence.range_spec width hnonempty (h.inside o ho)
  unfold Occurrence.window
  simp only
  omega

/-- Windows are ranked the same if each is proposed once. -/
theorem Arranged.ranked_eraseDups :
    (occurrences.map (·.window width length occurrences)).eraseDups.mergeSort Window.precedes =
      (ranked width length occurrences).eraseDups := by
  rw [Window.precedes_eq]
  refine List.Perm.eq_of_pairwise (fun first second hfirst hsecond hle hge => ?_)
    (pairwise_byRank _) ((pairwise_byRank _).sublist (eraseDups_sublist _)) ?_
  · have hproposed := List.mem_eraseDups.mp ((List.mergeSort_perm ..).mem_iff.mp hfirst)
    obtain ⟨o, ho, rfl⟩ := List.mem_map.mp hproposed
    obtain ⟨p, hp, rfl⟩ := mem_ranked.mp (List.mem_eraseDups.mp hsecond)
    unfold Window.RanksFirst at hle hge
    exact h.window_eq width ho hp (by omega)
  · refine (List.perm_ext_iff_of_nodup ?_ (nodup_eraseDups _)).mpr fun window => ?_
    · exact (List.mergeSort_perm ..).nodup_iff.mpr (nodup_eraseDups _)
    · rw [(List.mergeSort_perm ..).mem_iff, List.mem_eraseDups, List.mem_eraseDups, mem_ranked,
        List.mem_map]

/-- The sweep and the choice among its windows agree with the plain definition. -/
theorem windows_eq_plain :
    windows width limit keywordCount length occurrences =
      plainWindows width limit length occurrences := by
  have hoverlaps : ∀ window ∈ ranked width length occurrences, ¬ window.Apart window := by
    intro window hmem
    obtain ⟨o, ho, rfl⟩ := mem_ranked.mp hmem
    exact Window.not_apart_self (h.window_spec width ho).2.2.1
  have hall (offered : List Window) :
      offered.filter (fun window => !([] : List Window).any window.overlaps) = offered :=
    List.filter_eq_self.mpr fun _ _ => rfl
  rw [windows, plainWindows, (candidates_eq_windows h width).2,
    choose_eq_greedily (Nat.zero_le limit), List.nil_append, hall, h.ranked_eraseDups,
    List.length_nil, Nat.sub_zero, greedily_eraseDups hoverlaps]

/-! ## The chosen windows -/

theorem windows_perm :
    (windows width limit keywordCount length occurrences).Perm
      (greedily limit (ranked width length occurrences)) := by
  rw [windows_eq_plain h]
  exact List.mergeSort_perm ..

theorem exists_of_mem_windows {window : Window}
    (hmem : window ∈ windows width limit keywordCount length occurrences) :
    ∃ o ∈ occurrences, window = o.window width length occurrences := by
  have hranked := (greedily_sublist ..).mem ((windows_perm h width limit).mem_iff.mp hmem)
  obtain ⟨o, ho, hwindow⟩ := mem_ranked.mp hranked
  exact ⟨o, ho, hwindow.symm⟩

theorem length_windows_le :
    (windows width limit keywordCount length occurrences).length ≤ limit := by
  rw [(windows_perm h width limit).length_eq]
  exact length_greedily_le ..

/-- Every chosen window ends before the next one starts. -/
theorem pairwise_windows :
    (windows width limit keywordCount length occurrences).Pairwise fun first second =>
      first.stop ≤ second.start := by
  have hsorted : (windows width limit keywordCount length occurrences).Pairwise
      fun first second => first.start ≤ second.start := pairwise_byStart _
  have hapart : (windows width limit keywordCount length occurrences).Pairwise Window.Apart :=
    ((windows_perm h width limit).pairwise_iff Window.apart_comm.mp).mpr (pairwise_greedily ..)
  refine (hsorted.and hapart).imp_of_mem fun hfirst hsecond hboth => ?_
  obtain ⟨o, ho, rfl⟩ := exists_of_mem_windows h width limit hfirst
  obtain ⟨p, hp, rfl⟩ := exists_of_mem_windows h width limit hsecond
  have hfirstSpec := h.window_spec width ho
  have hsecondSpec := h.window_spec width hp
  obtain ⟨hstart, hno⟩ := hboth
  unfold Window.Apart at hno
  omega

/-- Some window is chosen if there is an occurrence and room for one. -/
theorem windows_ne_nil (hlimit : 0 < limit) (hfound : occurrences ≠ []) :
    windows width limit keywordCount length occurrences ≠ [] := by
  have hranked : ranked width length occurrences ≠ [] := by
    obtain ⟨o, later, rfl⟩ := List.exists_cons_of_ne_nil hfound
    exact List.ne_nil_of_mem (mem_ranked.mpr ⟨o, List.mem_cons_self .., rfl⟩)
  intro hnil
  have hperm := windows_perm h width limit
  rw [hnil] at hperm
  exact greedily_ne_nil hlimit hranked (List.nil_perm.mp hperm)

theorem windows_eq_nil_iff (hlimit : 0 < limit) :
    windows width limit keywordCount length occurrences = [] ↔ occurrences = [] := by
  refine ⟨fun hnil => ?_, fun hnil => List.eq_nil_iff_forall_not_mem.mpr fun window hmem => ?_⟩
  · by_contra hfound
    exact windows_ne_nil h width limit hlimit hfound hnil
  · obtain ⟨o, ho, _⟩ := exists_of_mem_windows h width limit hmem
    exact List.ne_nil_of_mem ho hnil

end Arranged

/-! ## Windows of a snippet -/

/-- The windows of a snippet are those of their plain definition, and there is one if a keyword
occurs.  The sweep that finds them counts exactly, so it passes over no window for want of keywords,
and computes no edge beyond the width and the length of the text. -/
theorem windows_plain {keywords : List String} {tags : List Tag} {options : Options}
    {snippet : Snippet} (hmake : make keywords tags options = .ok snippet) (source : String) :
    let text := source.toList
    let found := occurrences snippet.keywords (normalized options text)
    let counter := Counter.start snippet.keywords.length found
    let chosen :=
      windows options.width options.maxResults snippet.keywords.length text.length found
    chosen = plainWindows options.width options.maxResults text.length found ∧
      (found ≠ [] → chosen ≠ []) ∧
      candidates options.width text.length counter none found =
        (moves options.width text.length counter none found).filterMap Move.window? ∧
      (∀ move ∈ moves options.width text.length counter none found, move.Exact) ∧
      ∀ o ∈ found, min o.start (text.length - options.width) + options.width ≤
        max options.width text.length := by
  intro text found counter chosen
  obtain ⟨_, _, _, _, hlimit, hkeywords⟩ := make_eq_ok hmake
  have harranged : Arranged snippet.keywords.length text.length found := by
    rw [← length_normalized options text]
    exact arranged_occurrences fun keyword hmem => ((hkeywords keyword).mp hmem).1
  exact ⟨windows_eq_plain harranged _ _, windows_ne_nil harranged _ _ hlimit,
    candidates_eq_moves .., (candidates_eq_windows harranged _).1,
    fun o _ => o.start_add_width_le ..⟩

/-- The window with two keywords keeps out the one that overlaps it, a keyword that is longer than the
width has a window of its own size, and the last window is moved left. -/
theorem windows_plain_mixed :
    let options : Options := { width := 4, maxResults := 4 }
    let snippet : Snippet := ⟨["a", "b", "keyword"].map String.toList, [⟨"<", ">"⟩], options⟩
    let text := "a....a.b...keyword.....b"
    let found := occurrences snippet.keywords (normalized options text.toList)
    make ["A", "b", "", "Keyword"] [⟨"<", ">"⟩] options = .ok snippet ∧
      found = [⟨0, 1, 0⟩, ⟨5, 6, 0⟩, ⟨7, 8, 1⟩, ⟨11, 18, 2⟩, ⟨23, 24, 1⟩] ∧
      windows 4 4 3 24 found = [⟨0, 4, 1⟩, ⟨5, 9, 2⟩, ⟨11, 18, 1⟩, ⟨20, 24, 1⟩] := by
  intro options snippet text found
  have hmake : make ["A", "b", "", "Keyword"] [⟨"<", ">"⟩] options = .ok snippet := by
    decide +kernel
  have hlength : text.toList.length = 24 := by decide +kernel
  have hplain := (windows_plain hmake text).1
  have hwindows : found.map (·.window 4 24 found) =
      [⟨0, 4, 1⟩, ⟨5, 9, 2⟩, ⟨7, 11, 1⟩, ⟨11, 18, 1⟩, ⟨20, 24, 1⟩] := by decide +kernel
  rw [hlength, plainWindows, ranked, hwindows] at hplain
  refine ⟨hmake, by decide +kernel, hplain.trans ?_⟩
  cbv

end RecordQuery.Snippet

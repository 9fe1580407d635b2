import Mathlib.Data.List.Infix
import RecordQuery.Proofs.Except
import RecordQuery.Proofs.Snippet.Distinct

/-!
# The occurrences that are found

The search takes at every place the longest keyword that the rest of the text starts with
(`keyword_of_longestMatch`), and goes on behind it.  So what it finds are runs of the text that are
keywords (`Occurrence.Marks`), in text order and apart from each other (`Arranged`), and it finds
none exactly if no keyword occurs in the text (`occurrences_eq_nil_iff`).
-/

namespace RecordQuery.Snippet

variable {keywords : List (List Char)} {text : List Char}

/-! ## Matches at one place -/

theorem longer_cases (best : Option (Nat × Nat)) (index length : Nat) :
    longer best index length = some (index, length) ∨
      (longer best index length = best ∧ best ≠ none) := by
  unfold longer
  split
  · exact Or.inl rfl
  · split
    · exact Or.inl rfl
    · exact Or.inr ⟨rfl, nofun⟩

/-- The match that is taken is a keyword that the text starts with, unless an earlier one is. -/
theorem keyword_of_longestMatch {best : Option (Nat × Nat)} {index found length : Nat}
    (h : longestMatch text best index keywords = some (found, length)) :
    best = some (found, length) ∨ ∃ place keyword, keywords[place]? = some keyword ∧
      found = index + place ∧ keyword.length = length ∧ keyword <+: text := by
  induction keywords generalizing best index with
  | nil => exact Or.inl h
  | cons first later ih =>
      have hstep : ∀ {best : Option (Nat × Nat)},
          longestMatch text best (index + 1) later = some (found, length) →
          best = some (found, length) ∨ ∃ place keyword, (first :: later)[place]? = some keyword ∧
            found = index + place ∧ keyword.length = length ∧ keyword <+: text := by
        intro best hbest
        rcases ih hbest with hbest | ⟨place, keyword, hkeyword, hfound, hmatch⟩
        · exact Or.inl hbest
        · exact Or.inr ⟨place + 1, keyword, hkeyword, by omega, hmatch⟩
      rw [longestMatch] at h
      by_cases hprefix : first.isPrefixOf text = true
      · rw [if_pos hprefix] at h
        have hmatch : first <+: text := List.isPrefixOf_iff_prefix.mp hprefix
        rcases hstep h with hlonger | hlater
        · rcases longer_cases best index first.length with hfirst | ⟨hbest, _⟩
          · cases hfirst.symm.trans hlonger
            exact Or.inr ⟨0, first, rfl, rfl, rfl, hmatch⟩
          · exact Or.inl (hbest.symm.trans hlonger)
        · exact Or.inr hlater
      · rw [if_neg hprefix] at h
        exact hstep h

/-- There is no match just if the text starts with none of the keywords. -/
theorem longestMatch_eq_none_iff {best : Option (Nat × Nat)} {index : Nat} :
    longestMatch text best index keywords = none ↔
      best = none ∧ ∀ keyword ∈ keywords, ¬ keyword <+: text := by
  induction keywords generalizing best index with
  | nil => simp [longestMatch]
  | cons first later ih =>
      rw [longestMatch]
      by_cases hprefix : first.isPrefixOf text = true
      · have hmatch : first <+: text := List.isPrefixOf_iff_prefix.mp hprefix
        have hlonger : longer best index first.length ≠ none := by
          rcases longer_cases best index first.length with hfirst | ⟨hbest, hne⟩
          · rw [hfirst]
            exact nofun
          · rwa [hbest]
        rw [if_pos hprefix, ih]
        simp [hlonger, hmatch]
      · have hmatch : ¬ first <+: text := fun h => hprefix (List.isPrefixOf_iff_prefix.mpr h)
        rw [if_neg hprefix, ih]
        simp [hmatch]

/-! ## Found occurrences -/

/-- Whether an occurrence is a run of a text that is its keyword; the first character of the text
has an offset. -/
def Occurrence.Marks (keywords : List (List Char)) (offset : Nat) (text : List Char)
    (o : Occurrence) : Prop :=
  ∃ before keyword after, text = before ++ (keyword ++ after) ∧
    keywords[o.keyword]? = some keyword ∧ o.start = offset + before.length ∧
    o.stop = o.start + keyword.length

theorem Occurrence.Marks.cons {offset : Nat} {o : Occurrence} (c : Char)
    (h : o.Marks keywords (offset + 1) text) : o.Marks keywords offset (c :: text) := by
  obtain ⟨before, keyword, after, rfl, hkeyword, hstart, hstop⟩ := h
  refine ⟨c :: before, keyword, after, rfl, hkeyword, ?_, hstop⟩
  rw [hstart, List.length_cons]
  omega

/-- What is found marks keywords behind the characters that belong to an earlier occurrence. -/
theorem marks_occurrencesFrom {offset skip : Nat} :
    ∀ o ∈ occurrencesFrom keywords offset skip text,
      o.Marks keywords offset text ∧ offset + skip ≤ o.start := by
  induction text generalizing offset skip with
  | nil => exact fun _ hmem => absurd hmem List.not_mem_nil
  | cons c rest ih =>
      intro o hmem
      cases skip with
      | succ skip =>
          obtain ⟨hmarks, hstart⟩ := ih o hmem
          exact ⟨hmarks.cons c, by omega⟩
      | zero =>
          simp only [occurrencesFrom] at hmem
          split at hmem
          · rename_i found length hmatch
            rcases List.mem_cons.mp hmem with rfl | hmem
            · obtain hnone | ⟨place, keyword, hkeyword, hfound, hlength, after, hafter⟩ :=
                keyword_of_longestMatch hmatch
              · cases hnone
              · refine ⟨⟨[], keyword, after, hafter.symm, ?_, rfl, ?_⟩, Nat.le_refl _⟩
                · rwa [hfound, Nat.zero_add]
                · rw [hlength]
            · obtain ⟨hmarks, hstart⟩ := ih o hmem
              exact ⟨hmarks.cons c, by omega⟩
          · obtain ⟨hmarks, hstart⟩ := ih o hmem
            exact ⟨hmarks.cons c, by omega⟩

/-- No two occurrences share a character. -/
theorem pairwise_occurrencesFrom (hkeywords : ∀ keyword ∈ keywords, keyword ≠ [])
    {offset skip : Nat} :
    (occurrencesFrom keywords offset skip text).Pairwise fun first second =>
      first.stop ≤ second.start := by
  induction text generalizing offset skip with
  | nil => exact .nil
  | cons c rest ih =>
      cases skip with
      | succ skip => exact ih
      | zero =>
          simp only [occurrencesFrom]
          split
          · rename_i found length hmatch
            refine List.pairwise_cons.mpr ⟨fun o hmem => ?_, ih⟩
            obtain hnone | ⟨place, keyword, hkeyword, _, hlength, _⟩ :=
              keyword_of_longestMatch hmatch
            · cases hnone
            · have hnonempty : 0 < keyword.length :=
                List.length_pos_iff.mpr (hkeywords _ (List.mem_of_getElem? hkeyword))
              have hstart := (marks_occurrencesFrom o hmem).2
              show offset + length ≤ o.start
              omega
          · exact ih

/-- Nothing is found just if no keyword occurs. -/
theorem occurrencesFrom_eq_nil_iff (hkeywords : ∀ keyword ∈ keywords, keyword ≠ [])
    {offset : Nat} :
    occurrencesFrom keywords offset 0 text = [] ↔
      ∀ keyword ∈ keywords, ¬ keyword <:+: text := by
  induction text generalizing offset with
  | nil =>
      constructor
      · intro _ keyword hmem hinfix
        exact hkeywords keyword hmem (List.infix_nil.mp hinfix)
      · exact fun _ => rfl
  | cons c rest ih =>
      simp only [occurrencesFrom, List.infix_cons_iff, not_or]
      split
      · rename_i found length hmatch
        constructor
        · exact nofun
        · intro hnone
          obtain hbest | ⟨place, keyword, hkeyword, _, _, hprefix⟩ :=
            keyword_of_longestMatch hmatch
          · cases hbest
          · exact absurd hprefix (hnone keyword (List.mem_of_getElem? hkeyword)).1
      · rename_i hmatch
        obtain ⟨_, hnone⟩ := longestMatch_eq_none_iff.mp hmatch
        rw [ih]
        exact ⟨fun h keyword hmem => ⟨hnone keyword hmem, h keyword hmem⟩,
          fun h keyword hmem => (h keyword hmem).2⟩

/-! ## Occurrences of a whole text -/

/-- Occurrences in text order that share no characters, in a text of a length and of as many
keywords. -/
structure Arranged (keywordCount length : Nat) (occurrences : List Occurrence) : Prop where
  /-- No occurrence is empty. -/
  nonempty : ∀ o ∈ occurrences, o.start < o.stop
  /-- Every occurrence ends before the next one starts. -/
  apart : occurrences.Pairwise fun first second => first.stop ≤ second.start
  /-- Every occurrence ends with the text at the latest. -/
  inside : ∀ o ∈ occurrences, o.stop ≤ length
  /-- Every occurrence is one of a keyword. -/
  known : ∀ o ∈ occurrences, o.keyword < keywordCount

theorem arranged_occurrences (hkeywords : ∀ keyword ∈ keywords, keyword ≠ []) :
    Arranged keywords.length text.length (occurrences keywords text) := by
  have hmarks : ∀ o ∈ occurrences keywords text, o.Marks keywords 0 text :=
    fun o hmem => (marks_occurrencesFrom o hmem).1
  refine ⟨fun o hmem => ?_, pairwise_occurrencesFrom hkeywords, fun o hmem => ?_,
    fun o hmem => ?_⟩
  · obtain ⟨before, keyword, after, _, hkeyword, _, hstop⟩ := hmarks o hmem
    have hnonempty : 0 < keyword.length :=
      List.length_pos_iff.mpr (hkeywords _ (List.mem_of_getElem? hkeyword))
    omega
  · obtain ⟨before, keyword, after, htext, _, hstart, hstop⟩ := hmarks o hmem
    rw [hstop, hstart, htext, List.length_append, List.length_append]
    omega
  · obtain ⟨before, keyword, after, _, hkeyword, _, _⟩ := hmarks o hmem
    exact (List.getElem?_eq_some_iff.mp hkeyword).1

theorem occurrences_eq_nil_iff (hkeywords : ∀ keyword ∈ keywords, keyword ≠ []) :
    occurrences keywords text = [] ↔ ∀ keyword ∈ keywords, ¬ keyword <:+: text :=
  occurrencesFrom_eq_nil_iff hkeywords

theorem Occurrence.Marks.slice_eq {o : Occurrence} (h : o.Marks keywords 0 text) :
    keywords[o.keyword]? = some (slice text o.start o.stop) := by
  obtain ⟨before, keyword, after, rfl, hkeyword, hstart, hstop⟩ := h
  have hslice : slice (before ++ (keyword ++ after)) o.start o.stop = keyword := by
    rw [hstop, hstart, Nat.zero_add, slice, List.drop_left, Nat.add_sub_cancel_left,
      List.take_left]
  rw [hslice, hkeyword]

/-! ## Snippets -/

theorem mem_distinct_searched {keywords : List String} {options : Options}
    {searched : List Char} :
    searched ∈ distinct ((keywords.map fun keyword => normalized options keyword.toList).filter
        fun keyword => !keyword.isEmpty) ↔
      searched ≠ [] ∧ ∃ keyword ∈ keywords, normalized options keyword.toList = searched := by
  simp only [distinct_eq_eraseDups, List.mem_eraseDups, List.mem_filter, List.mem_map]
  simp [and_comm]

/-- A snippet has the tags and options that it is made with, room for a fragment, and the keywords
as they are searched for, but the empty ones. -/
theorem make_eq_ok {keywords : List String} {tags : List Tag} {options : Options}
    {snippet : Snippet} (h : make keywords tags options = .ok snippet) :
    snippet.tags = tags ∧ tags ≠ [] ∧ snippet.options = options ∧ 0 < options.width ∧
      0 < options.maxResults ∧ ∀ searched, searched ∈ snippet.keywords ↔
        searched ≠ [] ∧ ∃ keyword ∈ keywords, normalized options keyword.toList = searched := by
  unfold make at h
  split at h
  · cases h
  · rename_i htags
    obtain ⟨_, hcheck, rfl⟩ := exists_of_map_eq_ok h
    unfold Options.check at hcheck
    split at hcheck
    · cases hcheck
    · split at hcheck
      · cases hcheck
      · exact ⟨rfl, by simpa using htags, rfl, by omega, by omega,
          fun searched => mem_distinct_searched⟩

@[simp] theorem length_normalized (options : Options) (text : List Char) :
    (normalized options text).length = text.length := by
  unfold normalized
  split
  · exact List.length_map _
  · rfl

end RecordQuery.Snippet

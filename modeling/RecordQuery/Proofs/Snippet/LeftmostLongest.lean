import RecordQuery.Proofs.Snippet.KeywordSets

/-!
# Leftmost and longest occurrences

The search jumps over what it has matched, so a keyword can stand in the text without being found:
behind a longer one that starts at the same place, or inside one that starts earlier.  These are the
only ways (`occurrencesFrom_covers`): a place that the search looks at is where the longest keyword
is taken that matches there, and a place that it jumps over is inside what was taken last.

So the occurrences of a text are in order and apart, each the longest that matches where it starts,
and every match of a keyword is accounted for by one of them (`occurrences_leftmostLongest`).
-/

namespace RecordQuery.Snippet

variable {keywords : List (List Char)} {text : List Char}

/-- What becomes of a match of a keyword with an index and a length. -/
inductive Accounted (found : List Occurrence) (place index length : Nat) : Prop
  /-- It is found. -/
  | found : ⟨place, place + length, index⟩ ∈ found → Accounted found place index length
  /-- A longer one is found at its place. -/
  | longer {o : Occurrence} :
      o ∈ found → o.start = place → length < o.stop - o.start → Accounted found place index length
  /-- It starts inside of one that is found. -/
  | inside {o : Occurrence} :
      o ∈ found → o.start < place → place < o.stop → Accounted found place index length

/-- The occurrences are what a search from left to right for the longest match at each place should
find. -/
structure LeftmostLongest (keywords : List (List Char)) (text : List Char)
    (found : List Occurrence) : Prop where
  /-- They are in the order of their starts. -/
  ordered : found.Pairwise fun first second => first.start < second.start
  /-- No two of them share a character. -/
  apart : found.Pairwise fun first second => first.stop ≤ second.start
  /-- They are in the text. -/
  within : ∀ o ∈ found, o.start < o.stop ∧ o.stop ≤ text.length
  /-- Their characters are those of their keywords. -/
  marks : ∀ o ∈ found, keywords[o.keyword]? = some (slice text o.start o.stop)
  /-- No longer keyword matches where one of them starts. -/
  longest : ∀ o ∈ found, ∀ keyword ∈ keywords, keyword <+: text.drop o.start →
    keyword.length ≤ o.stop - o.start
  /-- Every match of a keyword is accounted for. -/
  complete : ∀ place index keyword, keywords[index]? = some keyword →
    keyword <+: text.drop place → Accounted found place index keyword.length

/-! ## The search -/

/-- An occurrence is the longest match at its place. -/
theorem longest_occurrencesFrom {offset skip : Nat} :
    ∀ o ∈ occurrencesFrom keywords offset skip text, ∀ keyword ∈ keywords,
      keyword <+: text.drop (o.start - offset) → keyword.length ≤ o.stop - o.start := by
  induction text generalizing offset skip with
  | nil => exact fun _ hmem => absurd hmem List.not_mem_nil
  | cons c rest ih =>
      -- Behind the first character the same place is one closer.
      have hlater {skip : Nat} : ∀ o ∈ occurrencesFrom keywords (offset + 1) skip rest,
          ∀ keyword ∈ keywords, keyword <+: (c :: rest).drop (o.start - offset) →
            keyword.length ≤ o.stop - o.start := by
        intro o hmem keyword hkeyword hstands
        have hstart := (marks_occurrencesFrom o hmem).2
        have hplace : o.start - offset = (o.start - (offset + 1)) + 1 := by omega
        rw [hplace, List.drop_succ_cons] at hstands
        exact ih o hmem keyword hkeyword hstands
      cases skip with
      | succ skip => exact hlater
      | zero =>
          intro o hmem
          simp only [occurrencesFrom] at hmem
          split at hmem
          · rename_i found length hmatch
            rcases List.mem_cons.mp hmem with rfl | hmem
            · intro keyword hkeyword hstands
              simp only [Nat.sub_self, List.drop_zero] at hstands
              have hle := (le_of_longestMatch hmatch).2 keyword hkeyword hstands
              simpa using hle
            · exact hlater o hmem
          · exact hlater o hmem

/-- A keyword that matches behind the skipped characters starts where an occurrence starts that is
as long at least, or inside of one. -/
theorem occurrencesFrom_covers (hkeywords : ∀ keyword ∈ keywords, keyword ≠ [])
    {keyword : List Char} (hkeyword : keyword ∈ keywords) (offset : Nat) {skip place : Nat}
    (hskip : skip ≤ place) (hstands : keyword <+: text.drop place) :
    ∃ o ∈ occurrencesFrom keywords offset skip text,
      (o.start = offset + place ∧ keyword.length ≤ o.stop - o.start) ∨
        (o.start < offset + place ∧ offset + place < o.stop) := by
  induction text generalizing offset skip place with
  | nil =>
      rw [List.drop_nil] at hstands
      exact absurd (List.prefix_nil.mp hstands) (hkeywords keyword hkeyword)
  | cons c rest ih =>
      have hlater (skip place : Nat) (hskip : skip ≤ place)
          (hstands : keyword <+: (c :: rest).drop (place + 1)) :
          ∃ o ∈ occurrencesFrom keywords (offset + 1) skip rest,
            (o.start = offset + (place + 1) ∧ keyword.length ≤ o.stop - o.start) ∨
              (o.start < offset + (place + 1) ∧ offset + (place + 1) < o.stop) := by
        have hplace : offset + 1 + place = offset + (place + 1) := by omega
        rw [List.drop_succ_cons] at hstands
        rw [← hplace]
        exact ih (offset + 1) hskip hstands
      cases skip with
      | succ skip =>
          obtain ⟨place, rfl⟩ := Nat.exists_eq_add_of_le' hskip
          exact hlater skip (place + skip) (Nat.le_add_left ..) hstands
      | zero =>
          simp only [occurrencesFrom]
          split
          · rename_i found length hmatch
            cases place with
            | zero =>
                -- The search looks at this place and takes the longest match.
                have hle := (le_of_longestMatch hmatch).2 keyword hkeyword hstands
                exact ⟨_, List.mem_cons_self .., .inl ⟨rfl, by simpa using hle⟩⟩
            | succ place =>
                by_cases hinside : place + 1 < length
                · exact ⟨_, List.mem_cons_self .., .inr ⟨by simp, by simpa using hinside⟩⟩
                · obtain ⟨o, hmem, ho⟩ := hlater (length - 1) place (by omega) hstands
                  exact ⟨o, List.mem_cons_of_mem _ hmem, ho⟩
          · rename_i hmatch
            cases place with
            | zero => exact absurd hstands ((longestMatch_eq_none_iff.mp hmatch).2 keyword hkeyword)
            | succ place => exact hlater 0 place (Nat.zero_le _) hstands

/-! ## Whole texts -/

/-- A keyword that matches as long as an occurrence where it starts is the one that is found. -/
theorem Occurrence.Marks.eq_of_length {o : Occurrence} (h : o.Marks keywords 0 text)
    (hnodup : keywords.Nodup) {index : Nat} {keyword : List Char}
    (hkeyword : keywords[index]? = some keyword) (hstands : keyword <+: text.drop o.start)
    (hlength : keyword.length = o.stop - o.start) :
    o = ⟨o.start, o.start + keyword.length, index⟩ := by
  obtain ⟨before, own, after, rfl, hown, hstart, hstop⟩ := h
  have hdrop : (before ++ (own ++ after)).drop o.start = own ++ after := by
    rw [hstart, Nat.zero_add, List.drop_left]
  rw [hdrop] at hstands
  have hsame : keyword = own :=
    (List.prefix_of_prefix_length_le hstands (List.prefix_append own after) (by omega)).eq_of_length
      (by omega)
  have hindex : o.keyword = index :=
    (List.getElem?_inj (List.getElem?_eq_some_iff.mp hown).1 hnodup).mp
      (by rw [hown, hkeyword, hsame])
  rw [← hindex, hsame, ← hstop]

/-- The occurrences of keywords that differ from each other are the leftmost and longest. -/
theorem leftmostLongest_occurrences (hkeywords : ∀ keyword ∈ keywords, keyword ≠ [])
    (hnodup : keywords.Nodup) : LeftmostLongest keywords text (occurrences keywords text) := by
  have harranged : Arranged keywords.length text.length (occurrences keywords text) :=
    arranged_occurrences hkeywords
  have hmarks : ∀ o ∈ occurrences keywords text, o.Marks keywords 0 text :=
    fun o hmem => (marks_occurrencesFrom o hmem).1
  refine ⟨?_, harranged.apart, fun o hmem => ⟨harranged.nonempty o hmem, harranged.inside o hmem⟩,
    fun o hmem => (hmarks o hmem).slice_eq, fun o hmem => longest_occurrencesFrom o hmem, ?_⟩
  · refine harranged.apart.imp_of_mem fun {first second} hfirst _ hle => ?_
    exact Nat.lt_of_lt_of_le (harranged.nonempty first hfirst) hle
  · intro place index keyword hkeyword hstands
    obtain ⟨o, hmem, ⟨hstart, hlength⟩ | ⟨hbefore, hbehind⟩⟩ :=
      occurrencesFrom_covers hkeywords (List.mem_of_getElem? hkeyword) 0 (Nat.zero_le place)
        hstands
    · rw [Nat.zero_add] at hstart
      subst hstart
      rcases hlength.lt_or_eq with hlonger | hequal
      · exact .longer hmem rfl hlonger
      · have ho := (hmarks o hmem).eq_of_length hnodup hkeyword hstands hequal
        exact .found (ho ▸ hmem)
    · exact .inside hmem (by omega) (by omega)

/-! ## Snippets -/

section Make

variable {keywords : List String} {tags : List Tag} {options : Options} {snippet : Snippet}

theorem nodup_of_make (h : make keywords tags options = .ok snippet) : snippet.keywords.Nodup := by
  unfold make at h
  split at h
  · cases h
  · obtain ⟨_, _, rfl⟩ := exists_of_map_eq_ok h
    show (distinct _).Nodup
    rw [distinct_eq_eraseDups]
    exact nodup_eraseDups _

/-- Whatever keywords a snippet is made of, they are searched for as they are folded, each once and
no empty one, and what it finds in a text are the leftmost and longest of their occurrences. -/
theorem occurrences_leftmostLongest (hmake : make keywords tags options = .ok snippet)
    (text : String) :
    (∀ searched, searched ∈ snippet.keywords ↔
        searched ≠ [] ∧ ∃ keyword ∈ keywords, normalized options keyword.toList = searched) ∧
      LeftmostLongest snippet.keywords (normalized snippet.options text.toList)
        (occurrences snippet.keywords (normalized snippet.options text.toList)) := by
  obtain ⟨_, _, _, _, _, hsearched⟩ := make_eq_ok hmake
  refine ⟨hsearched, leftmostLongest_occurrences (fun keyword hmem => ?_) (nodup_of_make hmake)⟩
  exact ((hsearched keyword).mp hmem).1

/-- Of keywords that start, end or overlap one another, the longest that starts first is found, and
the search goes on behind it. -/
theorem occurrences_leftmostLongest_overlaps :
    let text := normalized {} "xABCDab".toList
    ∃ snippet found, make ["ab", "Abc", "bcd", "b", "AB", ""] [⟨"<", ">"⟩] {} = .ok snippet ∧
      occurrences snippet.keywords text = found ∧
      found = [⟨1, 4, 1⟩, ⟨5, 7, 0⟩] ∧ LeftmostLongest snippet.keywords text found := by
  intro text
  obtain ⟨snippet, hmake⟩ :
      ∃ snippet, make ["ab", "Abc", "bcd", "b", "AB", ""] [⟨"<", ">"⟩] {} = .ok snippet := ⟨_, rfl⟩
  have hfound : occurrences snippet.keywords text = [⟨1, 4, 1⟩, ⟨5, 7, 0⟩] := by
    cases hmake
    decide +kernel
  have hoptions : snippet.options = {} := (make_eq_ok hmake).2.2.1
  have hleftmost := (occurrences_leftmostLongest hmake "xABCDab").2
  rw [hoptions] at hleftmost
  exact ⟨snippet, _, hmake, rfl, hfound, hleftmost⟩

end Make

end RecordQuery.Snippet

import RecordQuery.Proofs.Snippet.Windows

/-!
# Keywords as a set

The keywords of a snippet are numbered, and the numbers go through every part of its work: they are
what a match is told by, what windows are scored by, and what tags are ranked by.  But only whether
two of them are the same matters.  Other keywords with the same members find the same runs of the
text under other numbers (`occurrences_eq_map`), and nothing that is done with occurrences changes
if their keywords are numbered anew (`Occurrence.renumber`).  So neither the order of the keywords
nor a repetition can be seen in the fragments (`fragments_of_same_keywords`).
-/

namespace RecordQuery.Snippet

/-! ## The longest match -/

section LongestMatch

variable {text : List Char} {keywords others : List (List Char)} {best : Option (Nat × Nat)}
  {index found length : Nat}

/-- What is taken is at least as long as what was taken before, and as all keywords that match. -/
theorem le_of_longestMatch (h : longestMatch text best index keywords = some (found, length)) :
    (∀ held ∈ best, held.2 ≤ length) ∧
      ∀ keyword ∈ keywords, keyword <+: text → keyword.length ≤ length := by
  induction keywords generalizing best index with
  | nil =>
      cases h
      simp
  | cons first later ih =>
      rw [longestMatch] at h
      by_cases hprefix : first.isPrefixOf text = true
      · rw [if_pos hprefix] at h
        obtain ⟨hheld, hlater⟩ := ih h
        have hlonger : (∀ held ∈ best, held.2 ≤ length) ∧ first.length ≤ length := by
          cases best with
          | none =>
              exact ⟨fun held hnone => absurd hnone (Option.not_mem_none held),
                hheld (index, first.length) rfl⟩
          | some held =>
              simp only [longer] at hheld
              split at hheld
              · have hnew := hheld (index, first.length) rfl
                simp only at hnew
                refine ⟨fun other hother => ?_, hnew⟩
                cases hother
                omega
              · have hold := hheld held rfl
                refine ⟨fun other hother => ?_, by omega⟩
                cases hother
                exact hold
        refine ⟨hlonger.1, List.forall_mem_cons.mpr ⟨fun _ => hlonger.2, hlater⟩⟩
      · have hmatch : ¬ first <+: text := fun hp => hprefix (List.isPrefixOf_iff_prefix.mpr hp)
        rw [if_neg hprefix] at h
        obtain ⟨hheld, hlater⟩ := ih h
        exact ⟨hheld, List.forall_mem_cons.mpr ⟨fun hp => absurd hp hmatch, hlater⟩⟩

/-- The same members in another order match as long, by the same keyword. -/
theorem longestMatch_eq_map (hothers : others.Nodup)
    (hsame : ∀ keyword, keyword ∈ others ↔ keyword ∈ keywords) :
    longestMatch text none 0 others =
      (longestMatch text none 0 keywords).map fun (found, length) =>
        (others.idxOf (keywords.getD found []), length) := by
  cases hfirst : longestMatch text none 0 keywords with
  | none =>
      obtain ⟨_, hnone⟩ := longestMatch_eq_none_iff.mp hfirst
      exact longestMatch_eq_none_iff.mpr
        ⟨rfl, fun keyword hmem => hnone keyword ((hsame keyword).mp hmem)⟩
  | some taken =>
      obtain ⟨found, length⟩ := taken
      obtain hbest | ⟨place, keyword, hkeyword, hfound, hlength, hprefix⟩ :=
        keyword_of_longestMatch hfirst
      · cases hbest
      have hmem : keyword ∈ others := (hsame keyword).mpr (List.mem_of_getElem? hkeyword)
      cases hsecond : longestMatch text none 0 others with
      | none => exact absurd hprefix ((longestMatch_eq_none_iff.mp hsecond).2 keyword hmem)
      | some otherTaken =>
          obtain ⟨otherFound, otherLength⟩ := otherTaken
          obtain hbest | ⟨otherPlace, other, hother, hotherFound, hotherLength, hotherPrefix⟩ :=
            keyword_of_longestMatch hsecond
          · cases hbest
          have hle : keyword.length ≤ otherLength :=
            (le_of_longestMatch hsecond).2 keyword hmem hprefix
          have hge : other.length ≤ length :=
            (le_of_longestMatch hfirst).2 other
              ((hsame other).mp (List.mem_of_getElem? hother)) hotherPrefix
          -- Two keywords that a text starts with are the same if they are equally long.
          obtain rfl : other = keyword :=
            (List.prefix_of_prefix_length_le hotherPrefix hprefix (by omega)).eq_of_length
              (by omega)
          obtain ⟨hbound, hplace⟩ := List.getElem?_eq_some_iff.mp hother
          have hnumber : others.idxOf other = otherPlace := by
            rw [← hplace]
            exact hothers.idxOf_getElem otherPlace hbound
          rw [Nat.zero_add] at hfound hotherFound
          have hgetD : keywords.getD found [] = other := by
            rw [hfound, List.getD_eq_getElem?_getD, hkeyword, Option.getD_some]
          simp only [Option.map_some, hgetD, hnumber, hotherFound]
          congr 2
          omega

end LongestMatch

/-! ## Occurrences under other numbers -/

/-- An occurrence with its keyword under another number. -/
def Occurrence.renumber (number : Nat → Nat) (o : Occurrence) : Occurrence :=
  { o with keyword := number o.keyword }

/-- Occurrences with their keywords under other numbers. -/
def renumbered (number : Nat → Nat) (found : List Occurrence) : List Occurrence :=
  found.map (.renumber number)

theorem occurrencesFrom_eq_map {keywords others : List (List Char)} (hothers : others.Nodup)
    (hsame : ∀ keyword, keyword ∈ others ↔ keyword ∈ keywords) (offset skip : Nat)
    (text : List Char) :
    occurrencesFrom others offset skip text =
      renumbered (fun found => others.idxOf (keywords.getD found []))
        (occurrencesFrom keywords offset skip text) := by
  induction text generalizing offset skip with
  | nil => rfl
  | cons c rest ih =>
      cases skip with
      | succ skip => exact ih ..
      | zero =>
          simp only [occurrencesFrom, longestMatch_eq_map hothers hsame]
          cases longestMatch (c :: rest) none 0 keywords with
          | none => exact ih ..
          | some taken => exact congrArg (_ :: ·) (ih ..)

theorem occurrences_eq_map {keywords others : List (List Char)} (hothers : others.Nodup)
    (hsame : ∀ keyword, keyword ∈ others ↔ keyword ∈ keywords) (text : List Char) :
    occurrences others text =
      renumbered (fun found => others.idxOf (keywords.getD found [])) (occurrences keywords text) :=
  occurrencesFrom_eq_map hothers hsame 0 0 text

/-- Members at different places have different numbers. -/
theorem number_injOn {keywords others : List (List Char)} (hkeywords : keywords.Nodup)
    (hsame : ∀ keyword, keyword ∈ others ↔ keyword ∈ keywords) :
    Set.InjOn (fun found => others.idxOf (keywords.getD found [])) {k | k < keywords.length} := by
  intro first hfirst second hsecond heq
  have hbound : first < keywords.length := hfirst
  have hbound' : second < keywords.length := hsecond
  have hmem : keywords[first] ∈ others := (hsame _).mpr (List.getElem_mem _)
  simp only [List.getD_eq_getElem _ _ hbound, List.getD_eq_getElem _ _ hbound'] at heq
  exact hkeywords.getElem_inj_iff.mp ((List.idxOf_inj hmem).mp heq)

/-! ## Fragments of renumbered occurrences -/

/-- Members that are taken to different ones come up in the same order. -/
theorem eraseDups_map {f : Nat → Nat} {xs : List Nat} (hf : Set.InjOn f {x | x ∈ xs}) :
    (xs.map f).eraseDups = xs.eraseDups.map f := by
  induction xs using List.reverseRecOn with
  | nil => rfl
  | append_singleton xs x ih =>
      have hearlier : (xs.map f).eraseDups = xs.eraseDups.map f :=
        ih (hf.mono fun y hy => List.mem_append_left _ hy)
      have hcontains : (xs.eraseDups.map f).contains (f x) = xs.eraseDups.contains x := by
        rw [Bool.eq_iff_iff, List.contains_iff_mem, List.contains_iff_mem, List.mem_map]
        constructor
        · rintro ⟨y, hy, heq⟩
          have hyx : y = x := hf (List.mem_append_left _ (List.mem_eraseDups.mp hy))
            (List.mem_append_right _ (List.mem_singleton_self x)) heq
          exact hyx ▸ hy
        · exact fun hx => ⟨x, hx, rfl⟩
      rw [List.map_append, List.map_singleton, eraseDups_concat, eraseDups_concat, hearlier,
        addNew, addNew, hcontains]
      split
      · rfl
      · rw [List.map_append, List.map_singleton]

theorem idxOf_map {f : Nat → Nat} {xs : List Nat} {x : Nat}
    (hf : ∀ y ∈ xs, f y = f x → y = x) : (xs.map f).idxOf (f x) = xs.idxOf x := by
  induction xs with
  | nil => rfl
  | cons y later ih =>
      have hlater := ih fun z hz => hf z (List.mem_cons_of_mem _ hz)
      have hhead : f y = f x ↔ y = x :=
        ⟨hf y (List.mem_cons_self ..), fun h => h ▸ rfl⟩
      have htest : (f y == f x) = (y == x) := by
        rw [Bool.eq_iff_iff, beq_iff_eq, beq_iff_eq, hhead]
      rw [List.map_cons, List.idxOf_cons, List.idxOf_cons, hlater, htest]

section Renumber

variable {number : Nat → Nat} {found : List Occurrence}

theorem map_keyword_renumber (found : List Occurrence) :
    (renumbered number found).map (·.keyword) = (found.map (·.keyword)).map number := by
  rw [renumbered, List.map_map, List.map_map]
  rfl

theorem within_renumber (start stop : Nat) (found : List Occurrence) :
    within start stop (renumbered number found) =
      renumbered number (within start stop found) :=
  List.filter_map ..

theorem skipBlanks_renumber (found : List Occurrence) (start : Nat) (rest : List Char) :
    skipBlanks (renumbered number found) start rest = skipBlanks found start rest := by
  induction rest generalizing start with
  | nil => rfl
  | cons c rest ih =>
      have hstarts : ((renumbered number found).any fun o => o.start == start) =
          found.any fun o => o.start == start := List.any_map ..
      simp only [skipBlanks, ih, hstarts]

variable (hnumber : Set.InjOn number {k | k ∈ found.map (·.keyword)})

include hnumber

/-- Windows are scored the same. -/
theorem window_renumber (width length : Nat) (o : Occurrence) :
    (o.renumber number).window width length (renumbered number found) =
      o.window width length found := by
  have hrange : (o.renumber number).range width length = o.range width length := rfl
  have hsubset (start stop : Nat) :
      {k | k ∈ (within start stop found).map (·.keyword)} ⊆ {k | k ∈ found.map (·.keyword)} := by
    intro k hk
    obtain ⟨p, hp, hkeyword⟩ := List.mem_map.mp hk
    exact List.mem_map.mpr ⟨p, List.mem_of_mem_filter hp, hkeyword⟩
  have hscore (start stop : Nat) :
      ((within start stop (renumbered number found)).map (·.keyword)).toFinset.card =
        ((within start stop found).map (·.keyword)).toFinset.card := by
    have himage (keywords : List Nat) :
        (keywords.map number).toFinset = keywords.toFinset.image number := by
      ext k
      simp
    rw [within_renumber, map_keyword_renumber, himage]
    refine Finset.card_image_of_injOn ((hnumber.mono (hsubset start stop)).mono fun k hk => ?_)
    exact List.mem_toFinset.mp hk
  unfold Occurrence.window
  simp only [hrange, hscore]

theorem plainWindows_renumber (width limit length : Nat) :
    plainWindows width limit length (renumbered number found) =
      plainWindows width limit length found := by
  unfold plainWindows ranked
  rw [renumbered, List.map_map]
  congr 3
  exact List.map_congr_left fun o _ => window_renumber hnumber width length o

/-- Tags are ranked the same. -/
theorem tagOf_renumber (snippet : Snippet) {o : Occurrence} (ho : o ∈ found) :
    snippet.tagOf (distinct ((renumbered number found).map (·.keyword))) (number o.keyword) =
      snippet.tagOf (distinct (found.map (·.keyword))) o.keyword := by
  have hrank : ((found.map (·.keyword)).eraseDups.map number).idxOf (number o.keyword) =
      (found.map (·.keyword)).eraseDups.idxOf o.keyword :=
    idxOf_map fun k hk heq =>
      hnumber (List.mem_eraseDups.mp hk) (List.mem_map_of_mem ho) heq
  rw [map_keyword_renumber, distinct_eq_eraseDups, distinct_eq_eraseDups, eraseDups_map hnumber,
    tagOf, tagOf, hrank]

theorem wrapped_renumber (snippet : Snippet) (others : List (List Char)) (text : List Char)
    (stop cursor : Nat) {inside : List Occurrence} (hinside : ∀ o ∈ inside, o ∈ found) :
    ({ snippet with keywords := others } : Snippet).wrapped text
        (distinct ((renumbered number found).map (·.keyword))) stop cursor
        (renumbered number inside) =
      snippet.wrapped text (distinct (found.map (·.keyword))) stop cursor inside := by
  induction inside generalizing cursor with
  | nil => rfl
  | cons o later ih =>
      have htag : ({ snippet with keywords := others } : Snippet).tagOf
          (distinct ((renumbered number found).map (·.keyword))) (number o.keyword) =
            snippet.tagOf (distinct (found.map (·.keyword))) o.keyword :=
        tagOf_renumber hnumber snippet (hinside o (List.mem_cons_self ..))
      have hlater := ih o.stop fun p hp => hinside p (List.mem_cons_of_mem _ hp)
      have hcons : renumbered number (o :: later) =
          o.renumber number :: renumbered number later := rfl
      rw [hcons, wrapped, wrapped]
      simp only [Occurrence.renumber, htag, hlater]

theorem fragment_renumber (snippet : Snippet) (others : List (List Char)) (text : List Char)
    (window : Window) :
    ({ snippet with keywords := others } : Snippet).fragment text (renumbered number found)
        (distinct ((renumbered number found).map (·.keyword))) window =
      snippet.fragment text found (distinct (found.map (·.keyword))) window := by
  have hinside (start : Nat) :
      (renumbered number found).filter (fun o => start ≤ o.start && o.stop ≤ window.stop) =
        renumbered number (found.filter fun o => start ≤ o.start && o.stop ≤ window.stop) :=
      within_renumber start window.stop found
  unfold fragment
  simp only [skipBlanks_renumber, hinside]
  rw [wrapped_renumber hnumber snippet others text _ _ fun o ho => List.mem_of_mem_filter ho]

end Renumber

/-! ## Fragments of snippets -/

/-- A snippet shows the same if its keywords are put in another order. -/
theorem fragments_of_same_members (snippet : Snippet) {others : List (List Char)}
    (hnonempty : ∀ keyword ∈ snippet.keywords, keyword ≠ []) (hkeywords : snippet.keywords.Nodup)
    (hothers : others.Nodup) (hsame : ∀ keyword, keyword ∈ others ↔ keyword ∈ snippet.keywords)
    (source : String) :
    ({ snippet with keywords := others } : Snippet).fragments source =
      snippet.fragments source := by
  let text := normalized snippet.options source.toList
  let found := occurrences snippet.keywords text
  let number := fun place => others.idxOf (snippet.keywords.getD place [])
  have hlength : text.length = source.toList.length := length_normalized ..
  have hfound : occurrences others text = renumbered number found :=
    occurrences_eq_map hothers hsame text
  have harranged : Arranged snippet.keywords.length text.length found :=
    arranged_occurrences hnonempty
  have harranged' : Arranged others.length text.length (renumbered number found) := by
    rw [← hfound]
    exact arranged_occurrences fun keyword hmem => hnonempty keyword ((hsame keyword).mp hmem)
  have hnumber : Set.InjOn number {k | k ∈ found.map (·.keyword)} := by
    refine (number_injOn hkeywords hsame).mono fun k hk => ?_
    obtain ⟨o, ho, rfl⟩ := List.mem_map.mp hk
    exact harranged.known o ho
  have hwindows : windows snippet.options.width snippet.options.maxResults others.length
      text.length (renumbered number found) =
        windows snippet.options.width snippet.options.maxResults snippet.keywords.length
          text.length found := by
    rw [windows_eq_plain harranged', windows_eq_plain harranged, plainWindows_renumber hnumber]
  unfold fragments
  simp only
  rw [hfound, ← hlength, hwindows]
  exact List.map_congr_left fun window _ =>
    fragment_renumber hnumber snippet others source.toList window

/-- Lists of keywords that fold to the same ones, but for the empty ones, make snippets that show
the same, or are both refused. -/
theorem fragments_of_same_keywords {keywords others : List String} {options : Options}
    (hsame : ∀ searched, searched ≠ [] →
      ((∃ keyword ∈ others, normalized options keyword.toList = searched) ↔
        ∃ keyword ∈ keywords, normalized options keyword.toList = searched))
    (tags : List Tag) (source : String) :
    (make others tags options).map (·.fragments source) =
      (make keywords tags options).map (·.fragments source) := by
  unfold make
  split
  · rfl
  · cases options.check with
    | error error => rfl
    | ok _ =>
        have hnodup (searched : List (List Char)) : (distinct searched).Nodup := by
          rw [distinct_eq_eraseDups]
          exact nodup_eraseDups _
        refine congrArg Except.ok (fragments_of_same_members
          ⟨_, tags, options⟩ (fun keyword hkeyword => (mem_distinct_searched.mp hkeyword).1)
          (hnodup _) (hnodup _) (fun searched => ?_) source)
        calc searched ∈ distinct _
            ↔ searched ≠ [] ∧
                ∃ keyword ∈ others, normalized options keyword.toList = searched :=
              mem_distinct_searched
          _ ↔ searched ≠ [] ∧
                ∃ keyword ∈ keywords, normalized options keyword.toList = searched :=
              and_congr_right (hsame searched)
          _ ↔ searched ∈ distinct _ := mem_distinct_searched.symm

/-- Keywords in another order, in other letters, twice or empty change nothing. -/
theorem fragments_of_same_keywords_mixed :
    let options : Options := { width := 12 }
    let tags : List Tag := [⟨"<", ">"⟩, ⟨"[", "]"⟩]
    (make ["BAR", "fOO"] tags options).map (·.fragments "a foo, a Bar") =
      (make ["Foo", "", "bar", "foo"] tags options).map (·.fragments "a foo, a Bar") ∧
    (make ["Foo", "", "bar", "foo"] tags options).map (·.fragments "a foo, a Bar") =
      .ok ["a <foo>, a [Bar]"] := by
  intro options tags
  refine ⟨fragments_of_same_keywords (fun searched hsearched => ?_) tags _, by cbv⟩
  have hcapitals : normalized options "BAR".toList = "bar".toList ∧
      normalized options "fOO".toList = "foo".toList := by decide +kernel
  have hfolded : normalized options "Foo".toList = "foo".toList ∧
      normalized options "".toList = [] ∧ normalized options "bar".toList = "bar".toList ∧
      normalized options "foo".toList = "foo".toList := by decide +kernel
  simp only [List.exists_mem_cons_iff, List.not_mem_nil, hcapitals, hfolded, false_and,
    exists_false, hsearched.symm, or_false, false_or]
  constructor
  · rintro (h | h)
    · exact Or.inr (Or.inl h)
    · exact Or.inl h
  · rintro (h | h | h)
    · exact Or.inr h
    · exact Or.inl h
    · exact Or.inr h

end RecordQuery.Snippet

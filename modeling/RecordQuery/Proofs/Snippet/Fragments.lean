import RecordQuery.Proofs.Snippet.Windows

/-!
# Fragments are faithful to the text

A fragment shows a range of the text, of which it wraps the occurrences in tags (`Part`).  Without
the tags it is the range as it is shown, and what escaping does to a text can be undone
(`unescaped_escaped`), so nothing of the range is lost or added (`Portion.Faithful`).
-/

namespace RecordQuery.Snippet

/-! ## Escaping -/

/-- The texts that HTML reads as one character. -/
def entities : List (List Char) :=
  ["&lt;".toList, "&gt;".toList, "&amp;".toList, "&quot;".toList]

/-- Whether a text has characters that HTML gives a meaning to in entities only. -/
inductive Escaped : List Char → Prop
  | nil : Escaped []
  | entity {entity rest : List Char} :
      entity ∈ entities → Escaped rest → Escaped (entity ++ rest)
  | plain {c : Char} {rest : List Char} :
      c ∉ ['<', '>', '&', '"'] → Escaped rest → Escaped (c :: rest)

/-- A text as HTML reads it, entities as the characters they stand for. -/
def unescaped : List Char → List Char
  | '&' :: 'l' :: 't' :: ';' :: rest => '<' :: unescaped rest
  | '&' :: 'g' :: 't' :: ';' :: rest => '>' :: unescaped rest
  | '&' :: 'a' :: 'm' :: 'p' :: ';' :: rest => '&' :: unescaped rest
  | '&' :: 'q' :: 'u' :: 'o' :: 't' :: ';' :: rest => '"' :: unescaped rest
  | c :: rest => c :: unescaped rest
  | [] => []

theorem htmlChar_cases (c : Char) :
    (c ∈ ['<', '>', '&', '"'] ∧ htmlChar c ∈ entities ∧
      ∀ rest, unescaped (htmlChar c ++ rest) = c :: unescaped rest) ∨
    (c ∉ ['<', '>', '&', '"'] ∧ htmlChar c = [c]) := by
  by_cases hc : c ∈ ['<', '>', '&', '"']
  · refine Or.inl ⟨hc, ?_⟩
    simp only [List.mem_cons, List.not_mem_nil, or_false] at hc
    rcases hc with rfl | rfl | rfl | rfl <;> exact ⟨by decide, fun _ => rfl⟩
  · refine Or.inr ⟨hc, ?_⟩
    simp only [List.mem_cons, List.not_mem_nil, or_false, not_or] at hc
    simp [htmlChar, hc]

theorem unescaped_plain {c : Char} (h : c ≠ '&') (rest : List Char) :
    unescaped (c :: rest) = c :: unescaped rest := by
  rw [unescaped.eq_5] <;> simp_all

/-- Escaping leaves no character with a meaning outside entities, and can be undone. -/
theorem unescaped_escaped (text : List Char) :
    Escaped (text.flatMap htmlChar) ∧ unescaped (text.flatMap htmlChar) = text := by
  induction text with
  | nil => exact ⟨.nil, rfl⟩
  | cons c text ih =>
      obtain ⟨hescaped, hundone⟩ := ih
      rw [List.flatMap_cons]
      rcases htmlChar_cases c with ⟨_, hentity, hread⟩ | ⟨hplain, hchar⟩
      · exact ⟨.entity hentity hescaped, by rw [hread, hundone]⟩
      · have hamp : c ≠ '&' := by
          rintro rfl
          exact hplain (by decide)
        rw [hchar]
        exact ⟨.plain hplain hescaped, by rw [List.singleton_append, unescaped_plain hamp, hundone]⟩

variable {options : Options}

theorem shown_append (first second : List Char) :
    shown options (first ++ second) = shown options first ++ shown options second := by
  unfold shown
  split
  · exact List.flatMap_append
  · rfl

/-! ## Slices -/

theorem slice_append {text : List Char} {start middle stop : Nat} (hstart : start ≤ middle)
    (hstop : middle ≤ stop) :
    slice text start middle ++ slice text middle stop = slice text start stop := by
  have hlength : stop - start = (middle - start) + (stop - middle) := by omega
  have hdrop : text.drop middle = (text.drop start).drop (middle - start) := by
    rw [List.drop_drop, Nat.add_sub_cancel' hstart]
  rw [slice, slice, slice, hlength, List.take_add, hdrop]

theorem slice_self (text : List Char) (start : Nat) : slice text start start = [] := by
  rw [slice, Nat.sub_self, List.take_zero]

theorem length_slice {text : List Char} {start stop : Nat} (hstop : stop ≤ text.length) :
    (slice text start stop).length = stop - start := by
  rw [slice, List.length_take, List.length_drop]
  omega

theorem normalized_slice (text : List Char) (start stop : Nat) :
    normalized options (slice text start stop) = slice (normalized options text) start stop := by
  unfold normalized slice
  split
  · rw [List.map_take, List.map_drop]
  · rfl

/-! ## Parts of a fragment -/

/-- A part of a fragment: characters of the text, or an occurrence with the tag around it. -/
inductive Part where
  | plain (start stop : Nat)
  | marked (occurrence : Occurrence) (tag : Tag)

namespace Part

/-- The offset of the first character. -/
def start : Part → Nat
  | plain start _ => start
  | marked occurrence _ => occurrence.start

/-- The offset behind the last character. -/
def stop : Part → Nat
  | plain _ stop => stop
  | marked occurrence _ => occurrence.stop

/-- The occurrence in a tag. -/
def occurrence? : Part → Option Occurrence
  | plain .. => none
  | marked occurrence _ => some occurrence

/-- The characters of a part as they are shown, without a tag. -/
def bare (options : Options) (text : List Char) (part : Part) : List Char :=
  shown options (slice text part.start part.stop)

/-- A part as it is written. -/
def written (options : Options) (text : List Char) : Part → List Char
  | plain start stop => (plain start stop).bare options text
  | marked occurrence tag =>
    tag.opening.toList ++ ((marked occurrence tag).bare options text ++ tag.closing.toList)

/-- Whether parts cover a range of the text, each from where the one before it ends. -/
def Cover (start stop : Nat) : List Part → Prop
  | [] => start = stop
  | part :: later => part.start = start ∧ start ≤ part.stop ∧ Cover part.stop stop later

theorem Cover.le {parts : List Part} {start stop : Nat} (h : Cover start stop parts) :
    start ≤ stop := by
  induction parts generalizing start with
  | nil => exact Nat.le_of_eq h
  | cons part later ih =>
      obtain ⟨_, hle, hlater⟩ := h
      exact Nat.le_trans hle (ih hlater)

/-- Without the tags, parts show the range that they cover. -/
theorem Cover.flatMap_bare {parts : List Part} {start stop : Nat} (h : Cover start stop parts)
    (text : List Char) :
    parts.flatMap (·.bare options text) = shown options (slice text start stop) := by
  induction parts generalizing start with
  | nil =>
      obtain rfl : start = stop := h
      rw [slice_self]
      unfold shown
      split <;> rfl
  | cons part later ih =>
      obtain ⟨rfl, hle, hlater⟩ := h
      rw [List.flatMap_cons, ih hlater, bare, ← shown_append, slice_append hle hlater.le]

end Part

/-- The parts of a range from `cursor` on: the occurrences in tags and what is between them. -/
def partsFrom (snippet : Snippet) (ranking : List Nat) (stop cursor : Nat) :
    List Occurrence → List Part
  | [] => [.plain cursor stop]
  | o :: later =>
    .plain cursor o.start :: .marked o (snippet.tagOf ranking o.keyword) ::
      partsFrom snippet ranking stop o.stop later

section PartsFrom

variable {snippet : Snippet} {text : List Char} {ranking : List Nat} {stop cursor : Nat}
  {inside : List Occurrence}

theorem wrapped_eq_parts :
    wrapped snippet text ranking stop cursor inside =
      (partsFrom snippet ranking stop cursor inside).flatMap (·.written snippet.options text) := by
  induction inside generalizing cursor with
  | nil => exact (List.append_nil _).symm
  | cons o later ih =>
      rw [wrapped, ih, partsFrom, List.flatMap_cons, List.flatMap_cons]
      simp only [Part.written, Part.bare, Part.start, Part.stop, List.append_assoc]

theorem occurrences_partsFrom :
    (partsFrom snippet ranking stop cursor inside).filterMap Part.occurrence? = inside := by
  induction inside generalizing cursor with
  | nil => rfl
  | cons o later ih =>
      simp only [partsFrom, List.filterMap_cons, Part.occurrence?, ih]

theorem tag_of_mem_partsFrom {o : Occurrence} {tag : Tag}
    (h : .marked o tag ∈ partsFrom snippet ranking stop cursor inside) :
    o ∈ inside ∧ tag = snippet.tagOf ranking o.keyword := by
  induction inside generalizing cursor with
  | nil => simp [partsFrom] at h
  | cons p later ih =>
      simp only [partsFrom, List.mem_cons, Part.marked.injEq] at h
      rcases h with h | ⟨rfl, rfl⟩ | h
      · cases h
      · exact ⟨List.mem_cons_self .., rfl⟩
      · obtain ⟨hmem, htag⟩ := ih h
        exact ⟨List.mem_cons_of_mem _ hmem, htag⟩

/-- Occurrences in text order and what is between them cover their range. -/
theorem cover_partsFrom (hcursor : ∀ o ∈ inside, cursor ≤ o.start)
    (hnonempty : ∀ o ∈ inside, o.start < o.stop) (hstop : ∀ o ∈ inside, o.stop ≤ stop)
    (hle : cursor ≤ stop)
    (hapart : inside.Pairwise fun first second => first.stop ≤ second.start) :
    Part.Cover cursor stop (partsFrom snippet ranking stop cursor inside) := by
  induction inside generalizing cursor with
  | nil => exact ⟨rfl, hle, rfl⟩
  | cons o later ih =>
      obtain ⟨hfirst, hlater⟩ := List.pairwise_cons.mp hapart
      have hwithin := hstop o (List.mem_cons_self ..)
      refine ⟨rfl, hcursor o (List.mem_cons_self ..), rfl,
        Nat.le_of_lt (hnonempty o (List.mem_cons_self ..)), ih hfirst (fun p hp => ?_)
        (fun p hp => ?_) hwithin hlater⟩
      · exact hnonempty p (List.mem_cons_of_mem _ hp)
      · exact hstop p (List.mem_cons_of_mem _ hp)

end PartsFrom

/-! ## Blanks at the start -/

/-- Only blanks are skipped, and none from the start of an occurrence on. -/
theorem skipBlanks_spec (found : List Occurrence) (start : Nat) (rest : List Char) :
    ∃ blanks kept, rest = blanks ++ kept ∧ skipBlanks found start rest = start + blanks.length ∧
      (∀ c ∈ blanks, Text.isBlank c = true) ∧
      ∀ o ∈ found, start ≤ o.start → start + blanks.length ≤ o.start := by
  induction rest generalizing start with
  | nil => exact ⟨[], [], rfl, rfl, nofun, fun _ _ h => h⟩
  | cons c rest ih =>
      rw [skipBlanks]
      by_cases hskip : (Text.isBlank c && !(found.any fun o => o.start == start)) = true
      · obtain ⟨hblank, hnone⟩ := Bool.and_eq_true_iff.mp hskip
        obtain ⟨blanks, kept, rfl, hstart, hblanks, hfound⟩ := ih (start + 1)
        rw [if_pos hskip]
        refine ⟨c :: blanks, kept, rfl, ?_, List.forall_mem_cons.mpr ⟨hblank, hblanks⟩,
          fun o ho hle => ?_⟩
        · rw [hstart, List.length_cons]
          omega
        · -- Blanks are skipped up to the first occurrence that starts among them.
          have hother : o.start ≠ start := by
            rintro heq
            have hany : (found.any fun o => o.start == start) = true :=
              List.any_eq_true.mpr ⟨o, ho, beq_iff_eq.mpr heq⟩
            simp [hany] at hnone
          have hlater := hfound o ho (by omega)
          rw [List.length_cons]
          omega
      · rw [if_neg hskip]
        exact ⟨[], c :: rest, rfl, rfl, nofun, fun _ _ h => h⟩

/-! ## Portions of a text -/

/-- What a fragment shows of a text. -/
structure Portion where
  /-- The offset of the first character before blanks are dropped. -/
  left : Nat
  /-- The offset of the first character that is shown. -/
  start : Nat
  /-- The offset behind the last character. -/
  stop : Nat
  parts : List Part

/-- A portion as a fragment writes it. -/
def Portion.written (options : Options) (text : List Char) (portion : Portion) : String :=
  String.ofList (portion.parts.flatMap (·.written options text))

/-- The number of keywords that come up in a text before a keyword does. -/
def rank (found : List Occurrence) (keyword : Nat) : Nat :=
  ((found.map (·.keyword)).takeWhile (· != keyword)).eraseDups.length

/-- Whether a portion shows a range of a text and nothing else. -/
structure Portion.Faithful (snippet : Snippet) (text : List Char) (found : List Occurrence)
    (portion : Portion) : Prop where
  /-- The range lies in the text. -/
  inside : portion.left ≤ portion.start ∧ portion.start ≤ portion.stop ∧
    portion.stop ≤ text.length
  /-- The range is no longer than the width, unless it is an occurrence that is longer. -/
  size : portion.stop - portion.left ≤ snippet.options.width ∨
    ∃ o ∈ found, snippet.options.width < o.stop - o.start ∧ portion.left = o.start ∧
      portion.start = o.start ∧ portion.stop = o.stop
  /-- Nothing is dropped unless it is asked for. -/
  untrimmed : snippet.options.skipLeadingSpaces = false → portion.start = portion.left
  /-- Only blanks are dropped. -/
  blanks : ∀ c ∈ slice text portion.left portion.start, Text.isBlank c = true
  /-- No occurrence inside is cut. -/
  uncut : ∀ o ∈ within portion.left portion.stop found, portion.start ≤ o.start
  /-- The parts cover the range. -/
  cover : Part.Cover portion.start portion.stop portion.parts
  /-- The occurrences inside are wrapped, and nothing else is. -/
  wrapped : portion.parts.filterMap Part.occurrence? = within portion.start portion.stop found
  /-- What is wrapped folds to its keyword. -/
  folded : ∀ o tag, .marked o tag ∈ portion.parts → snippet.keywords[o.keyword]? =
    some (normalized snippet.options (slice text o.start o.stop))
  /-- The rank of the keyword picks the tag. -/
  tagged : ∀ o tag, .marked o tag ∈ portion.parts →
    snippet.tags[rank found o.keyword % snippet.tags.length]? = some tag
  /-- Without tags and escaping the range is left. -/
  restored : (if snippet.options.htmlEscape then unescaped else id)
    (portion.parts.flatMap (·.bare snippet.options text)) = slice text portion.start portion.stop
  /-- The characters of the text are escaped. -/
  escaped : snippet.options.htmlEscape = true → ∀ part ∈ portion.parts,
    Escaped (part.bare snippet.options text)

/-- The first offset that a fragment shows of a window. -/
def Window.shownFrom (snippet : Snippet) (text : List Char) (found : List Occurrence)
    (window : Window) : Nat :=
  if snippet.options.skipLeadingSpaces then
    skipBlanks found window.start (slice text window.start window.stop)
  else window.start

/-- The portion that the fragment of a window shows. -/
def Window.portion (snippet : Snippet) (text : List Char) (found : List Occurrence)
    (window : Window) : Portion :=
  let start := window.shownFrom snippet text found
  ⟨window.start, start, window.stop,
    partsFrom snippet (distinct (found.map (·.keyword))) window.stop start
      (within start window.stop found)⟩

theorem fragment_eq_written (snippet : Snippet) (text : List Char) (found : List Occurrence)
    (window : Window) :
    snippet.fragment text found (distinct (found.map (·.keyword))) window =
      (window.portion snippet text found).written snippet.options text := by
  rw [fragment, wrapped_eq_parts]
  rfl

section Faithful

variable {snippet : Snippet} {text : List Char} {found : List Occurrence}

theorem mem_within {start stop : Nat} {o : Occurrence} :
    o ∈ within start stop found ↔ o ∈ found ∧ start ≤ o.start ∧ o.stop ≤ stop := by
  simp [within]

/-- The tag of an occurrence is the one that the rank of its keyword picks. -/
theorem tagOf_eq (htags : snippet.tags ≠ []) {o : Occurrence} (ho : o ∈ found) :
    snippet.tags[rank found o.keyword % snippet.tags.length]? =
      some (snippet.tagOf (distinct (found.map (·.keyword))) o.keyword) := by
  have hindex : (distinct (found.map (·.keyword))).idxOf o.keyword = rank found o.keyword := by
    rw [distinct_eq_eraseDups, idxOf_eraseDups (List.mem_map_of_mem ho), rank]
  have hbound : rank found o.keyword % snippet.tags.length < snippet.tags.length :=
    Nat.mod_lt _ (List.length_pos_iff.mpr htags)
  rw [tagOf, hindex, List.getD_eq_getElem?_getD, List.getElem?_eq_getElem hbound,
    Option.getD_some]

/-- Only blanks before the first occurrence of a window are not shown. -/
theorem shownFrom_spec (snippet : Snippet) (found : List Occurrence) {window : Window}
    (hwindow : window.start ≤ window.stop)
    (hstop : window.stop ≤ text.length) :
    let start := window.shownFrom snippet text found
    window.start ≤ start ∧ start ≤ window.stop ∧
      (snippet.options.skipLeadingSpaces = false → start = window.start) ∧
      (∀ c ∈ slice text window.start start, Text.isBlank c = true) ∧
      ∀ o ∈ found, window.start ≤ o.start → start ≤ o.start := by
  intro start
  by_cases hskip : snippet.options.skipLeadingSpaces = true
  · obtain ⟨blanks, kept, hslice, hskipped, hblanks, hfound⟩ :=
      skipBlanks_spec found window.start (slice text window.start window.stop)
    have hstart : start = window.start + blanks.length := (if_pos hskip).trans hskipped
    have hlength : blanks.length + kept.length = window.stop - window.start := by
      rw [← List.length_append, ← hslice, length_slice hstop]
    have hdropped : slice text window.start start = blanks := by
      have htaken : (slice text window.start window.stop).take blanks.length = blanks := by
        rw [hslice, List.take_left]
      rw [slice, List.take_take, Nat.min_eq_left (by omega)] at htaken
      rw [slice, hstart, Nat.add_sub_cancel_left, htaken]
    rw [hdropped, hskip, hstart]
    exact ⟨Nat.le_add_right .., by omega, fun h => Bool.noConfusion h, hblanks, hfound⟩
  · have hstart : start = window.start := if_neg hskip
    rw [hstart, slice_self]
    exact ⟨Nat.le_refl _, hwindow, fun _ => rfl, fun _ h => absurd h List.not_mem_nil,
      fun _ _ h => h⟩

/-- The window of an occurrence is no longer than the width, unless it is an occurrence that is
longer. -/
theorem window_size (found : List Occurrence) (width length : Nat) (o : Occurrence) :
    let window := o.window width length found
    window.stop - window.start ≤ width ∨
      (width < o.stop - o.start ∧ window.start = o.start ∧ window.stop = o.stop) := by
  intro window
  have hrange := o.range_cases width length
  have hstart : window.start = (o.range width length).1 := rfl
  have hstop : window.stop = (o.range width length).2 := rfl
  omega

/-- The portion of the window of an occurrence is faithful to the text. -/
theorem portion_faithful (hkeywords : ∀ keyword ∈ snippet.keywords, keyword ≠ [])
    (htags : snippet.tags ≠ [])
    (hfound : found = occurrences snippet.keywords (normalized snippet.options text))
    {o : Occurrence} (ho : o ∈ found) :
    ((o.window snippet.options.width text.length found).portion snippet text found).Faithful
      snippet text found := by
  have harranged : Arranged snippet.keywords.length text.length found := by
    rw [hfound, ← length_normalized snippet.options text]
    exact arranged_occurrences hkeywords
  obtain ⟨window, hwindow⟩ :
      ∃ window, window = o.window snippet.options.width text.length found := ⟨_, rfl⟩
  have hspec := harranged.window_spec snippet.options.width ho
  rw [← hwindow] at hspec ⊢
  obtain ⟨hleft, hright, hnonempty, hstop⟩ := hspec
  obtain ⟨hle, hshown, huntrimmed, hblanks, huncut⟩ :=
    shownFrom_spec snippet found (Nat.le_of_lt hnonempty) hstop
  have hinside : ∀ p ∈ within (window.shownFrom snippet text found) window.stop found,
      p ∈ found := fun p hp => (mem_within.mp hp).1
  have hcover : Part.Cover (window.shownFrom snippet text found) window.stop
      (window.portion snippet text found).parts := by
    refine cover_partsFrom (fun p hp => (mem_within.mp hp).2.1)
      (fun p hp => harranged.nonempty p (hinside p hp)) (fun p hp => (mem_within.mp hp).2.2) hshown
      (harranged.apart.sublist List.filter_sublist)
  refine ⟨⟨hle, hshown, hstop⟩, ?_, huntrimmed, hblanks, fun p hp => ?_, hcover,
    occurrences_partsFrom, fun p tag hmem => ?_, fun p tag hmem => ?_, ?_, fun hescape part _ => ?_⟩
  · -- Windows grow to the width, except around an occurrence that is longer.
    rcases window_size found snippet.options.width text.length o with
      hsize | ⟨hlong, hstart, hend⟩
    · rw [← hwindow] at hsize
      exact Or.inl hsize
    · rw [← hwindow] at hstart hend
      have hshownFrom := huncut o ho hleft
      exact Or.inr ⟨o, ho, hlong, hstart, Nat.le_antisymm hshownFrom (hstart ▸ hle), hend⟩
  · obtain ⟨hp, hstart, _⟩ := mem_within.mp hp
    exact huncut p hp hstart
  · obtain ⟨hp, _⟩ := tag_of_mem_partsFrom hmem
    have hmarks := (marks_occurrencesFrom p (hfound ▸ hinside p hp)).1
    rw [hmarks.slice_eq, normalized_slice]
  · obtain ⟨hp, rfl⟩ := tag_of_mem_partsFrom hmem
    exact tagOf_eq htags (hinside p hp)
  · rw [hcover.flatMap_bare text, shown]
    split
    · exact (unescaped_escaped _).2
    · rfl
  · rw [Part.bare, shown, if_pos hescape]
    exact (unescaped_escaped _).1

end Faithful

/-! ## Fragments of a snippet -/

/-- A snippet shows at most as many fragments of a text as it may, and none exactly if no keyword
occurs in the text.  They show ranges of the text that are apart from each other and in text order,
each of them faithfully. -/
theorem fragments_faithful {keywords : List String} {tags : List Tag} {options : Options}
    {snippet : Snippet} (hmake : make keywords tags options = .ok snippet) (source : String) :
    let text := source.toList
    let found := occurrences snippet.keywords (normalized options text)
    (snippet.fragments source).length ≤ options.maxResults ∧
      (snippet.fragments source = [] ↔ ∀ keyword ∈ keywords, keyword ≠ "" →
        ¬ normalized options keyword.toList <:+: normalized options text) ∧
      ∃ portions : List Portion,
        snippet.fragments source = portions.map (·.written options text) ∧
        (portions.Pairwise fun first second => first.stop ≤ second.left) ∧
        ∀ portion ∈ portions, portion.Faithful snippet text found := by
  intro text found
  obtain ⟨rfl, htags, rfl, _, hlimit, hsearched⟩ := make_eq_ok hmake
  have hkeywords : ∀ keyword ∈ snippet.keywords, keyword ≠ [] :=
    fun keyword hmem => ((hsearched keyword).mp hmem).1
  have harranged : Arranged snippet.keywords.length text.length found := by
    rw [← length_normalized snippet.options text]
    exact arranged_occurrences hkeywords
  obtain ⟨chosen, hchosen⟩ : ∃ chosen, chosen =
      windows snippet.options.width snippet.options.maxResults snippet.keywords.length text.length
        found := ⟨_, rfl⟩
  have hfragments : snippet.fragments source =
      (chosen.map (·.portion snippet text found)).map (·.written snippet.options text) := by
    rw [List.map_map, hchosen]
    exact List.map_congr_left fun window _ => fragment_eq_written ..
  -- Every occurrence proposes a window, and the best one is always chosen.
  have hnone : snippet.fragments source = [] ↔ found = [] := by
    rw [hfragments, List.map_eq_nil_iff, List.map_eq_nil_iff, hchosen]
    constructor
    · intro hnil
      by_contra hsome
      exact windows_ne_nil harranged _ _ hlimit hsome hnil
    · intro hnil
      refine List.eq_nil_iff_forall_not_mem.mpr fun window hmem => ?_
      obtain ⟨o, ho, _⟩ := exists_of_mem_windows harranged _ _ hmem
      rw [hnil] at ho
      exact List.not_mem_nil ho
  refine ⟨?_, ?_, chosen.map (·.portion snippet text found), hfragments, ?_, fun portion hmem => ?_⟩
  · rw [hfragments, List.length_map, List.length_map, hchosen]
    exact length_windows_le harranged ..
  · have hempty (keyword : String) :
        normalized snippet.options keyword.toList ≠ [] ↔ keyword ≠ "" := by
      rw [← List.length_pos_iff, length_normalized, List.length_pos_iff, ne_eq, ne_eq,
        String.toList_eq_nil_iff]
    rw [hnone, occurrences_eq_nil_iff hkeywords]
    constructor
    · intro h keyword hmem hne
      exact h _ ((hsearched _).mpr ⟨(hempty keyword).mpr hne, keyword, hmem, rfl⟩)
    · intro h searched hmem
      obtain ⟨hne, keyword, hkeyword, rfl⟩ := (hsearched searched).mp hmem
      exact h keyword hkeyword ((hempty keyword).mp hne)
  · rw [List.pairwise_map, hchosen]
    exact pairwise_windows harranged ..
  · obtain ⟨window, hwindow, rfl⟩ := List.mem_map.mp hmem
    rw [hchosen] at hwindow
    obtain ⟨o, ho, rfl⟩ := exists_of_mem_windows harranged _ _ hwindow
    exact portion_faithful hkeywords htags rfl ho

/-- Two fragments with escaped characters, the tags of two keywords, and blanks that are dropped. -/
theorem fragments_faithful_escaped :
    let options : Options :=
      { width := 9, maxResults := 2, skipLeadingSpaces := true, htmlEscape := true }
    let tags : List Tag := [⟨"<b>", "</b>"⟩, ⟨"<i>", "</i>"⟩]
    let snippet : Snippet := ⟨["c d", "x"].map String.toList, tags, options⟩
    let source := "<X> & c D \"e\"          x"
    let found := occurrences snippet.keywords (normalized options source.toList)
    make ["C d", "", "x", "X"] tags options = .ok snippet ∧
      snippet.fragments source = ["<b>X</b>&gt; &amp; <i>c D</i> ", "<b>x</b>"] ∧
      ∃ portions : List Portion,
        ["<b>X</b>&gt; &amp; <i>c D</i> ", "<b>x</b>"] =
          portions.map (·.written options source.toList) ∧
        ∀ portion ∈ portions, portion.Faithful snippet source.toList found := by
  intro options tags snippet source found
  have hmake : make ["C d", "", "x", "X"] tags options = .ok snippet := by decide +kernel
  have hfragments : snippet.fragments source =
      ["<b>X</b>&gt; &amp; <i>c D</i> ", "<b>x</b>"] := by cbv
  obtain ⟨_, _, portions, hportions, _, hfaithful⟩ := fragments_faithful hmake source
  rw [hfragments] at hportions
  exact ⟨hmake, hfragments, portions, hportions, hfaithful⟩

end RecordQuery.Snippet

import Mathlib.Data.List.Infix
import RecordQuery.Proofs.Text.Letter
import RecordQuery.Text.Case

/-!
# The lower case of parts

Lower case is made character by character but for capital sigmas, whose small form depends on the
characters around them.  So a part of a text has there the lower case that it has by itself if its
sigmas keep their form (`lowerFrom_infix_of_keepsSigmas`), and a text without final sigmas is
lowered one character at a time (`lowerFrom_eq_flatMap`).  One character at a time means one
character for one, but for the dotted capital I, which becomes two (`flatMap_lowerChar`).
-/

namespace RecordQuery.Text

/-! ## Single characters -/

theorem lowerChar_dotted : lowerChar 'İ' = ['i', '\u0307'] := by decide +kernel

theorem lowerSequences_lookup {c : Char} (hc : c ≠ 'İ') : lowerSequences.lookup c.toNat = none := by
  have hcode : c.toNat ≠ 304 := fun h => hc (by rw [← Char.ofNat_toNat c, h])
  rw [lowerSequences, List.lookup_cons, beq_false_of_ne hcode]
  rfl

/-- Every character but the dotted capital I becomes one character. -/
theorem lowerChar_eq_singleton {c : Char} (hc : c ≠ 'İ') : lowerChar c = [lowerSingle c] := by
  obtain ⟨lowered, hlowered⟩ : ∃ lowered, lowerChar c = [lowered] := by
    simp only [lowerChar, mapByTable, lowerSequences_lookup hc]
    split
    · exact ⟨_, rfl⟩
    · split
      · exact ⟨_, rfl⟩
      · exact ⟨_, rfl⟩
  rw [lowerSingle, hlowered]

theorem lowerChar_of_plain {c : Char} (hascii : isAscii c = true) (hupper : c.isUpper = false) :
    lowerChar c = [c] := by
  have hkept : c.toLower = c := dif_neg fun hcapital =>
    Bool.false_ne_true (hupper.symm.trans (decide_eq_true hcapital))
  rw [lowerChar, if_pos hascii, hkept]

theorem lowerRuns_contains_dotted :
    ∀ run ∈ lowerRuns, run.contains (304 - run.offset).toNat = false := by
  decide +kernel

theorem mapByRuns_ne_dotted {code : Nat} : mapByRuns lowerRuns code ≠ some 304 := by
  intro h
  obtain ⟨run, hfind, htarget⟩ := Option.map_eq_some_iff.mp h
  have hcontains : run.contains code = true := by simpa using List.find?_some hfind
  have hcode : code = (304 - run.offset).toNat := by
    unfold CaseRun.target at htarget
    omega
  rw [hcode, lowerRuns_contains_dotted run (List.mem_of_find?_eq_some hfind)] at hcontains
  exact Bool.false_ne_true hcontains

theorem eq_of_ofNat_eq_dotted {code : Nat} (h : Char.ofNat code = 'İ') : code = 304 := by
  by_cases hvalid : code.isValidChar
  · have hcode : Char.ofNat code = Char.ofNatAux code hvalid := dif_pos hvalid
    exact congrArg Char.toNat (hcode.symm.trans h)
  · have hnull : Char.ofNat code = '\x00' := dif_neg hvalid
    exact absurd (hnull.symm.trans h) (by decide)

theorem toLower_ne_dotted : ∀ n < 128, (Char.ofNat n).toLower ≠ 'İ' := by decide +kernel

/-- Only the dotted capital I stays a dotted capital I. -/
theorem lowerSingle_ne_dotted {c : Char} (hc : c ≠ 'İ') : lowerSingle c ≠ 'İ' := by
  intro h
  have hlowered : lowerChar c = ['İ'] := by rw [lowerChar_eq_singleton hc, h]
  simp only [lowerChar, mapByTable, lowerSequences_lookup hc] at hlowered
  split at hlowered
  · rename_i hascii
    have hne := toLower_ne_dotted c.toNat (isAscii_iff.mp hascii)
    rw [Char.ofNat_toNat] at hne
    exact hne (List.singleton_inj.mp hlowered)
  · split at hlowered
    · rename_i code hruns
      rw [eq_of_ofNat_eq_dotted (List.singleton_inj.mp hlowered)] at hruns
      exact mapByRuns_ne_dotted hruns
    · exact hc (List.singleton_inj.mp hlowered)

/-! ## Parts of texts -/

/-- Whether a cased character still precedes after reading a text. -/
def casedAfterAll (casedBefore : Bool) (text : List Char) : Bool :=
  text.foldl casedAfter casedBefore

/-- The lower case of a text with characters behind it. -/
def lowerWithin (casedBefore : Bool) (after : List Char) : List Char → List Char
  | [] => []
  | c :: rest =>
    (if c = 'Σ' then [lowerSigma casedBefore (rest ++ after)] else lowerChar c) ++
      lowerWithin (casedAfter casedBefore c) after rest

/-- The lower case of a text in front of another one is the first part of theirs. -/
theorem lowerFrom_append (casedBefore : Bool) (text after : List Char) :
    lowerFrom casedBefore (text ++ after) =
      lowerWithin casedBefore after text ++
        lowerFrom (casedAfterAll casedBefore text) after := by
  induction text generalizing casedBefore with
  | nil => rfl
  | cons c rest ih =>
      rw [List.cons_append, lowerFrom, ih, lowerWithin, List.append_assoc]
      rfl

theorem lowerWithin_nil (casedBefore : Bool) (text : List Char) :
    lowerWithin casedBefore [] text = lowerFrom casedBefore text := by
  have happend := lowerFrom_append casedBefore text []
  rw [List.append_nil, lowerFrom, List.append_nil] at happend
  exact happend.symm

/-! ## The forms of sigmas -/

/-- The small forms of the capital sigmas of a text with characters behind it. -/
def sigmasWithin (casedBefore : Bool) (after : List Char) : List Char → List Char
  | [] => []
  | c :: rest =>
    let later := sigmasWithin (casedAfter casedBefore c) after rest
    if c = 'Σ' then lowerSigma casedBefore (rest ++ after) :: later else later

/-- Whether the capital sigmas of a part of a text have there the small forms that they have in the
part by itself. -/
def KeepsSigmas (before part after : List Char) : Prop :=
  sigmasWithin (casedAfterAll false before) after part = sigmasWithin false [] part

instance (before part after : List Char) : Decidable (KeepsSigmas before part after) :=
  inferInstanceAs (Decidable
    (sigmasWithin (casedAfterAll false before) after part = sigmasWithin false [] part))

/-- Whether no capital sigma of a text becomes a final sigma. -/
def NoFinalSigma (text : List Char) : Prop := 'ς' ∉ sigmasWithin false [] text

instance (text : List Char) : Decidable (NoFinalSigma text) :=
  inferInstanceAs (Decidable ('ς' ∉ sigmasWithin false [] text))

theorem sigmasWithin_of_not_mem {casedBefore : Bool} {part after : List Char} (h : 'Σ' ∉ part) :
    sigmasWithin casedBefore after part = [] := by
  induction part generalizing casedBefore with
  | nil => rfl
  | cons c rest ih =>
      rw [List.mem_cons, not_or] at h
      rw [sigmasWithin, if_neg (Ne.symm h.1), ih h.2]

theorem keepsSigmas_of_not_mem {before part after : List Char} (h : 'Σ' ∉ part) :
    KeepsSigmas before part after :=
  (sigmasWithin_of_not_mem h).trans (sigmasWithin_of_not_mem h).symm

/-- Sigmas of the same forms make the same lower case. -/
theorem lowerWithin_congr {outer inner : Bool} {part after later : List Char}
    (h : sigmasWithin outer after part = sigmasWithin inner later part) :
    lowerWithin outer after part = lowerWithin inner later part := by
  induction part generalizing outer inner with
  | nil => rfl
  | cons c rest ih =>
      rw [sigmasWithin, sigmasWithin] at h
      rw [lowerWithin, lowerWithin]
      by_cases hc : c = 'Σ'
      · rw [if_pos hc, if_pos hc] at h
        obtain ⟨hfirst, hrest⟩ := List.cons.inj h
        rw [if_pos hc, if_pos hc, hfirst, ih hrest]
      · rw [if_neg hc, if_neg hc] at h
        rw [if_neg hc, if_neg hc, ih h]

theorem lowerFrom_infix_of_keepsSigmas {before part after : List Char}
    (h : KeepsSigmas before part after) :
    lowerFrom false part <:+: lowerFrom false (before ++ (part ++ after)) := by
  rw [lowerFrom_append, lowerFrom_append, lowerWithin_congr h, lowerWithin_nil, ← List.append_assoc]
  exact List.infix_append _ _ _

theorem lowerChar_sigma : lowerChar 'Σ' = ['σ'] := by decide +kernel

theorem lowerWithin_eq_flatMap {casedBefore : Bool} {text after : List Char}
    (h : 'ς' ∉ sigmasWithin casedBefore after text) :
    lowerWithin casedBefore after text = text.flatMap lowerChar := by
  induction text generalizing casedBefore with
  | nil => rfl
  | cons c rest ih =>
      rw [sigmasWithin] at h
      rw [lowerWithin, List.flatMap_cons]
      by_cases hc : c = 'Σ'
      · rw [if_pos hc, List.mem_cons, not_or] at h
        have hsmall : lowerSigma casedBefore (rest ++ after) = 'σ' := by
          unfold lowerSigma at h ⊢
          split at h
          · exact absurd rfl h.1
          · rw [if_neg ‹_›]
        rw [if_pos hc, hsmall, ih h.2, hc, lowerChar_sigma]
      · rw [if_neg hc] at h
        rw [if_neg hc, ih h]

theorem lowerFrom_eq_flatMap {text : List Char} (h : NoFinalSigma text) :
    lowerFrom false text = text.flatMap lowerChar := by
  rw [← lowerWithin_nil, lowerWithin_eq_flatMap h]

/-! ## Sigmas of one form -/

/-- A character with the small sigma in place of the final one. -/
def smallSigma (c : Char) : Char := if c = 'ς' then 'σ' else c

theorem map_smallSigma_lowerFrom (casedBefore : Bool) (text : List Char) :
    (lowerFrom casedBefore text).map smallSigma = (text.flatMap lowerChar).map smallSigma := by
  induction text generalizing casedBefore with
  | nil => rfl
  | cons c rest ih =>
      rw [lowerFrom, List.flatMap_cons, List.map_append, List.map_append, ih]
      by_cases hc : c = 'Σ'
      · subst hc
        rw [if_pos rfl, lowerChar_sigma, lowerSigma]
        split <;> rfl
      · rw [if_neg hc]

theorem map_smallSigma {text : List Char} (h : 'ς' ∉ text) : text.map smallSigma = text := by
  refine (List.map_congr_left fun c hc => ?_).trans (List.map_id text)
  exact if_neg (ne_of_mem_of_not_mem hc h)

/-- The form of sigmas does not matter to a search for a text without any. -/
theorem infix_map_smallSigma_iff {part whole : List Char} (hsmall : 'σ' ∉ part)
    (hfinal : 'ς' ∉ part) : part <:+: whole.map smallSigma ↔ part <:+: whole := by
  constructor
  · rintro ⟨before, after, hwhole⟩
    obtain ⟨front, back, rfl, hfront, _⟩ := List.map_eq_append_iff.mp hwhole.symm
    obtain ⟨first, found, rfl, _, hfound⟩ := List.map_eq_append_iff.mp hfront
    -- a final sigma among the found characters would have become a small one
    have hnone : 'ς' ∉ found := fun hmem =>
      hsmall (hfound ▸ List.mem_map_of_mem (f := smallSigma) hmem)
    rw [map_smallSigma hnone] at hfound
    exact ⟨first, back, by rw [hfound]⟩
  · intro h
    rw [← map_smallSigma hfinal]
    exact h.map smallSigma

theorem infix_lowerFrom_iff {part text : List Char} {casedBefore : Bool} (hsmall : 'σ' ∉ part)
    (hfinal : 'ς' ∉ part) :
    part <:+: lowerFrom casedBefore text ↔ part <:+: text.flatMap lowerChar := by
  rw [← infix_map_smallSigma_iff hsmall hfinal, map_smallSigma_lowerFrom,
    infix_map_smallSigma_iff hsmall hfinal]

/-! ## The dotted capital I -/

/-- What a character of a text becomes whose characters are lowered one for one. -/
def expanded (c : Char) : List Char := if c = 'İ' then ['i', '\u0307'] else [c]

@[simp] theorem expanded_dotted : expanded 'İ' = ['i', '\u0307'] := rfl

@[simp] theorem expanded_of_ne {c : Char} (hc : c ≠ 'İ') : expanded c = [c] := if_neg hc

/-- Lower case is made one for one, and then the dotted capital I becomes two characters. -/
theorem flatMap_lowerChar (text : List Char) :
    text.flatMap lowerChar = (text.map lowerSingle).flatMap expanded := by
  induction text with
  | nil => rfl
  | cons c rest ih =>
      rw [List.flatMap_cons, ih, List.map_cons, List.flatMap_cons]
      by_cases hc : c = 'İ'
      · subst hc
        rw [lowerChar_dotted]
        rfl
      · rw [lowerChar_eq_singleton hc, expanded_of_ne (lowerSingle_ne_dotted hc)]

theorem dotted_not_mem_map {text : List Char} (h : 'İ' ∉ text) : 'İ' ∉ text.map lowerSingle := by
  intro hmem
  obtain ⟨c, hc, hlowered⟩ := List.mem_map.mp hmem
  exact lowerSingle_ne_dotted (fun hdotted => h (hdotted ▸ hc)) hlowered

theorem flatMap_expanded {text : List Char} (h : 'İ' ∉ text) : text.flatMap expanded = text := by
  induction text with
  | nil => rfl
  | cons c rest ih =>
      rw [List.mem_cons, not_or] at h
      rw [List.flatMap_cons, ih h.2, expanded_of_ne (Ne.symm h.1)]
      rfl

theorem not_mem_flatMap_expanded {c : Char} {text : List Char} (hc : c ∉ ['i', '\u0307'])
    (h : c ∉ text) : c ∉ text.flatMap expanded := by
  intro hmem
  obtain ⟨d, hd, hexpanded⟩ := List.mem_flatMap.mp hmem
  unfold expanded at hexpanded
  split at hexpanded
  · exact hc hexpanded
  · exact h (List.mem_singleton.mp hexpanded ▸ hd)

/-- Whether no occurrence of a text in another one can be cut out of what dotted capital I's become
there, or mistake other characters for what its own become. -/
structure ClearOfDotted (part whole : List Char) : Prop where
  /-- The text does not begin with the second of the two characters. -/
  begins : ¬ ['\u0307'] <+: part
  /-- The text does not end with the first of them. -/
  ends : ¬ ['i'] <:+ part
  /-- The text does not have the two in a row. -/
  inside : ¬ ['i', '\u0307'] <:+: part
  /-- Nor does the other one if the text has a dotted capital I. -/
  whole : 'İ' ∈ part → ¬ ['i', '\u0307'] <:+: whole

section ClearOfDotted

variable {part whole : List Char}

/-- Only the dot itself becomes a text that begins with the dot. -/
theorem begins_dot_of_expanded {rest : List Char}
    (h : '\u0307' :: rest <+: whole.flatMap expanded) : ['\u0307'] <+: whole := by
  cases whole with
  | nil => exact absurd (List.prefix_nil.mp h) (List.cons_ne_nil _ _)
  | cons c whole =>
      rw [List.flatMap_cons] at h
      by_cases hc : c = 'İ'
      · rw [hc, expanded_dotted] at h
        exact absurd (List.cons_prefix_cons.mp h).1 (by decide)
      · rw [expanded_of_ne hc] at h
        rw [← (List.cons_prefix_cons.mp h).1]
        exact List.prefix_append ['\u0307'] whole

/-- What becomes the beginning of a text that begins with the dot is empty or begins with it. -/
theorem eq_nil_or_begins_dot {rest : List Char}
    (h : part.flatMap expanded <+: '\u0307' :: rest) : part = [] ∨ ['\u0307'] <+: part := by
  cases part with
  | nil => exact Or.inl rfl
  | cons d part =>
      rw [List.flatMap_cons] at h
      by_cases hd : d = 'İ'
      · rw [hd, expanded_dotted] at h
        exact absurd (List.cons_prefix_cons.mp h).1 (by decide)
      · rw [expanded_of_ne hd] at h
        rw [(List.cons_prefix_cons.mp h).1]
        exact Or.inr (List.prefix_append ['\u0307'] part)

/-- Texts begin alike that become texts which begin alike, where neither spells out a dotted
capital I that the other one has. -/
theorem prefix_of_expanded (hends : ¬ ['i'] <:+ part)
    (hinside : ¬ ['i', '\u0307'] <:+: part)
    (hwhole : 'İ' ∈ part → ¬ ['i', '\u0307'] <:+: whole)
    (h : part.flatMap expanded <+: whole.flatMap expanded) : part <+: whole := by
  induction part generalizing whole with
  | nil => exact List.nil_prefix
  | cons d part ih =>
      cases whole with
      | nil =>
          have hnil := List.prefix_nil.mp h
          by_cases hd : d = 'İ'
          · simp [hd] at hnil
          · simp [hd] at hnil
      | cons c whole =>
          have hlater (hpart : part.flatMap expanded <+: whole.flatMap expanded) :
              part <+: whole :=
            ih (fun hi => hends (hi.trans (List.suffix_cons d part)))
              (fun hi => hinside (List.infix_cons hi))
              (fun hmem hi => hwhole (List.mem_cons_of_mem d hmem) (List.infix_cons hi)) hpart
          rw [List.flatMap_cons, List.flatMap_cons] at h
          by_cases hd : d = 'İ'
          · subst hd
            by_cases hc : c = 'İ'
            · rw [hc, List.prefix_append_right_inj] at h
              exact List.cons_prefix_cons.mpr ⟨hc.symm, hlater h⟩
            · -- the text has an `i`, then a dot, where the part has both in one
              rw [expanded_dotted, expanded_of_ne hc] at h
              obtain ⟨rfl, hdot⟩ := List.cons_prefix_cons.mp h
              have hspelled : ['i', '\u0307'] <+: 'i' :: whole :=
                List.cons_prefix_cons.mpr ⟨rfl, begins_dot_of_expanded hdot⟩
              exact absurd hspelled.isInfix (hwhole List.mem_cons_self)
          · by_cases hc : c = 'İ'
            · -- the part has an `i`, then nothing or a dot, where the text has both in one
              rw [hc, expanded_dotted, expanded_of_ne hd] at h
              obtain ⟨rfl, hdot⟩ := List.cons_prefix_cons.mp h
              rcases eq_nil_or_begins_dot hdot with rfl | hdot
              · exact absurd List.suffix_rfl hends
              · exact absurd (List.cons_prefix_cons.mpr ⟨rfl, hdot⟩).isInfix hinside
            · rw [expanded_of_ne hd, expanded_of_ne hc] at h
              obtain ⟨rfl, hpart⟩ := List.cons_prefix_cons.mp h
              exact List.cons_prefix_cons.mpr ⟨rfl, hlater hpart⟩

/-- What dotted capital I's become adds no occurrence of a text that is clear of it. -/
theorem ClearOfDotted.infix_of_expanded_infix (hclear : ClearOfDotted part whole)
    (h : part.flatMap expanded <:+: whole.flatMap expanded) : part <:+: whole := by
  induction whole with
  | nil =>
      rw [List.flatMap_nil, List.infix_nil] at h
      exact (prefix_of_expanded hclear.ends hclear.inside hclear.whole (by rw [h]; rfl)).isInfix
  | cons c whole ih =>
      rw [List.infix_cons_iff]
      by_cases hprefix : part.flatMap expanded <+: (c :: whole).flatMap expanded
      · exact Or.inl
          (prefix_of_expanded hclear.ends hclear.inside hclear.whole hprefix)
      · have hlater (hpart : part.flatMap expanded <:+: whole.flatMap expanded) : part <:+: whole :=
          ih { hclear with whole := fun hmem hi => hclear.whole hmem (List.infix_cons hi) } hpart
        rw [List.flatMap_cons] at h hprefix
        by_cases hc : c = 'İ'
        · rw [hc, expanded_dotted] at h hprefix
          rcases List.infix_cons_iff.mp ((List.infix_cons_iff.mp h).resolve_left hprefix) with
            hdot | hrest
          · rcases eq_nil_or_begins_dot hdot with rfl | hdot
            · exact Or.inr List.nil_infix
            · exact absurd hdot hclear.begins
          · exact Or.inr (hlater hrest)
        · rw [expanded_of_ne hc] at h hprefix
          exact Or.inr (hlater ((List.infix_cons_iff.mp h).resolve_left hprefix))

end ClearOfDotted

end RecordQuery.Text

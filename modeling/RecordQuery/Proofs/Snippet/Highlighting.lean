import RecordQuery.Proofs.Snippet.Windows
import RecordQuery.Proofs.Value.Search
import RecordQuery.Regexp.Standard

/-!
# Highlighted texts are found texts

A search puts keyword and text in lower case, and a snippet lowers both one character for one.  So
what a snippet highlights is found, and what is found is highlighted but where a dotted capital I
becomes two characters (`Text.ClearOfDotted`), as long as no sigma ends a word.
-/

namespace RecordQuery.Snippet

variable {keyword text : String} {tags : List Tag} {options : Options}

/-! ## Snippets of one keyword -/

theorem normalized_ne_nil (options : Options) (hkeyword : keyword ≠ "") :
    normalized options keyword.toList ≠ [] := by
  rw [← List.length_pos_iff, length_normalized, List.length_pos_iff]
  exact fun h => hkeyword (String.toList_eq_nil_iff.mp h)

/-- The snippet of one keyword searches for this keyword alone. -/
theorem make_singleton (hkeyword : keyword ≠ "") (htags : tags ≠ []) (hwidth : 0 < options.width)
    (hlimit : 0 < options.maxResults) :
    make [keyword] tags options = .ok ⟨[normalized options keyword.toList], tags, options⟩ := by
  have hcheck : options.check = .ok () := by
    rw [Options.check, if_neg (Nat.ne_of_gt hwidth), if_neg (Nat.ne_of_gt hlimit)]
  have hnonempty : (normalized options keyword.toList).isEmpty = false :=
    List.isEmpty_eq_false_iff.mpr (normalized_ne_nil options hkeyword)
  rw [make, if_neg (by simpa using htags), hcheck]
  simp [hnonempty, distinct, addNew, Except.map]

theorem fragments_singleton_ne_nil_iff {searched : List Char} (hsearched : searched ≠ [])
    (hlimit : 0 < options.maxResults) :
    fragments ⟨[searched], tags, options⟩ text ≠ [] ↔
      searched <:+: normalized options text.toList := by
  have hkeywords : ∀ keyword ∈ [searched], keyword ≠ [] := by simpa using hsearched
  have harranged : Arranged [searched].length text.toList.length
      (occurrences [searched] (normalized options text.toList)) := by
    rw [← length_normalized options text.toList]
    exact arranged_occurrences hkeywords
  simp only [fragments, ne_eq, List.map_eq_nil_iff]
  rw [windows_eq_nil_iff harranged _ _ hlimit, occurrences_eq_nil_iff hkeywords]
  simp

/-! ## Searches and snippets -/

/-- A search compares what is lowered one for one with the dotted capital I's spelled out. -/
theorem occursIn_iff_expanded (hkeyword : Text.NoFinalSigma keyword.toList)
    (htext : Text.NoFinalSigma text.toList ∨
      'σ' ∉ keyword.toList.map Text.lowerSingle ∧ 'ς' ∉ keyword.toList.map Text.lowerSingle) :
    (Needle.ofKeyword keyword).occursIn text = true ↔
      (keyword.toList.map Text.lowerSingle).flatMap Text.expanded <:+:
        (text.toList.map Text.lowerSingle).flatMap Text.expanded := by
  rw [Needle.occursIn_iff, Text.lowerFrom_eq_flatMap hkeyword, Text.flatMap_lowerChar,
    ← Text.flatMap_lowerChar text.toList]
  rcases htext with htext | ⟨hsmall, hfinal⟩
  · rw [Text.lowerFrom_eq_flatMap htext]
  · exact Text.infix_lowerFrom_iff (Text.not_mem_flatMap_expanded (by decide) hsmall)
      (Text.not_mem_flatMap_expanded (by decide) hfinal)

/-- What a snippet of a keyword highlights is found by a search for the keyword, and what is found
is highlighted but for dotted capital I's that stand for two characters in one of the two. -/
theorem highlighted_iff_found [Regexp.Matcher] (hkeyword : keyword ≠ "") (htags : tags ≠ [])
    (hnormalize : options.normalize = true) (hwidth : 0 < options.width)
    (hlimit : 0 < options.maxResults) (hsigma : Text.NoFinalSigma keyword.toList)
    (htext : Text.NoFinalSigma text.toList ∨
      'σ' ∉ keyword.toList.map Text.lowerSingle ∧ 'ς' ∉ keyword.toList.map Text.lowerSingle) :
    ∃ snippet answer, make [keyword] tags options = .ok snippet ∧
      (Value.text text).SearchAnswers (.text keyword) answer ∧
      (snippet.fragments text ≠ [] → answer = true) ∧
      ('İ' ∉ keyword.toList ∧ 'İ' ∉ text.toList ∨
          Text.ClearOfDotted (keyword.toList.map Text.lowerSingle)
            (text.toList.map Text.lowerSingle) →
        (answer = true ↔ snippet.fragments text ≠ [])) := by
  have hnormalized (source : List Char) :
      normalized options source = source.map Text.lowerSingle := if_pos hnormalize
  have hfragments :
      fragments ⟨[normalized options keyword.toList], tags, options⟩ text ≠ [] ↔
        keyword.toList.map Text.lowerSingle <:+: text.toList.map Text.lowerSingle := by
    rw [fragments_singleton_ne_nil_iff (normalized_ne_nil options hkeyword) hlimit, hnormalized,
      hnormalized]
  have hhighlighted :
      fragments ⟨[normalized options keyword.toList], tags, options⟩ text ≠ [] →
        (Needle.ofKeyword keyword).occursIn text = true := by
    rw [hfragments, occursIn_iff_expanded hsigma htext]
    exact fun h => h.flatMap Text.expanded
  refine ⟨_, _, make_singleton hkeyword htags hwidth hlimit,
    Value.searchAnswers_occursIn rfl rfl, hhighlighted, fun hdotted => ⟨fun hfound => ?_,
    hhighlighted⟩⟩
  rw [occursIn_iff_expanded hsigma htext] at hfound
  rw [hfragments]
  rcases hdotted with ⟨hkeyword, htext⟩ | hclear
  · rwa [Text.flatMap_expanded (Text.dotted_not_mem_map hkeyword),
      Text.flatMap_expanded (Text.dotted_not_mem_map htext)] at hfound
  · exact hclear.infix_of_expanded_infix hfound

/-- A keyword with a dotted capital I, in a text with a final sigma. -/
theorem highlighted_iff_found_dotted :
    let keyword := "İstanbul"
    let text := "ΟΔΟΣ İSTANBUL"
    let options : Options := { width := 10, maxResults := 1 }
    let snippet : Snippet := ⟨["İstanbul".toList.map Text.lowerSingle], [⟨"[", "]"⟩], options⟩
    make [keyword] [⟨"[", "]"⟩] options = .ok snippet ∧ ¬ Text.NoFinalSigma text.toList ∧
      snippet.fragments text = ["Σ [İSTANBUL]"] ∧
      (Value.text text).SearchAnswers (.text keyword) true := by
  intro keyword text options snippet
  have hmake : make [keyword] [⟨"[", "]"⟩] options = .ok snippet := by decide +kernel
  have hfragments : snippet.fragments text = ["Σ [İSTANBUL]"] := by decide +kernel
  have hclear : Text.ClearOfDotted (keyword.toList.map Text.lowerSingle)
      (text.toList.map Text.lowerSingle) :=
    ⟨by decide +kernel, by decide +kernel, by decide +kernel, by decide +kernel⟩
  obtain ⟨_, answer, hmade, hanswer, _, hiff⟩ :=
    @highlighted_iff_found keyword text [⟨"[", "]"⟩] options Regexp.standard (by decide)
      (by decide) rfl (by decide) (by decide) (by decide +kernel)
      (Or.inr ⟨by decide +kernel, by decide +kernel⟩)
  obtain rfl := Except.ok.inj (hmake.symm.trans hmade)
  obtain rfl : answer = true := (hiff (Or.inr hclear)).mpr (by rw [hfragments]; exact nofun)
  exact ⟨hmake, by decide +kernel, hfragments, hanswer⟩

/-- The two characters that a dotted capital I becomes are found, and not highlighted. -/
theorem not_highlighted_iff_found :
    ∃ snippet, make ["i"] [⟨"[", "]"⟩] {} = .ok snippet ∧
      (Value.text "İ").SearchAnswers (.text "i") true ∧ snippet.fragments "İ" = [] := by
  have hfound : (Needle.ofKeyword "i").occursIn "İ" = true := by decide +kernel
  refine ⟨⟨[['i']], [⟨"[", "]"⟩], {}⟩, by decide +kernel, ?_, by decide +kernel⟩
  rw [← hfound]
  exact Value.searchAnswers_occursIn rfl rfl

end RecordQuery.Snippet

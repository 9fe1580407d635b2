import RecordQuery.Program.Op
import RecordQuery.Proofs.Text.Encoding
import RecordQuery.Proofs.Text.Lowering
import RecordQuery.Regexp.Standard

/-!
# Searching values for keywords

A keyword is found in a text just if the lower case of the one is part of the lower case of the
other (`Needle.occursIn_iff`).  That a keyword stands in a text is enough for this only if the
sigmas that end words in the keyword end words in the text too, and the other way round.
-/

namespace RecordQuery

/-! ## Needles -/

namespace Needle

/-- What is plain is its own lower case. -/
theorem lowerFrom_of_isPlain {text : List Char} {casedBefore : Bool}
    (h : ∀ c ∈ text, Text.isAscii c = true ∧ c.isUpper = false) :
    Text.lowerFrom casedBefore text = text := by
  induction text generalizing casedBefore with
  | nil => rfl
  | cons c rest ih =>
      rw [List.forall_mem_cons] at h
      have hsigma : c ≠ 'Σ' := fun hc => absurd (hc ▸ h.1.1) (by decide)
      rw [Text.lowerFrom, if_neg hsigma, Text.lowerChar_of_plain h.1.1 h.1.2, ih h.2]
      rfl

theorem lower_of_isPlain {text : String} (h : isPlain text = true) : Text.lower text = text := by
  have hplain : ∀ c ∈ text.toList, Text.isAscii c = true ∧ c.isUpper = false := by
    simpa [isPlain] using h
  rw [Text.lower, lowerFrom_of_isPlain hplain, String.ofList_toList]

theorem toList_lower (text : String) :
    (Text.lower text).toList = Text.lowerFrom false text.toList :=
  String.toList_ofList

theorem occursIn_eq (needle : Needle) (text : String) :
    needle.occursIn text = Text.occursIn (bytes needle.text) (bytes (Text.lower text)) := by
  unfold occursIn
  split
  · rename_i hplain
    rw [lower_of_isPlain hplain]
  · rfl

theorem occursIn_iff {keyword text : String} :
    (ofKeyword keyword).occursIn text = true ↔
      Text.lowerFrom false keyword.toList <:+: Text.lowerFrom false text.toList := by
  rw [occursIn_eq, Text.occursIn_iff, bytes_infix_iff, ofKeyword, toList_lower, toList_lower]

/-- Searching bytes is searching characters: a keyword is found just if its characters in lower case
stand in a row in the text in lower case.  A plain text is searched as it is, and is its own lower
case.  Wherever the bytes of the keyword are met, they begin and end with characters of the text;
only an empty keyword, which is found in front of everything, would stand between any two bytes. -/
theorem occursIn_characters (keyword text : String) :
    ((ofKeyword keyword).occursIn text = true ↔
        (Text.lower keyword).toList <:+: (Text.lower text).toList) ∧
      (isPlain text = true → Text.lower text = text) ∧
      (ofKeyword keyword).occursIn text =
        Text.occursIn (bytes (Text.lower keyword)) (bytes (Text.lower text)) ∧
      ∀ left right, bytes (Text.lower text) = left ++ (bytes (Text.lower keyword) ++ right) →
        (Text.lower keyword = "" → left = []) →
        ∃ before after, Text.lower text = before ++ (Text.lower keyword ++ after) ∧
          bytes before = left ∧ bytes after = right := by
  refine ⟨?_, lower_of_isPlain, occursIn_eq _ text, fun left right => exists_of_bytes_eq⟩
  rw [toList_lower, toList_lower]
  exact occursIn_iff

/-- A letter of two bytes in the middle of a word, and a plain word. -/
theorem occursIn_characters_accented :
    (ofKeyword "É").occursIn "CAFÉS" = true ∧ Text.lower "cafes" = "cafes" ∧
      ∃ before after, Text.lower "CAFÉS" = before ++ (Text.lower "É" ++ after) ∧
        bytes before = [99, 97, 102] ∧ bytes after = [115] := by
  obtain ⟨hfound, _, _, hplace⟩ := occursIn_characters "É" "CAFÉS"
  have hinfix : (Text.lower "É").toList <:+: (Text.lower "CAFÉS").toList := by decide +kernel
  have hbytes : bytes (Text.lower "CAFÉS") =
      [99, 97, 102] ++ (bytes (Text.lower "É") ++ [115]) := by decide +kernel
  have hsome : Text.lower "É" ≠ "" := by decide +kernel
  exact ⟨hfound.mpr hinfix, (occursIn_characters "É" "cafes").2.1 (by decide),
    hplace _ _ hbytes fun hempty => absurd hempty hsome⟩

end Needle

/-! ## Values -/

namespace Value

/-- Whether the search for a keyword in a value has an answer, be the keyword another value on the
stack or part of the program. -/
structure SearchAnswers [Regexp.Matcher] (subject keyword : Value) (answer : Bool) : Prop where
  onStack : Binary.contains.apply subject keyword = .ok (.boolean answer)
  inProgram : ∀ k, keyword.searchText? = some k →
    subject.containsNeedle (.ofKeyword k) = .boolean answer

section Search

variable {subject keyword : Value} {s k : String}

theorem testTexts_eq (hs : subject.searchText? = some s) (hk : keyword.searchText? = some k)
    (test : String → String → Bool) : subject.testTexts test keyword = .boolean (test s k) := by
  rw [testTexts, hs, hk]

theorem searchAnswers_occursIn [Regexp.Matcher] (hs : subject.searchText? = some s)
    (hk : keyword.searchText? = some k) :
    subject.SearchAnswers keyword ((Needle.ofKeyword k).occursIn s) := by
  refine ⟨congrArg Except.ok (testTexts_eq hs hk _), fun k' hk' => ?_⟩
  obtain rfl := Option.some.inj (hk.symm.trans hk')
  rw [containsNeedle, hs]

/-- A keyword is found where it keeps its sigmas. -/
theorem searchAnswers_of_keepsSigmas [Regexp.Matcher] (hs : subject.searchText? = some s)
    (hk : keyword.searchText? = some k) {before after : List Char}
    (hpart : s.toList = before ++ (k.toList ++ after))
    (hsigmas : Text.KeepsSigmas before k.toList after) : subject.SearchAnswers keyword true := by
  have hfound : (Needle.ofKeyword k).occursIn s = true := by
    rw [Needle.occursIn_iff, hpart]
    exact Text.lowerFrom_infix_of_keepsSigmas hsigmas
  rw [← hfound]
  exact searchAnswers_occursIn hs hk

theorem startsWith_eq_true [Regexp.Matcher] (hs : subject.searchText? = some s)
    (hk : keyword.searchText? = some k)
    (h : Binary.startsWith.apply subject keyword = .ok (.boolean true)) :
    k.toList <+: s.toList := by
  rw [Binary.apply, testTexts_eq hs hk] at h
  exact List.isPrefixOf_iff_prefix.mp (Value.boolean.inj (Except.ok.inj h))

theorem endsWith_eq_true [Regexp.Matcher] (hs : subject.searchText? = some s)
    (hk : keyword.searchText? = some k)
    (h : Binary.endsWith.apply subject keyword = .ok (.boolean true)) :
    k.toList <:+ s.toList := by
  rw [Binary.apply, testTexts_eq hs hk] at h
  exact List.isSuffixOf_iff_suffix.mp (Value.boolean.inj (Except.ok.inj h))

/-- A search finds every keyword that stands in a text, at its start, at its end or inside, if the
sigmas of the keyword have the form there that they have in the keyword; this is so of every keyword
without a capital sigma. -/
theorem searchAnswers_of_part [Regexp.Matcher] (hs : subject.searchText? = some s)
    (hk : keyword.searchText? = some k) :
    (∀ before after, s.toList = before ++ (k.toList ++ after) →
      Text.KeepsSigmas before k.toList after → subject.SearchAnswers keyword true) ∧
    (Binary.startsWith.apply subject keyword = .ok (.boolean true) →
      Text.KeepsSigmas [] k.toList (s.toList.drop k.toList.length) →
      subject.SearchAnswers keyword true) ∧
    (Binary.endsWith.apply subject keyword = .ok (.boolean true) →
      Text.KeepsSigmas (s.toList.take (s.toList.length - k.toList.length)) k.toList [] →
      subject.SearchAnswers keyword true) ∧
    ('Σ' ∉ k.toList → k.toList <:+: s.toList → subject.SearchAnswers keyword true) := by
  refine ⟨fun before after => searchAnswers_of_keepsSigmas hs hk, fun hstart hsigmas => ?_,
    fun hend hsigmas => ?_, fun hsigma hinfix => ?_⟩
  · have hparts := List.prefix_iff_eq_append.mp (startsWith_eq_true hs hk hstart)
    exact searchAnswers_of_keepsSigmas hs hk hparts.symm hsigmas
  · have hparts := List.suffix_iff_eq_append.mp (endsWith_eq_true hs hk hend)
    refine searchAnswers_of_keepsSigmas hs hk ?_ hsigmas
    rw [List.append_nil, hparts]
  · obtain ⟨before, after, hparts⟩ := hinfix
    rw [List.append_assoc] at hparts
    exact searchAnswers_of_keepsSigmas hs hk hparts.symm (Text.keepsSigmas_of_not_mem hsigma)

/-- A keyword whose last letter is a final sigma, in the text and by itself. -/
theorem searchAnswers_of_part_final :
    Binary.startsWith.apply (.text "ΟΔΟΣ ΕΡΜΟΥ") (.text "ΟΔΟΣ") = .ok (.boolean true) ∧
      (text "ΟΔΟΣ ΕΡΜΟΥ").SearchAnswers (.text "ΟΔΟΣ") true := by
  have hstart : Binary.startsWith.apply (.text "ΟΔΟΣ ΕΡΜΟΥ") (.text "ΟΔΟΣ") =
      .ok (.boolean true) := by decide +kernel
  have hsigmas : Text.KeepsSigmas [] "ΟΔΟΣ".toList
      ("ΟΔΟΣ ΕΡΜΟΥ".toList.drop "ΟΔΟΣ".toList.length) := by decide +kernel
  exact ⟨hstart, (searchAnswers_of_part rfl rfl).2.1 hstart hsigmas⟩

/-- A sigma that ends a word is not found by a sigma alone, which ends none. -/
theorem not_searchAnswers_of_part :
    "Σ".toList <:+: "ΑΣ".toList ∧
      Binary.endsWith.apply (.text "ΑΣ") (.text "Σ") = .ok (.boolean true) ∧
      (text "ΑΣ").SearchAnswers (.text "Σ") false := by
  have hnone : (Needle.ofKeyword "Σ").occursIn "ΑΣ" = false := by decide +kernel
  refine ⟨by decide, by decide +kernel, ?_⟩
  rw [← hnone]
  exact searchAnswers_occursIn rfl rfl

end Search

end Value

end RecordQuery

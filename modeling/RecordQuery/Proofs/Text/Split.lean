import RecordQuery.Text.Split

/-!
# Cuts at separators

The first separator is where a text is cut in two (`splitFirst_append`), and between separators
every character of a text is kept (`mem_splitAll`) and no separator is (`notMem_of_mem_splitAll`).
A part that is put behind a text and a separator is the last one (`splitAll_append`); so what
follows the last dot of a name is told by it (`afterLastDot_append`).
-/

namespace RecordQuery.Text

/-- A text is cut at a separator that is none of the characters before it. -/
theorem splitFirst_append {separator : Char} {before : List Char} (h : ∀ c ∈ before, c ≠ separator)
    (after : List Char) :
    splitFirst separator (before ++ separator :: after) = some (before, after) := by
  induction before with
  | nil => simp [splitFirst]
  | cons c before ih =>
      have hc : c ≠ separator := h c (by simp)
      have hrest := ih fun d hd => h d (by simp [hd])
      rw [List.cons_append, splitFirst, if_neg hc, hrest]
      rfl

/-- Before the cut there is no separator. -/
theorem notMem_of_splitFirst {separator : Char} {text before after : List Char}
    (h : splitFirst separator text = some (before, after)) : separator ∉ before := by
  induction text generalizing before with
  | nil => cases h
  | cons c rest ih =>
      rw [splitFirst] at h
      split at h
      · cases h
        exact List.not_mem_nil
      · rename_i hc
        obtain ⟨⟨kept, later⟩, hrest, heq⟩ := Option.map_eq_some_iff.mp h
        cases heq
        exact List.not_mem_cons_of_ne_of_not_mem (Ne.symm hc) (ih hrest)

theorem splitAll_ne_nil (separator : Char) (text : List Char) : splitAll separator text ≠ [] := by
  cases text with
  | nil => simp [splitAll]
  | cons c rest =>
      unfold splitAll
      split
      · simp
      · split <;> simp

theorem splitAll_of_notMem {separator : Char} {text : List Char}
    (h : ∀ c ∈ text, c ≠ separator) : splitAll separator text = [text] := by
  induction text with
  | nil => rfl
  | cons c rest ih =>
      have hrest := ih fun d hd => h d (List.mem_cons_of_mem _ hd)
      simp [splitAll, hrest, h c (List.mem_cons_self ..)]

/-- A character is a separator or belongs to a part between separators. -/
theorem mem_splitAll (separator : Char) {text : List Char} {c : Char} (h : c ∈ text) :
    c = separator ∨ ∃ part ∈ splitAll separator text, c ∈ part := by
  induction text with
  | nil => cases h
  | cons d rest ih =>
      obtain ⟨part, parts, hparts⟩ :=
        List.exists_cons_of_ne_nil (splitAll_ne_nil separator rest)
      rw [hparts] at ih
      simp only [splitAll, hparts]
      by_cases hd : d = separator
      · rw [if_pos hd]
        rcases List.mem_cons.mp h with rfl | hrest
        · exact Or.inl hd
        · rcases ih hrest with hc | ⟨inner, hinner, hc⟩
          · exact Or.inl hc
          · exact Or.inr ⟨inner, List.mem_cons_of_mem _ hinner, hc⟩
      · rw [if_neg hd]
        rcases List.mem_cons.mp h with rfl | hrest
        · exact Or.inr ⟨c :: part, by simp, by simp⟩
        · rcases ih hrest with hc | ⟨inner, hinner, hc⟩
          · exact Or.inl hc
          · rcases List.mem_cons.mp hinner with rfl | hlater
            · exact Or.inr ⟨d :: inner, by simp, by simp [hc]⟩
            · exact Or.inr ⟨inner, List.mem_cons_of_mem _ hlater, hc⟩

/-- No part between separators has one. -/
theorem notMem_of_mem_splitAll {separator : Char} {text part : List Char}
    (h : part ∈ splitAll separator text) : separator ∉ part := by
  induction text generalizing part with
  | nil =>
      rw [List.mem_singleton.mp h]
      exact List.not_mem_nil
  | cons c rest ih =>
      obtain ⟨first, parts, hparts⟩ :=
        List.exists_cons_of_ne_nil (splitAll_ne_nil separator rest)
      rw [hparts] at ih
      simp only [splitAll, hparts] at h
      by_cases hc : c = separator
      · rw [if_pos hc] at h
        rcases List.mem_cons.mp h with rfl | hlater
        · exact List.not_mem_nil
        · exact ih hlater
      · rw [if_neg hc] at h
        rcases List.mem_cons.mp h with rfl | hlater
        · exact List.not_mem_cons_of_ne_of_not_mem (Ne.symm hc) (ih (List.mem_cons_self ..))
        · exact ih (List.mem_cons_of_mem _ hlater)

/-- Behind a last part without a separator nothing more is cut. -/
theorem splitAll_append {separator : Char} {last : List Char} (hlast : ∀ c ∈ last, c ≠ separator)
    (text : List Char) :
    splitAll separator (text ++ separator :: last) = splitAll separator text ++ [last] := by
  induction text with
  | nil =>
      have hwhole : splitAll separator last = [last] := splitAll_of_notMem hlast
      simp [splitAll, hwhole]
  | cons c text ih =>
      obtain ⟨part, parts, hparts⟩ :=
        List.exists_cons_of_ne_nil (splitAll_ne_nil separator text)
      rw [List.cons_append, splitAll, splitAll, ih, hparts, List.cons_append]
      by_cases hc : c = separator
      · simp [hc]
      · simp [hc]

/-! ## Names with dots -/

theorem notMem_afterLastDot (name : String) : '.' ∉ (afterLastDot name).toList := by
  have hsegments : segments name ≠ [] := fun hnil =>
    splitAll_ne_nil '.' name.toList (List.map_eq_nil_iff.mp hnil)
  have hlast : afterLastDot name = (segments name).getLast hsegments := by
    rw [afterLastDot, List.getLastD_eq_getLast?, List.getLast?_eq_some_getLast hsegments,
      Option.getD_some]
  obtain ⟨part, hpart, heq⟩ := List.mem_map.mp (List.getLast_mem hsegments)
  rw [hlast, ← heq, String.toList_ofList]
  exact notMem_of_mem_splitAll hpart

theorem afterLastDot_append {last : String} (hlast : '.' ∉ last.toList) (text : String) :
    afterLastDot (text ++ "." ++ last) = last := by
  have hlist : (text ++ "." ++ last).toList = text.toList ++ '.' :: last.toList := by simp
  have hparts : splitAll '.' (text.toList ++ '.' :: last.toList) =
      splitAll '.' text.toList ++ [last.toList] :=
    splitAll_append (fun c hc => ne_of_mem_of_not_mem hc hlast) text.toList
  rw [afterLastDot, segments, hlist, hparts, List.map_append, List.map_singleton,
    List.getLastD_concat, String.ofList_toList]

end RecordQuery.Text

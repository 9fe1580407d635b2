import Mathlib.Data.List.Induction
import RecordQuery.Snippet.Basic

/-!
# Lists without repetitions

`distinct` keeps the members of a list at their first places, which is what the library calls
`List.eraseDups`.  The place of a member is the number of members that come up before it.
-/

namespace RecordQuery.Snippet

variable {α : Type} [BEq α] [LawfulBEq α]

/-- A new member behind others is kept, an old one is dropped. -/
theorem eraseDups_concat (xs : List α) (x : α) :
    (xs ++ [x]).eraseDups = addNew xs.eraseDups x := by
  rw [List.eraseDups_append, addNew]
  by_cases hmem : x ∈ xs
  · have hold : [x].removeAll xs = [] := by simp [List.removeAll, hmem]
    have hcontains : xs.eraseDups.contains x = true := by simpa using hmem
    rw [hold, if_pos hcontains, List.eraseDups_nil, List.append_nil]
  · have hnew : [x].removeAll xs = [x] := by simp [List.removeAll, hmem]
    have hcontains : ¬ xs.eraseDups.contains x = true := by simpa using hmem
    rw [hnew, if_neg hcontains]
    rfl

theorem distinct_eq_eraseDups (xs : List α) : distinct xs = xs.eraseDups := by
  induction xs using List.reverseRecOn with
  | nil => rfl
  | append_singleton xs x ih =>
      rw [eraseDups_concat, ← ih, distinct, distinct, List.foldl_append]
      rfl

theorem eraseDups_sublist (xs : List α) : xs.eraseDups.Sublist xs := by
  induction xs using List.reverseRecOn with
  | nil => exact List.Sublist.refl _
  | append_singleton xs x ih =>
      rw [eraseDups_concat, addNew]
      split
      · exact ih.trans (List.sublist_append_left ..)
      · exact ih.append (List.Sublist.refl _)

theorem nodup_eraseDups (xs : List α) : xs.eraseDups.Nodup := by
  induction xs using List.reverseRecOn with
  | nil => exact List.nodup_nil
  | append_singleton xs x ih =>
      rw [eraseDups_concat, addNew]
      split
      · exact ih
      · rename_i hnew
        have hmem : x ∉ xs.eraseDups := fun hmem => hnew (List.contains_iff_mem.mpr hmem)
        refine List.nodup_append.mpr ⟨ih, List.pairwise_singleton .., fun y hy z hz => ?_⟩
        obtain rfl := List.mem_singleton.mp hz
        exact fun h => hmem (h ▸ hy)

theorem filter_eraseDups (condition : α → Bool) (xs : List α) :
    xs.eraseDups.filter condition = (xs.filter condition).eraseDups := by
  induction xs using List.reverseRecOn with
  | nil => rfl
  | append_singleton xs x ih =>
      rw [eraseDups_concat, List.filter_append]
      by_cases hx : condition x = true
      · have hmem : (xs.eraseDups.filter condition).contains x = xs.eraseDups.contains x := by
          rw [Bool.eq_iff_iff, List.contains_iff_mem, List.contains_iff_mem, List.mem_filter]
          exact ⟨And.left, fun h => ⟨h, hx⟩⟩
        rw [List.filter_cons_of_pos hx, List.filter_nil, eraseDups_concat, ← ih, addNew, addNew,
          hmem]
        split
        · rfl
        · rw [List.filter_append, List.filter_cons_of_pos hx, List.filter_nil]
      · rw [List.filter_cons_of_neg hx, List.filter_nil, List.append_nil, ← ih, addNew]
        split
        · rfl
        · rw [List.filter_append, List.filter_cons_of_neg hx, List.filter_nil, List.append_nil]

/-- As many members stand before a member as come up before it. -/
theorem idxOf_eraseDups {xs : List α} {x : α} (h : x ∈ xs) :
    xs.eraseDups.idxOf x = (xs.takeWhile (· != x)).eraseDups.length := by
  obtain ⟨before, after, rfl, hfirst⟩ := List.eq_append_cons_of_mem h
  have htaken : (before ++ x :: after).takeWhile (· != x) = before := by
    rw [List.takeWhile_append_of_pos, List.takeWhile_cons_of_neg, List.append_nil]
    · simp
    · exact fun y hy => bne_iff_ne.mpr fun hyx => hfirst (hyx ▸ hy)
  have hnew : (x :: after).removeAll before = x :: after.removeAll before := by
    simp [List.removeAll, hfirst]
  have hnotMem : x ∉ before.eraseDups := fun hmem => hfirst (List.mem_eraseDups.mp hmem)
  rw [htaken, List.eraseDups_append, hnew, List.eraseDups_cons, List.idxOf_append,
    if_neg hnotMem, List.idxOf_cons_self, Nat.zero_add]

end RecordQuery.Snippet

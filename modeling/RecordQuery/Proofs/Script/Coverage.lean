import RecordQuery.Proofs.Script.Positions

/-!
# Scripts covered by their tokens

Reading goes from one boundary of a script to the next: `boundary i` characters have been taken with
the first `i` tokens.  From a boundary to the place of the next token there are blanks only
(`StandsIn.blanks`), and the token goes on to the next boundary, past at least one character unless
it marks the end (`StandsIn.takes`).

So the tokens before the end take the script forward, there are no more of them than characters, and
they and the blanks between them are the whole script (`tokens_cover`).  At the end nothing is left
to be skipped or taken, and the token that marks it comes for ever.
-/

namespace RecordQuery.Script

open Text (Position)

variable {script : List Char} {cursor : Cursor}

/-! ## How far a cursor is moved -/

theorem offset_step (p : Position) (c : Char) : (step p c).offset = p.offset + 1 := by
  unfold step
  split
  · rfl
  · exact Position.offset_advance p c

theorem offset_stepAll (p : Position) (text : List Char) :
    (stepAll p text).offset = p.offset + text.length := by
  induction text generalizing p with
  | nil => rfl
  | cons c rest ih =>
      have hstep : stepAll p (c :: rest) = stepAll (step p c) rest := rfl
      rw [hstep, ih, offset_step, List.length_cons]
      omega

theorem Cursor.offset_skip (cursor : Cursor) (count : Nat) :
    (cursor.skip count).position.offset =
      cursor.position.offset + min count cursor.rest.length := by
  rw [skip, offset_stepAll, List.length_take]

theorem Cursor.StandsIn.extract_skip (h : cursor.StandsIn script) (count : Nat) :
    script.extract cursor.position.offset (cursor.skip count).position.offset =
      cursor.rest.take count := by
  rw [List.extract_eq_take_drop, h.position_eq.1, Cursor.offset_skip, Nat.add_sub_cancel_left,
    ← List.take_take, List.take_length]

/-! ## What is skipped and what is taken -/

/-- Only blanks are skipped before a token. -/
theorem Cursor.StandsIn.blanks (h : cursor.StandsIn script) :
    cursor.position.offset ≤ cursor.next.1.position.offset ∧
      ∀ c ∈ script.extract cursor.position.offset cursor.next.1.position.offset,
        Text.isBlank c = true := by
  rw [h.next.1, Cursor.skipBlanks]
  refine ⟨?_, fun c hmem => ?_⟩
  · rw [Cursor.offset_skip]
    exact Nat.le_add_right _ _
  · have hblanks : cursor.rest.takeWhile Text.isBlank =
        cursor.rest.take (cursor.rest.takeWhile Text.isBlank).length :=
      List.prefix_iff_eq_take.mp (List.takeWhile_prefix _)
    rw [h.extract_skip, ← hblanks] at hmem
    exact List.mem_takeWhile_imp hmem

/-- Only at the end of the text the token marks the end. -/
theorem Cursor.isFinish_next_iff :
    cursor.next.1.isFinish = true ↔ cursor.skipBlanks.rest = [] := by
  cases hrest : cursor.skipBlanks.rest with
  | nil => simp [next_of_nil hrest, Token.isFinish]
  | cons c rest => simpa [next_of_cons hrest, Token.isFinish] using (readToken_takes c rest).2

theorem Cursor.StandsIn.offset_of_isFinish (h : cursor.StandsIn script)
    (hfinish : cursor.next.1.isFinish = true) :
    cursor.next.1.position.offset = script.length := by
  obtain ⟨hrest, hoffset, -⟩ := h.skipBlanks.position_eq
  rw [Cursor.isFinish_next_iff.mp hfinish, List.drop_eq_nil_iff] at hrest
  rw [h.next.1]
  exact Nat.le_antisymm hoffset hrest

/-- Behind the end the same token is read again, and the cursor stays. -/
theorem Cursor.next_next_of_isFinish (hfinish : cursor.next.1.isFinish = true) :
    cursor.next.2.next = cursor.next := by
  have hrest := isFinish_next_iff.mp hfinish
  have hblanks : cursor.skipBlanks.skipBlanks = cursor.skipBlanks := by
    rw [skipBlanks, hrest, List.takeWhile_nil, List.length_nil, skip, List.take_zero,
      List.drop_zero]
    rfl
  calc cursor.next.2.next = cursor.skipBlanks.next := by rw [next_of_nil hrest]
    _ = (⟨.finish, "", cursor.skipBlanks.position⟩, cursor.skipBlanks) := by
        rw [next_of_nil (by rw [hblanks, hrest]), hblanks]
    _ = cursor.next := (next_of_nil hrest).symm

theorem operatorSpelling_starts (first : Char) (rest : List Char) :
    operatorSpelling first rest <+: first :: rest := by
  unfold operatorSpelling
  split
  · split
    · exact ⟨_, rfl⟩
    · exact ⟨_, rfl⟩
  · exact List.prefix_refl _

/-- A token is spelled as the characters that it takes, unless it is a string or the beginning of
one. -/
theorem readToken_spelling (c : Char) (rest : List Char) :
    (readToken c rest).1 = .string ∨ (readToken c rest).1 = .bad .unterminatedString ∨
      (readToken c rest).2.1 = (c :: rest).take (readToken c rest).2.2 := by
  unfold readToken
  split
  · simp only
    split
    · exact Or.inl rfl
    · exact Or.inr (Or.inl rfl)
  · refine Or.inr (Or.inr ?_)
    split
    · rfl
    · split
      · rfl
      · split
        · exact List.prefix_iff_eq_take.mp (operatorSpelling_starts c rest)
        · split
          · exact List.prefix_iff_eq_take.mp
              (List.cons_prefix_cons.mpr ⟨rfl, List.takeWhile_prefix _⟩)
          · rfl

/-- Whether a token that is no string is spelled as a script has it between two offsets.  Strings,
open ones as well, are spelled without their escapes. -/
def Token.SpelledBetween (token : Token) (script : List Char) (start stop : Nat) : Prop :=
  token.kind = .string ∨ token.kind = .bad .unterminatedString ∨
    token.spelling = String.ofList (script.extract start stop)

/-- A token before the end takes at least one character, and is spelled as it stands there. -/
theorem Cursor.StandsIn.takes (h : cursor.StandsIn script)
    (hfinish : cursor.next.1.isFinish = false) :
    cursor.next.1.position.offset < cursor.next.2.position.offset ∧
      cursor.next.1.SpelledBetween script cursor.next.1.position.offset
        cursor.next.2.position.offset := by
  cases hrest : cursor.skipBlanks.rest with
  | nil => simp [Cursor.isFinish_next_iff.mpr hrest] at hfinish
  | cons c rest =>
      have hlength := (readToken_takes c rest).1
      rw [Cursor.next_of_cons hrest]
      refine ⟨?_, (readToken_spelling c rest).imp_right (Or.imp_right fun hspelling => ?_)⟩
      · rw [Cursor.offset_skip, hrest, List.length_cons]
        exact Nat.lt_add_of_pos_right (Nat.lt_min.mpr ⟨hlength, Nat.succ_pos _⟩)
      · rw [h.skipBlanks.extract_skip, hrest, hspelling]

/-! ## Tokens one behind the other -/

namespace Cursor

/-- The number of characters that are taken with a number of tokens. -/
def boundary (cursor : Cursor) (count : Nat) : Nat := (cursor.behindTokens count).position.offset

theorem behindTokens_succ (count : Nat) (cursor : Cursor) :
    cursor.behindTokens (count + 1) = (cursor.behindTokens count).next.2 := by
  induction count generalizing cursor with
  | zero => rfl
  | succ count ih => exact ih cursor.next.2

/-- From the end on the same token is read. -/
theorem token_of_isFinish {count i : Nat} (hfinish : (cursor.token count).isFinish = true)
    (hle : count ≤ i) : cursor.token i = cursor.token count := by
  have hnext : (cursor.behindTokens i).next = (cursor.behindTokens count).next := by
    induction i, hle using Nat.le_induction with
    | base => rfl
    | succ i _ ih =>
        rw [behindTokens_succ, ih]
        exact next_next_of_isFinish hfinish
  exact congrArg Prod.fst hnext

end Cursor

/-- A script of `n` characters is read in at most `n` tokens and the one that marks the end at
offset `n`, which from then on comes for ever.  A token before the end takes at least one character,
from its offset to the next boundary; from a boundary to the offset of the next token there are only
blanks; and so the offsets increase up to the end. -/
theorem tokens_cover (script : String) :
    let text := script.toList
    let cursor := Cursor.start text
    let offset i := (cursor.token i).position.offset
    ∃ count ≤ text.length,
      tokenize script = (List.range (count + 1)).map cursor.token ∧
      (∀ i < count, (cursor.token i).isFinish = false ∧ offset i < cursor.boundary (i + 1) ∧
        (cursor.token i).SpelledBetween text (offset i) (cursor.boundary (i + 1))) ∧
      cursor.boundary 0 = 0 ∧
      (∀ i, cursor.boundary i ≤ offset i ∧
        ∀ c ∈ text.extract (cursor.boundary i) (offset i), Text.isBlank c = true) ∧
      (∀ i j, i < j → j ≤ count → offset i < offset j) ∧
      (cursor.token count).isFinish = true ∧ offset count = text.length ∧
      ∀ i, count ≤ i → cursor.token i = cursor.token count := by
  intro text cursor offset
  obtain ⟨count, hcount, htokens, hinner, hlast⟩ := cursor.exists_tokens_eq (Nat.le_refl _)
  have hstands (i : Nat) := (Cursor.standsIn_start text).behindTokens i
  have hblanks (i : Nat) := (hstands i).blanks
  have htakes (i : Nat) (hi : i < count) := (hstands i).takes (hinner i hi)
  -- Behind a token there is the next boundary.
  simp only [← Cursor.behindTokens_succ] at htakes
  have hincreases (i : Nat) (hi : i < count) : offset i < offset (i + 1) :=
    calc offset i < cursor.boundary (i + 1) := (htakes i hi).1
      _ ≤ offset (i + 1) := (hblanks (i + 1)).1
  have hordered (i j : Nat) (hij : i < j) (hj : j ≤ count) : offset i < offset j := by
    induction j, hij using Nat.le_induction with
    | base => exact hincreases i hj
    | succ j _ ih => exact (ih (by omega)).trans (hincreases j hj)
  exact ⟨count, hcount, htokens, fun i hi => ⟨hinner i hi, htakes i hi⟩, rfl, hblanks, hordered,
    hlast, (hstands count).offset_of_isFinish hlast,
    fun i hi => Cursor.token_of_isFinish hlast hi⟩

/-- Four tokens in eight characters: U+0000 is one like any other, and the number takes the mark and
the sign of an exponent whose digits the end cuts off. -/
example : (tokenize "a \x00<=1e+").map (·.position.offset) = [0, 2, 3, 5, 8] := by
  decide +kernel

end RecordQuery.Script

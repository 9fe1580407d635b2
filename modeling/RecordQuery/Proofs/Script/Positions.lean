import Mathlib.Data.List.DropRight
import RecordQuery.Proofs.Script.Lexing

/-!
# Places of tokens

A cursor stands behind the characters that it has read, and its place is the one these lead to from
the start (`Cursor.StandsIn`).  Reading a token keeps this, whatever the token is, so each one is
told at the place where it is read (`place_of_token`).

Such a place counts lines and columns of the text before it, but for U+0000: it takes no column, so
what stands behind it in its line is told too far left (`place_behind_null`).
-/

namespace RecordQuery.Script

open Text (Position)

variable {script : List Char} {cursor : Cursor}

/-! ## Lines and columns -/

/-- The characters of a text behind its last line break. -/
def lastLine (text : List Char) : List Char := text.rtakeWhile (· != '\n')

theorem lastLine_concat (text : List Char) (c : Char) :
    lastLine (text ++ [c]) = if c = '\n' then [] else lastLine text ++ [c] := by
  rw [lastLine, lastLine, List.rtakeWhile_concat]
  by_cases hbreak : c = '\n'
  · simp [hbreak]
  · simp [hbreak]

theorem stepAll_append (p : Position) (first second : List Char) :
    stepAll p (first ++ second) = stepAll (stepAll p first) second := List.foldl_append

/-- The place behind a text that is read from the start: the breaks in it make the lines, and the
characters of its last line but U+0000 the columns. -/
theorem stepAll_start (text : List Char) :
    stepAll .start text =
      ⟨text.length, 1 + text.count '\n', 1 + (lastLine text).countP (· != '\x00')⟩ := by
  induction text using List.reverseRecOn with
  | nil => rfl
  | append_singleton text c ih =>
      have hstep : stepAll .start (text ++ [c]) = step (stepAll .start text) c :=
        stepAll_append .start text [c]
      rw [hstep, ih, lastLine_concat, step, Position.advance]
      by_cases hnull : c = '\x00'
      · -- U+0000 is no line break either.
        subst hnull
        simp
      · by_cases hbreak : c = '\n'
        · subst hbreak
          simp
          omega
        · simp [hnull, hbreak]
          omega

/-! ## Cursors in a script -/

/-- Whether a cursor stands in a script behind the characters it has read, at the place that these
lead to. -/
def Cursor.StandsIn (script : List Char) (cursor : Cursor) : Prop :=
  ∃ read, script = read ++ cursor.rest ∧ cursor.position = stepAll .start read

theorem Cursor.standsIn_start (script : List Char) : (start script).StandsIn script :=
  ⟨[], rfl, rfl⟩

theorem Cursor.StandsIn.skip (h : cursor.StandsIn script) (count : Nat) :
    (cursor.skip count).StandsIn script := by
  obtain ⟨read, rfl, hposition⟩ := h
  refine ⟨read ++ cursor.rest.take count, ?_, ?_⟩
  · simp [Cursor.skip]
  · rw [stepAll_append, ← hposition]
    rfl

theorem Cursor.StandsIn.skipBlanks (h : cursor.StandsIn script) :
    cursor.skipBlanks.StandsIn script := h.skip _

/-- A place counts the characters, the lines and the columns before it. -/
theorem Cursor.StandsIn.position_eq (h : cursor.StandsIn script) :
    script.drop cursor.position.offset = cursor.rest ∧
      cursor.position.offset ≤ script.length ∧
      let before := script.take cursor.position.offset
      cursor.position.line = 1 + before.count '\n' ∧
        cursor.position.column = 1 + (lastLine before).countP (· != '\x00') := by
  obtain ⟨read, rfl, hposition⟩ := h
  rw [hposition, stepAll_start]
  simp

/-! ## Tokens at their places -/

/-- Whether a token is what a text starts with: the end, or what is read from the first character
on, which is no blank. -/
def Token.Starts (token : Token) : List Char → Prop
  | [] => token.kind = .finish
  | c :: rest =>
    Text.isBlank c = false ∧ token.kind = (readToken c rest).1 ∧
      token.spelling = String.ofList (readToken c rest).2.1

theorem Cursor.isBlank_of_skipBlanks {c : Char} {rest : List Char}
    (h : cursor.skipBlanks.rest = c :: rest) : Text.isBlank c = false := by
  have hsplit := List.takeWhile_append_dropWhile (p := Text.isBlank) (l := cursor.rest)
  have hdrop : cursor.rest.dropWhile Text.isBlank = c :: rest := by
    rw [← h, Cursor.skipBlanks, Cursor.skip]
    exact (List.drop_left' rfl).symm.trans (by rw [hsplit])
  have hhead := List.head?_dropWhile_not Text.isBlank cursor.rest
  simpa [hdrop] using hhead

/-- A token is told at the place of the cursor that it is read from, behind the blanks, and the
cursor behind it stands in the script as well. -/
theorem Cursor.StandsIn.next (h : cursor.StandsIn script) :
    cursor.next.1.position = cursor.skipBlanks.position ∧
      cursor.next.1.Starts cursor.skipBlanks.rest ∧ cursor.next.2.StandsIn script := by
  have hfound := h.skipBlanks
  cases hrest : cursor.skipBlanks.rest with
  | nil =>
      rw [Cursor.next_of_nil hrest]
      exact ⟨rfl, rfl, hfound⟩
  | cons c rest =>
      rw [Cursor.next_of_cons hrest]
      exact ⟨rfl, ⟨isBlank_of_skipBlanks hrest, rfl, rfl⟩, hfound.skip _⟩

theorem Cursor.StandsIn.behindTokens (h : cursor.StandsIn script) (count : Nat) :
    (cursor.behindTokens count).StandsIn script := by
  induction count generalizing cursor with
  | zero => exact h
  | succ count ih => exact ih h.next.2.2

/-- The tokens up to the end are read one behind the other. -/
theorem Cursor.exists_of_mem_tokens {fuel : Nat} {token : Token}
    (hmem : token ∈ cursor.tokens fuel) : ∃ count, token = cursor.token count := by
  induction fuel generalizing cursor with
  | zero => exact ⟨0, List.mem_singleton.mp hmem⟩
  | succ fuel ih =>
      simp only [Cursor.tokens] at hmem
      split at hmem
      · exact ⟨0, List.mem_singleton.mp hmem⟩
      · rcases List.mem_cons.mp hmem with hfirst | hlater
        · exact ⟨0, hfirst⟩
        · obtain ⟨count, hcount⟩ := ih hlater
          exact ⟨count + 1, hcount⟩

/-- Every token of a script, and every one that is read behind the end, is told at the place where
it is read.  The place counts the characters before it, the line breaks among these, and behind the
last break all characters but U+0000; so the column is the true one unless there is a U+0000. -/
theorem place_of_token (script : String) :
    (∀ token ∈ tokenize script, ∃ count, token = (Cursor.start script.toList).token count) ∧
      ∀ count,
        let token := (Cursor.start script.toList).token count
        let place := token.position
        let before := script.toList.take place.offset
        place.offset ≤ script.toList.length ∧
          token.Starts (script.toList.drop place.offset) ∧
          place.line = 1 + before.count '\n' ∧
          place.column = 1 + (lastLine before).countP (· != '\x00') ∧
          (place.column = 1 + (lastLine before).length ↔ '\x00' ∉ lastLine before) := by
  refine ⟨fun token hmem => Cursor.exists_of_mem_tokens hmem, fun count => ?_⟩
  have hstands := (Cursor.standsIn_start script.toList).behindTokens count
  obtain ⟨hposition, hstarts, -⟩ := hstands.next
  obtain ⟨hrest, hoffset, hline, hcolumn⟩ := hstands.skipBlanks.position_eq
  have hnull (line : List Char) :
      1 + line.countP (· != '\x00') = 1 + line.length ↔ '\x00' ∉ line := by
    rw [Nat.add_left_cancel_iff, List.countP_eq_length]
    constructor
    · exact fun hall hmem => by simpa using hall _ hmem
    · exact fun hnone c hmem => bne_iff_ne.mpr fun hc => hnone (hc ▸ hmem)
  simp only [Cursor.token, hposition, hrest]
  exact ⟨hoffset, hstarts, hline, hcolumn, by rw [hcolumn, hnull]⟩

/-- The letter behind a U+0000 is the second character of its line, and is told in column 1. -/
theorem place_behind_null :
    ∃ token ∈ tokenize "\x00a", token.kind = .identifier ∧ token.position = ⟨1, 1, 1⟩ ∧
      1 + (lastLine ("\x00a".toList.take token.position.offset)).length = 2 := by
  exact ⟨⟨.identifier, "a", ⟨1, 1, 1⟩⟩, by decide +kernel, rfl, rfl, by decide +kernel⟩

end RecordQuery.Script

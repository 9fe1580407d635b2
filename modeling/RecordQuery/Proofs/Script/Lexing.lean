import RecordQuery.Script.Lexer

/-!
# Cutting a script from its start

Every token takes a character of the script, so the bound on their number covers it, and the tokens
are those before the end and the one that marks it (`tokenize_ends`).

What becomes of a text is said by a property of its tokens that holds wherever the text stands
(`Lexes`); spaces are skipped and a token at the start of the text is split off.
-/

namespace RecordQuery.Script

open Text (Position)

variable {P : List Token → Prop}

/-! ## All tokens of a script -/

/-- A token takes at least one character and does not mark the end. -/
theorem readToken_takes (c : Char) (rest : List Char) :
    0 < (readToken c rest).2.2 ∧ (readToken c rest).1 ≠ .finish := by
  unfold readToken
  split
  · simp only
    split <;> simp
  · split
    · rename_i hdigit
      have hlength : 0 < numberLength (c :: rest) := by
        simp only [numberLength, digitsLength, List.takeWhile_cons, hdigit, if_true,
          List.length_cons]
        omega
      refine ⟨hlength, ?_⟩
      simp only
      split <;> simp
    · split
      · simp
      · split
        · have hlength : 0 < (operatorSpelling c rest).length := by
            unfold operatorSpelling
            split
            · split <;> simp
            · simp
          refine ⟨hlength, ?_⟩
          simp only
          split <;> simp
        · split
          · refine ⟨by simp, ?_⟩
            simp only
            split <;> simp
          · simp

theorem Cursor.next_of_nil {cursor : Cursor} (h : cursor.skipBlanks.rest = []) :
    cursor.next = (⟨.finish, "", cursor.skipBlanks.position⟩, cursor.skipBlanks) := by
  simp only [Cursor.next, h]

theorem Cursor.next_of_cons {cursor : Cursor} {c : Char} {rest : List Char}
    (h : cursor.skipBlanks.rest = c :: rest) :
    cursor.next =
      (⟨(readToken c rest).1, String.ofList (readToken c rest).2.1, cursor.skipBlanks.position⟩,
        cursor.skipBlanks.skip (readToken c rest).2.2) := by
  simp only [Cursor.next, h]

/-- The next token marks the end, or the cursor behind it is before a shorter text. -/
theorem Cursor.next_cases (cursor : Cursor) :
    cursor.next.1.isFinish = true ∨
      (cursor.next.1.isFinish = false ∧ cursor.next.2.rest.length < cursor.rest.length) := by
  have hblanks : cursor.skipBlanks.rest.length ≤ cursor.rest.length := by
    simp [Cursor.skipBlanks, Cursor.skip]
  cases hrest : cursor.skipBlanks.rest with
  | nil =>
      rw [next_of_nil hrest]
      exact Or.inl rfl
  | cons c rest =>
      obtain ⟨hlength, hkind⟩ := readToken_takes c rest
      rw [next_of_cons hrest]
      refine Or.inr ⟨by simpa [Token.isFinish] using hkind, ?_⟩
      rw [hrest, List.length_cons] at hblanks
      simp only [Cursor.skip, hrest, List.length_drop, List.length_cons]
      omega

namespace Cursor

/-- The cursor behind a number of tokens. -/
def behindTokens : Nat → Cursor → Cursor
  | 0, cursor => cursor
  | count + 1, cursor => behindTokens count cursor.next.2

/-- The token that is read behind a number of tokens. -/
def token (cursor : Cursor) (count : Nat) : Token := (cursor.behindTokens count).next.1

end Cursor

/-- Tokens are read one behind the other up to the first that marks the end, which comes when there
have been at most as many as characters are left. -/
theorem Cursor.exists_tokens_eq {fuel : Nat} (cursor : Cursor) (hfuel : cursor.rest.length ≤ fuel) :
    ∃ count ≤ cursor.rest.length, cursor.tokens fuel = (List.range (count + 1)).map cursor.token ∧
      (∀ i < count, (cursor.token i).isFinish = false) ∧
      (cursor.token count).isFinish = true := by
  induction fuel generalizing cursor with
  | zero =>
      rcases cursor.next_cases with hfinish | ⟨-, hshorter⟩
      · exact ⟨0, Nat.zero_le _, rfl, fun i hi => absurd hi i.not_lt_zero, hfinish⟩
      · omega
  | succ fuel ih =>
      rcases cursor.next_cases with hfinish | ⟨hfinish, hshorter⟩
      · refine ⟨0, Nat.zero_le _, ?_, fun i hi => absurd hi i.not_lt_zero, hfinish⟩
        simp only [Cursor.tokens, hfinish, if_true]
        rfl
      · obtain ⟨count, hcount, htokens, hinner, hlast⟩ := ih cursor.next.2 (by omega)
        refine ⟨count + 1, by omega, ?_, ?_, hlast⟩
        · simp only [Cursor.tokens, hfinish, Bool.false_eq_true, if_false, htokens]
          rw [List.range_succ_eq_map (n := count + 1), List.map_cons, List.map_map]
          rfl
        · rintro (_ | i) hi
          · exact hfinish
          · exact hinner i (by omega)

theorem Cursor.tokens_ends (fuel : Nat) (cursor : Cursor) (hfuel : cursor.rest.length ≤ fuel) :
    ∃ tokens finish, cursor.tokens fuel = tokens ++ [finish] ∧ finish.isFinish = true ∧
      ∀ token ∈ tokens, token.isFinish = false := by
  obtain ⟨count, -, htokens, hinner, hlast⟩ := cursor.exists_tokens_eq hfuel
  refine ⟨(List.range count).map cursor.token, cursor.token count, ?_, hlast, ?_⟩
  · rw [htokens, List.range_succ, List.map_append, List.map_singleton]
  · simpa using hinner

/-- The last token of a script marks the end, and no other one does. -/
theorem tokenize_ends (script : String) :
    ∃ tokens finish, tokenize script = tokens ++ [finish] ∧ finish.isFinish = true ∧
      ∀ token ∈ tokens, token.isFinish = false :=
  Cursor.tokens_ends _ _ (Nat.le_refl _)

/-! ## Beginnings of texts -/

/-- Whether a text is cut into tokens with a property, at any place and with any bound that covers
its length. -/
def Lexes (text : List Char) (P : List Token → Prop) : Prop :=
  ∀ fuel position, text.length ≤ fuel → P (Cursor.tokens fuel ⟨position, text⟩)

theorem Lexes.mono {Q : List Token → Prop} {text : List Char} (h : Lexes text P)
    (hproperty : ∀ tokens, P tokens → Q tokens) : Lexes text Q :=
  fun fuel position hfuel => hproperty _ (h fuel position hfuel)

theorem Lexes.tokenize {script : String} (h : Lexes script.toList P) : P (tokenize script) :=
  h _ _ (Nat.le_refl _)

theorem lexes_nil :
    Lexes [] fun tokens => ∃ finish, tokens = [finish] ∧ finish.isFinish = true := by
  intro fuel position _
  cases fuel with
  | zero => exact ⟨_, rfl, rfl⟩
  | succ fuel => exact ⟨_, rfl, rfl⟩

theorem lexes_space {text : List Char} (h : Lexes text P) : Lexes (' ' :: text) P := by
  intro fuel position hfuel
  rw [List.length_cons] at hfuel
  have hblank : Text.isBlank ' ' = true := by decide
  have hnext : (⟨position, ' ' :: text⟩ : Cursor).next =
      (⟨step position ' ', text⟩ : Cursor).next := by
    simp [Cursor.next, Cursor.skipBlanks, Cursor.skip, stepAll, hblank]
  have htokens : Cursor.tokens fuel ⟨position, ' ' :: text⟩ =
      Cursor.tokens fuel ⟨step position ' ', text⟩ := by
    cases fuel with
    | zero => simp only [Cursor.tokens, hnext]
    | succ fuel => simp only [Cursor.tokens, hnext]
  rw [htokens]
  exact h fuel _ (by omega)

/-- Whether tokens begin with one of a kind and a spelling and go on as a property says. -/
def Begins (kind : TokenKind) (spelling : List Char) (P : List Token → Prop)
    (tokens : List Token) : Prop :=
  ∃ token behind, tokens = token :: behind ∧ token.kind = kind ∧
    token.spelling = String.ofList spelling ∧ P behind

theorem lexes_token {c : Char} {rest after : List Char} {kind : TokenKind} {spelling : List Char}
    {length : Nat} (hblank : Text.isBlank c = false)
    (hread : readToken c rest = (kind, spelling, length))
    (hafter : (c :: rest).drop length = after) (h : Lexes after P) :
    Lexes (c :: rest) (Begins kind spelling P) := by
  intro fuel position hfuel
  obtain ⟨fuel, rfl⟩ : ∃ inner, fuel = inner + 1 :=
    ⟨fuel - 1, by rw [List.length_cons] at hfuel; omega⟩
  obtain ⟨hlength, hkind⟩ := readToken_takes c rest
  rw [hread] at hlength hkind
  have hfound : (⟨position, c :: rest⟩ : Cursor).skipBlanks = ⟨position, c :: rest⟩ := by
    simp [Cursor.skipBlanks, Cursor.skip, stepAll, hblank]
  have hnext : (⟨position, c :: rest⟩ : Cursor).next =
      (⟨kind, String.ofList spelling, position⟩,
        (⟨position, c :: rest⟩ : Cursor).skip length) := by
    simp only [Cursor.next, hfound, hread]
  have hfinish : (⟨kind, String.ofList spelling, position⟩ : Token).isFinish = false := by
    simpa [Token.isFinish] using hkind
  -- The token takes a character at least, and with it one unit of fuel.
  have hshorter : after.length ≤ fuel := by
    rw [← hafter, List.length_drop]
    simp only [List.length_cons] at hfuel hlength ⊢
    omega
  have htokens : Cursor.tokens (fuel + 1) ⟨position, c :: rest⟩ =
      ⟨kind, String.ofList spelling, position⟩ ::
        Cursor.tokens fuel ⟨stepAll position ((c :: rest).take length), after⟩ := by
    simp only [Cursor.tokens, hnext, hfinish, Bool.false_eq_true, if_false, Cursor.skip, hafter]
  exact ⟨_, _, htokens, rfl, rfl, h fuel _ hshorter⟩

end RecordQuery.Script

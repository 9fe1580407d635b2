import RecordQuery.Query.Token

/-!
# Scanning a text from its start

What the scanner makes of a text is said by a property of its tokens that holds wherever the text
stands (`Scans`).  A token at the start of a text is split off by `scans_token`; the rest of this
module are its cases: blanks, parentheses, signs, `OR`, words and phrases.
-/

namespace RecordQuery.Query

open Text (Position)

variable {P : List Token → Prop}

/-- Whether a text is scanned without a failure into tokens with a property, at any place and with
any number of steps that covers its length.  `glued` says whether a token ends before the text. -/
def Scans (glued : Bool) (text : List Char) (P : List Token → Prop) : Prop :=
  ∀ fuel position opened, text.length ≤ fuel →
    ∃ tokens, tokensFrom fuel position glued opened text = .ok tokens ∧ P tokens

theorem Scans.mono {Q : List Token → Prop} {glued : Bool} {text : List Char}
    (h : Scans glued text P) (hproperty : ∀ tokens, P tokens → Q tokens) : Scans glued text Q := by
  intro fuel position opened hfuel
  obtain ⟨tokens, htokens, hP⟩ := h fuel position opened hfuel
  exact ⟨tokens, htokens, hproperty tokens hP⟩

theorem Scans.tokenize {query : String} (h : Scans false query.toList P) :
    ∃ tokens, Query.tokenize query = .ok tokens ∧ P tokens :=
  h _ _ _ (Nat.le_refl _)

theorem scans_nil (glued : Bool) : Scans glued [] fun tokens => tokens = [] := by
  intro fuel position opened _
  cases fuel with
  | zero => exact ⟨[], rfl, rfl⟩
  | succ fuel => exact ⟨[], rfl, rfl⟩

theorem scans_space {glued : Bool} {text : List Char} (h : Scans false text P) :
    Scans glued (' ' :: text) P := by
  intro fuel position opened hfuel
  rw [List.length_cons] at hfuel
  obtain ⟨fuel, rfl⟩ : ∃ inner, fuel = inner + 1 := ⟨fuel - 1, by omega⟩
  have hblank : Text.isBlank ' ' = true := by decide
  rw [tokensFrom, if_pos hblank]
  exact h fuel _ opened (by omega)

/-- Whether tokens begin with one of a kind and go on as a property says. -/
def Begins (kind : TokenKind) (glued : Bool) (P : List Token → Prop) (tokens : List Token) : Prop :=
  ∃ token behind, tokens = token :: behind ∧ token.kind = kind ∧ token.glued = glued ∧ P behind

/-- A token is split off a text.  A sign is one only where it is allowed, which is at least behind a
blank. -/
theorem scans_token {glued : Bool} {c : Char} {rest after : List Char} {kind : TokenKind}
    (source : List Char) (hblank : Text.isBlank c = false) (hsource : c :: rest = source ++ after)
    (hread : ∀ signAllowed, (glued = false → signAllowed = true) →
      readToken signAllowed c rest = some (kind, source.length))
    (hnonempty : source ≠ []) (h : Scans true after P) :
    Scans glued (c :: rest) (Begins kind glued P) := by
  intro fuel position opened hfuel
  rw [List.length_cons] at hfuel
  obtain ⟨fuel, rfl⟩ : ∃ inner, fuel = inner + 1 := ⟨fuel - 1, by omega⟩
  have hpositive := List.length_pos_iff.mpr hnonempty
  have hlength := congrArg List.length hsource
  rw [List.length_cons, List.length_append] at hlength
  have htoken := hread (!glued || opened) fun hglued => by rw [hglued]; rfl
  have hafter : (c :: rest).drop source.length = after := by rw [hsource, List.drop_left]
  -- A token takes a character at least, so the steps that are left cover the rest.
  obtain ⟨behind, hbehind, hP⟩ := h fuel
    (position.advanceAll ((c :: rest).take source.length)) (kind == .opening) (by omega)
  rw [tokensFrom, if_neg (by rw [hblank]; exact Bool.false_ne_true), htoken]
  simp only [hafter, hbehind, Except.map]
  exact ⟨_, rfl, _, behind, rfl, rfl, rfl, hP⟩

/-! ## Parentheses and signs -/

theorem scans_opening {glued : Bool} {after : List Char} (h : Scans true after P) :
    Scans glued ('(' :: after) (Begins .opening glued P) :=
  scans_token ['('] (by decide) rfl (fun _ _ => rfl) (by simp) h

theorem scans_closing {glued : Bool} {after : List Char} (h : Scans true after P) :
    Scans glued (')' :: after) (Begins .closing glued P) :=
  scans_token [')'] (by decide) rfl (fun _ _ => rfl) (by simp) h

theorem scans_plus {after : List Char} (h : Scans true after P) :
    Scans false ('+' :: after) (Begins .plus false P) := by
  refine scans_token ['+'] (by decide) rfl ?_ (by simp) h
  intro signAllowed hallowed
  rw [hallowed rfl]
  rfl

theorem scans_minus {after : List Char} (h : Scans true after P) :
    Scans false ('-' :: after) (Begins .minus false P) := by
  refine scans_token ['-'] (by decide) rfl ?_ (by simp) h
  intro signAllowed hallowed
  rw [hallowed rfl]
  rfl

/-! ## Words -/

/-- Whether no word goes on with a text. -/
def EndsWord (after : List Char) : Prop :=
  ∀ c rest, after = c :: rest → isWordChar c = false

theorem endsWord_nil : EndsWord [] := by
  intro c rest h
  cases h

theorem endsWord_space (rest : List Char) : EndsWord (' ' :: rest) := by
  intro c rest h
  obtain ⟨rfl, _⟩ := List.cons.inj h
  decide

theorem endsWord_quote (rest : List Char) : EndsWord ('"' :: rest) := by
  intro c rest h
  obtain ⟨rfl, _⟩ := List.cons.inj h
  decide

theorem takeWhile_isWordChar {word after : List Char} (hword : ∀ c ∈ word, isWordChar c = true)
    (hafter : EndsWord after) : (word ++ after).takeWhile isWordChar = word := by
  rw [List.takeWhile_append_of_pos hword]
  cases after with
  | nil => simp
  | cons c rest => rw [List.takeWhile_cons, hafter c rest rfl]; simp

/-- The token that a row of word characters is. -/
theorem readToken_word {word after rest : List Char} {c : Char} {signAllowed : Bool}
    (hword : ∀ d ∈ word, isWordChar d = true) (hsource : c :: rest = word ++ after)
    (hnonempty : word ≠ []) (hplus : c ≠ '+') (hminus : c ≠ '-') (hafter : EndsWord after) :
    readToken signAllowed c rest =
      if word = ['O', 'R'] then some (.or, 2)
      else some (.word (String.ofList word), word.length) := by
  obtain ⟨d, later, rfl⟩ := List.exists_cons_of_ne_nil hnonempty
  obtain ⟨rfl, _⟩ := List.cons.inj hsource
  have hchar := hword c (by simp)
  have hopening : c ≠ '(' := by rintro rfl; exact absurd hchar (by decide)
  have hclosing : c ≠ ')' := by rintro rfl; exact absurd hchar (by decide)
  have hquote : c ≠ '"' := by rintro rfl; exact absurd hchar (by decide)
  unfold readToken
  rw [if_neg hopening, if_neg hclosing, if_neg hquote, if_neg fun h => hplus h.1,
    if_neg fun h => hminus h.1, hsource, takeWhile_isWordChar hword hafter]

theorem isBlank_of_isWordChar {c : Char} (h : isWordChar c = true) : Text.isBlank c = false := by
  unfold isWordChar at h
  simp only [Bool.and_eq_true, Bool.not_eq_true'] at h
  exact h.1.1.1

/-- A word that begins with no sign is a token up to where it ends. -/
theorem scans_word {glued : Bool} {word after : List Char} {c : Char}
    (hfirst : word.head? = some c) (hplus : c ≠ '+') (hminus : c ≠ '-')
    (hword : ∀ d ∈ word, isWordChar d = true) (hor : word ≠ ['O', 'R']) (hafter : EndsWord after)
    (h : Scans true after P) :
    Scans glued (word ++ after) (Begins (.word (String.ofList word)) glued P) := by
  obtain ⟨rest, rfl⟩ := List.head?_eq_some_iff.mp hfirst
  refine scans_token (c :: rest) (isBlank_of_isWordChar (hword c (by simp))) rfl ?_
    (by simp) h
  intro signAllowed _
  rw [readToken_word hword rfl (by simp) hplus hminus hafter, if_neg hor]

theorem scans_or {glued : Bool} {after : List Char} (hafter : EndsWord after)
    (h : Scans true after P) : Scans glued ('O' :: 'R' :: after) (Begins .or glued P) := by
  refine scans_token ['O', 'R'] (by decide) rfl ?_ (by simp) h
  intro signAllowed _
  have hword : ∀ d ∈ ['O', 'R'], isWordChar d = true := List.all_eq_true.mp (by decide)
  have hsource : 'O' :: 'R' :: after = ['O', 'R'] ++ after := rfl
  rw [readToken_word hword hsource (by simp) (by decide) (by decide) hafter, if_pos rfl]
  rfl

/-! ## Phrases -/

/-- A text with its quotes and backslashes escaped. -/
def escape (phrase : List Char) : List Char :=
  phrase.flatMap fun c => if c = '"' ∨ c = '\\' then ['\\', c] else [c]

/-- A phrase as a query writes it. -/
def quote (phrase : String) : List Char := '"' :: (escape phrase.toList ++ ['"'])

theorem readPhrase_of_plain {c : Char} {rest : List Char} (hquote : c ≠ '"')
    (hbackslash : c ≠ '\\') :
    readPhrase (c :: rest) =
      (readPhrase rest).map fun (content, length) => (c :: content, length + 1) := by
  rw [readPhrase]
  · exact hquote
  · rintro _ rfl
    exact absurd rfl hbackslash
  · rintro _ rfl
    exact absurd rfl hbackslash

/-- An escaped text up to a quote is read as the text. -/
theorem readPhrase_escape (phrase after : List Char) :
    readPhrase (escape phrase ++ '"' :: after) = some (phrase, (escape phrase).length + 1) := by
  induction phrase with
  | nil => simp [escape, readPhrase]
  | cons c phrase ih =>
      have hescape : escape (c :: phrase) =
          (if c = '"' ∨ c = '\\' then ['\\', c] else [c]) ++ escape phrase := rfl
      rw [hescape]
      by_cases hspecial : c = '"' ∨ c = '\\'
      · rw [if_pos hspecial]
        rcases hspecial with rfl | rfl <;>
          simp [readPhrase, ih]
      · rw [if_neg hspecial]
        rw [not_or] at hspecial
        rw [List.append_assoc, List.singleton_append,
          readPhrase_of_plain hspecial.1 hspecial.2, ih]
        simp

theorem scans_quote {glued : Bool} {phrase : String} {after : List Char} (h : Scans true after P) :
    Scans glued (quote phrase ++ after) (Begins (.phrase phrase) glued P) := by
  refine scans_token (quote phrase) (by decide) rfl ?_ (by simp [quote]) h
  intro signAllowed _
  have hcontent := readPhrase_escape phrase.toList after
  simp [readToken, quote, hcontent]

end RecordQuery.Query

import RecordQuery.Proofs.Query.Language
import RecordQuery.Proofs.Script.Positions

/-!
# Places of failures in a query

Scanning tells every token at the place behind the characters before it, with the characters it
takes as its source (`placed_tokenize`).  Where the reader fails it reports one of the tokens it was
given, and it never stops short of a term (`shows`), so what a failure reports is a piece of the text
at its own place (`place_of_failure`).
-/

namespace RecordQuery.Query

open Text (Position)
open Script (lastLine lastLine_concat)

/-! ## Pieces of a text -/

/-- The place behind a text that is read from the start: the breaks in it make the lines, and the
characters of its last line the columns. -/
theorem advanceAll_start (text : List Char) :
    Position.start.advanceAll text =
      ⟨text.length, 1 + text.count '\n', 1 + (lastLine text).length⟩ := by
  induction text using List.reverseRecOn with
  | nil => rfl
  | append_singleton text c ih =>
      rw [Position.advanceAll_append, ih, lastLine_concat]
      by_cases hbreak : c = '\n'
      · subst hbreak
        simp [Position.advance]
        omega
      · simp [Position.advance, hbreak]
        omega

/-- Whether a piece stands in a text at a place, which the characters before it lead to. -/
def StandsAt (text : List Char) (place : Position) (piece : List Char) : Prop :=
  ∃ before behind, text = before ++ (piece ++ behind) ∧ place = Position.start.advanceAll before

variable {text : List Char} {place : Position} {piece : List Char}

theorem standsAt_start (text : List Char) : StandsAt text .start [] := ⟨[], text, rfl, rfl⟩

theorem StandsAt.counts (h : StandsAt text place piece) :
    place.offset ≤ text.length ∧ piece <+: text.drop place.offset ∧
      let before := text.take place.offset
      place.line = 1 + before.count '\n' ∧ place.column = 1 + (lastLine before).length := by
  obtain ⟨before, behind, rfl, rfl⟩ := h
  rw [advanceAll_start]
  simp

/-! ## Scanned tokens -/

/-- Whether what the scanner answers lies in a text: every token with its source, or the phrase that
stays open. -/
def Placed (text : List Char) : Except ParseError (List Token) → Prop
  | .ok tokens => ∀ token ∈ tokens, StandsAt text token.position token.source.toList
  | .error error =>
    error.fault = .unterminatedPhrase ∧ StandsAt text error.position error.fragment.toList

theorem Placed.cons {answer : Except ParseError (List Token)} {token : Token}
    (h : Placed text answer) (htoken : StandsAt text token.position token.source.toList) :
    Placed text (answer.map fun tokens => token :: tokens) := by
  cases answer with
  | error error => exact h
  | ok tokens => exact List.forall_mem_cons.mpr ⟨htoken, h⟩

theorem placed_tokensFrom (before : List Char) {rest : List Char} (htext : text = before ++ rest)
    (hplace : place = Position.start.advanceAll before) (fuel : Nat) (glued opened : Bool) :
    Placed text (tokensFrom fuel place glued opened rest) := by
  induction fuel generalizing before rest place glued opened with
  | zero => exact fun _ hmem => absurd hmem List.not_mem_nil
  | succ fuel ih =>
      cases rest with
      | nil => exact fun _ hmem => absurd hmem List.not_mem_nil
      | cons c rest =>
          rw [tokensFrom]
          split
          · refine ih (before ++ [c]) (by simp [htext]) ?_ _ _
            rw [hplace, Position.advanceAll_append]
            rfl
          · split
            · exact ⟨rfl, before, [], by simp [htext], hplace⟩
            · rename_i kind length _
              have hsplit := List.take_append_drop length (c :: rest)
              refine Placed.cons (ih (before ++ (c :: rest).take length) ?_ ?_ _ _) ?_
              · rw [List.append_assoc, hsplit, htext]
              · rw [hplace, Position.advanceAll_append]
              · refine ⟨before, (c :: rest).drop length, ?_, hplace⟩
                rw [String.toList_ofList, hsplit, htext]

/-- Every token of a query is told at its place, and so is a phrase that stays open. -/
theorem placed_tokenize (query : String) : Placed query.toList (tokenize query) :=
  placed_tokensFrom [] rfl rfl _ _ _

/-! ## Failures of the readers -/

/-- Whether a failure reports one of some tokens, and not that they stop short of a term. -/
def ShownBy (tokens : List Token) (error : ParseError) : Prop :=
  ∃ token ∈ tokens, ∃ fault, fault ≠ .termExpected ∧ error = failAt token fault

variable {setting : Setting} {token : Token} {tokens rest : List Token} {error : ParseError}

theorem shownBy_head {fault : ParseFault} (hfault : fault ≠ .termExpected) :
    ShownBy (token :: rest) (failAt token fault) :=
  ⟨token, by simp, fault, hfault, rfl⟩

theorem ShownBy.behind (h : ShownBy rest error) (used : List Token) :
    ShownBy (used ++ rest) error := by
  obtain ⟨token, hmem, fault, hfault, rfl⟩ := h
  exact ⟨token, List.mem_append_right used hmem, fault, hfault, rfl⟩

theorem expectClause_error (h : expectClause token rest = .error error) :
    ShownBy (token :: rest) error := by
  have hshown : ShownBy (token :: rest) (failAt token (.connectiveNeedsRight token.source)) :=
    shownBy_head (by simp)
  unfold expectClause at h
  split at h
  · cases h
    exact hshown
  · split at h
    · cases h
      exact hshown
    · cases h
      exact hshown
    · cases h

theorem ne_nil_of_expectClause (h : expectClause token rest = .ok ()) : rest ≠ [] := by
  rintro rfl
  cases h

theorem readOr_error {isFirst : Bool} (h : readOr isFirst tokens = .error error) :
    ShownBy tokens error := by
  unfold readOr at h
  split at h
  · cases h
  · split at h
    · split at h
      · cases h
        exact shownBy_head (by simp)
      · exact expectClause_error (eq_error_of_map_eq_error h)
    · cases h

theorem readSign_error (h : readSign tokens = .error error) : ShownBy tokens error := by
  unfold readSign at h
  split at h
  · cases h
  · split at h
    · exact expectClause_error (eq_error_of_map_eq_error h)
    · cases h

/-- An `OR` that is read has a clause behind it. -/
theorem ne_nil_of_readOr {isFirst afterOr : Bool} (hne : tokens ≠ [])
    (h : readOr isFirst tokens = .ok (afterOr, rest)) : rest ≠ [] := by
  unfold readOr at h
  split at h
  · exact absurd rfl hne
  · split at h
    · split at h
      · cases h
      · obtain ⟨_, hexpected, hanswer⟩ := exists_of_map_eq_ok h
        cases hanswer
        exact ne_nil_of_expectClause hexpected
    · cases h
      exact hne

theorem ne_nil_of_readSign {sign : Option Bool} (hne : tokens ≠ [])
    (h : readSign tokens = .ok (sign, rest)) : rest ≠ [] := by
  unfold readSign at h
  split at h
  · exact absurd rfl hne
  · split at h
    · obtain ⟨_, hexpected, hanswer⟩ := exists_of_map_eq_ok h
      cases hanswer
      exact ne_nil_of_expectClause hexpected
    · cases h
      exact hne

theorem defaultTerm_error {options : ParseOptions} {keyword : String}
    (h : defaultTerm options token keyword = .error error) : ShownBy (token :: rest) error := by
  unfold defaultTerm at h
  split at h
  · cases h
    exact shownBy_head (by simp)
  · cases h

theorem clauseValue_error {path value : List Char}
    (h : clauseValue token path value rest = .error error) : ShownBy (token :: rest) error := by
  unfold clauseValue at h
  split at h
  · split at h
    · cases h
    · cases h
      exact shownBy_head (by simp)
  · cases h

theorem wordTerm_error {word : String} (h : wordTerm setting token word rest = .error error) :
    ShownBy (token :: rest) error := by
  unfold wordTerm at h
  split at h
  · exact clauseValue_error (eq_error_of_map_eq_error h)
  · exact defaultTerm_error (eq_error_of_map_eq_error h)

/-- What the three readers report, within a bound that covers the depth of the reading. -/
structure Shows (setting : Setting) (fuel : Nat) : Prop where
  clauses : ∀ inGroup isFirst tokens error, 3 * tokens.length + 1 ≤ fuel →
    (readClauses setting inGroup fuel isFirst tokens).2 = .error error → ShownBy tokens error
  clause : ∀ isFirst tokens error, tokens ≠ [] → 3 * tokens.length ≤ fuel →
    readClause setting fuel isFirst tokens = .error error → ShownBy tokens error
  primary : ∀ link tokens error, tokens ≠ [] → 3 * tokens.length ≤ fuel + 1 →
    readPrimary setting fuel link tokens = .error error → ShownBy tokens error

theorem shows_zero : Shows setting 0 where
  clauses _ _ _ _ hfuel := absurd hfuel (Nat.not_succ_le_zero _)
  clause _ tokens _ hne hfuel := by
    have hpositive := List.length_pos_iff.mpr hne
    omega
  primary _ tokens _ hne hfuel := by
    have hpositive := List.length_pos_iff.mpr hne
    omega

namespace Shows

variable {fuel : Nat} {isFirst inGroup : Bool} {link : Link}

theorem clauses_succ (h : Shows setting fuel) (hfuel : 3 * tokens.length + 1 ≤ fuel + 1)
    (hread : (readClauses setting inGroup (fuel + 1) isFirst tokens).2 = .error error) :
    ShownBy tokens error := by
  cases tokens with
  | nil => cases hread
  | cons token behind =>
      simp only [readClauses] at hread
      split at hread
      · split at hread
        · cases hread
        · cases hread
          exact shownBy_head (by simp)
      · split at hread
        · rename_i hclause
          cases hread
          exact h.clause isFirst _ error (by simp) (by omega) hclause
        · rename_i clause later hclause
          -- The clause takes a token, so the bound that is left covers the others.
          obtain ⟨used, htokens, hused⟩ :=
            (sound setting fuel).clause isFirst _ clause later (by omega) hclause
          have hlength := congrArg List.length htokens
          have hpositive := hused.length_pos
          rw [List.length_append] at hlength
          rw [htokens]
          exact (h.clauses inGroup false later error (by omega) hread).behind used

theorem clause_succ (h : Shows setting fuel) (hne : tokens ≠ [])
    (hfuel : 3 * tokens.length ≤ fuel + 1)
    (hread : readClause setting (fuel + 1) isFirst tokens = .error error) :
    ShownBy tokens error := by
  simp only [readClause] at hread
  split at hread
  · rename_i hor
    cases hread
    exact readOr_error hor
  · rename_i afterOr behind hor
    have hbehind := ne_nil_of_readOr hne hor
    obtain ⟨_, ors, rfl, _⟩ := readOr_tokens hor
    split at hread
    · rename_i hsign
      cases hread
      exact (readSign_error hsign).behind ors
    · rename_i sign later hsign
      have hlater := ne_nil_of_readSign hbehind hsign
      obtain ⟨_, signs, _, rfl, _⟩ := readSign_tokens hsign
      simp only [List.length_append] at hfuel
      exact ((h.primary _ later error hlater (by omega) hread).behind signs).behind ors

theorem primary_succ (h : Shows setting fuel) (hne : tokens ≠ [])
    (hfuel : 3 * tokens.length ≤ fuel + 1 + 1)
    (hread : readPrimary setting (fuel + 1) link tokens = .error error) :
    ShownBy tokens error := by
  obtain ⟨token, behind, rfl⟩ := List.exists_cons_of_ne_nil hne
  rw [List.length_cons] at hfuel
  simp only [readPrimary] at hread
  split at hread
  · split at hread
    · rename_i houtcome
      cases hread
      exact (h.clauses true true behind error (by omega) houtcome).behind [token]
    · cases hread
      exact shownBy_head (by simp)
    · split at hread
      · cases hread
        exact shownBy_head (by simp)
      · cases hread
  · exact defaultTerm_error (eq_error_of_map_eq_error hread)
  · exact wordTerm_error (eq_error_of_map_eq_error hread)
  all_goals
    cases hread
    exact shownBy_head (by simp)

end Shows

/-- A reader that fails within its bound reports one of the tokens it was given. -/
theorem shows (setting : Setting) (fuel : Nat) : Shows setting fuel := by
  induction fuel with
  | zero => exact shows_zero
  | succ fuel ih =>
      exact
        { clauses := fun _ _ _ _ hfuel hread => ih.clauses_succ hfuel hread
          clause := fun _ _ _ hne hfuel hread => ih.clause_succ hne hfuel hread
          primary := fun _ _ _ hne hfuel hread => ih.primary_succ hne hfuel hread }

/-! ## Whole queries -/

/-- What a query fails with stands in its text, and it never stops short of a term. -/
theorem standsAt_of_parse {options : ParseOptions} {columnClauses record : Bool} {query : String}
    (h : (parse options columnClauses record query).failure = some error) :
    error.fault ≠ .termExpected ∧
      StandsAt query.toList error.position error.fragment.toList := by
  have hplaced := placed_tokenize query
  unfold parse at h
  split at h
  · cases h
    exact ⟨by simp, standsAt_start _⟩
  · split at h
    · rename_i htokens
      cases h
      rw [htokens] at hplaced
      exact ⟨by simp [hplaced.1], hplaced.2⟩
    · cases h
      exact ⟨by simp, standsAt_start _⟩
    · rename_i tokens _ htokens
      rw [htokens] at hplaced
      simp only at h
      split at h
      · rename_i houtcome
        cases h
        -- A clause that fails names the token it stopped at, and every token has its place.
        obtain ⟨token, hmem, fault, hfault, rfl⟩ :=
          (shows _ _).clauses _ _ tokens error (by omega) houtcome
        exact ⟨hfault, hplaced token hmem⟩
      · cases h

end RecordQuery.Query

namespace RecordQuery

open Query
open Script (lastLine)

/-- A text that is no query fails at a place that counts the characters, the line breaks and the
characters of the last line before it.  Its fragment is what the text goes on with from there, and
the failure is never that a term is still to follow. -/
theorem place_of_failure {options : ParseOptions} {record : Bool} {text : String}
    {error : ParseError} (hgrammar : options.grammar ≠ .script)
    (h : (parseText options record text).outcome = .error error) :
    error.fault ≠ .termExpected ∧ error.query = text ∧
      let place := error.position
      let before := text.toList.take place.offset
      place.offset ≤ text.toList.length ∧
        place.line = 1 + before.count '\n' ∧
        place.column = 1 + (lastLine before).length ∧
        error.fragment.toList <+: text.toList.drop place.offset := by
  rw [parseText_eq_parsed hgrammar] at h
  cases hreading : parse options options.rules.columnClauses record text with
  | mk clauses failure =>
      rw [hreading] at h
      cases failure with
      | none => cases h
      | some failure =>
          cases h
          obtain ⟨hfault, hstands⟩ := standsAt_of_parse (congrArg Reading.failure hreading)
          obtain ⟨hoffset, hfragment, hline, hcolumn⟩ := hstands.counts
          exact ⟨hfault, rfl, hoffset, hline, hcolumn, hfragment⟩

/-- An `OR` without a clause behind it, in a group of the second line and behind a phrase with an
escaped quote. -/
theorem place_of_failure_group :
    let options : ParseOptions := { defaultColumn := some "title" }
    let text := "a\n -(\"b \\\" c\" OR )"
    options.grammar ≠ .script ∧
      ∃ error, (parseText options true text).outcome = .error error ∧
        error.position = ⟨14, 2, 13⟩ ∧ error.fragment = "OR" ∧
        error.position.column = 1 + (lastLine (text.toList.take 14)).length ∧
        error.fragment.toList <+: text.toList.drop 14 := by
  intro options text
  have hgrammar : options.grammar ≠ .script := by decide
  cases houtcome : (parseText options true text).outcome with
  | ok count =>
      have hfails : (parseText options true text).outcome.toOption = none := by decide +kernel
      rw [houtcome] at hfails
      cases hfails
  | error error =>
      have hshown : (match (parseText options true text).outcome with
          | .error error => (error.position, error.fragment)
          | .ok _ => (.start, "")) = (⟨14, 2, 13⟩, "OR") := by decide +kernel
      rw [houtcome] at hshown
      obtain ⟨hposition, hfragment⟩ := Prod.mk.inj hshown
      obtain ⟨_, _, _, _, hcolumn, hbegins⟩ := place_of_failure hgrammar houtcome
      simp only [hposition] at hcolumn hbegins
      exact ⟨hgrammar, error, rfl, hposition, hfragment, by rw [hposition]; exact hcolumn, hbegins⟩

end RecordQuery

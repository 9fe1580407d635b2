import RecordQuery.Proofs.Script.Printing

/-!
# Printed tokens

A row of tokens of any kinds is printed with a space between any two of them (`printed`), strings in
quotes of either kind.  What stands before a space or the end is cut off whole (`Lexeme.prints`), so
cutting the print gives the kinds and the spellings of the row again (`tokenize_printed`).
-/

namespace RecordQuery.Script

/-- A token as a script writes it. -/
inductive Lexeme where
  | name (name : Identifier)
  | keyword (word : { word : String // isKeyword word = true })
  | integer (digits : { digits : List Char // IsDigits digits })
  | float (numeral : FloatNumeral)
  | text (quotes : Quotes) (content : String)
  | operator (spelling : { spelling : String // isOperator spelling = true })
  | mark (mark : { c : Char // isPunctuator c = true })

namespace Lexeme

/-- The kind of the token. -/
def kind : Lexeme → TokenKind
  | name _ => .identifier
  | keyword _ => .keyword
  | integer _ => .integer
  | float _ => .float
  | text _ _ => .string
  | operator _ => .operator
  | mark _ => .punctuator

/-- The spelling of the token, for a string its content. -/
def spelling : Lexeme → String
  | name s => s.val
  | keyword s => s.val
  | integer digits => String.ofList digits.val
  | float numeral => String.ofList numeral.spelling
  | text _ content => content
  | operator s => s.val
  | mark c => String.ofList [c.val]

/-- The token as it is printed. -/
def source : Lexeme → List Char
  | text quotes content => quotes.enclose content
  | other => other.spelling.toList

/-- A printed token is cut off as a token of its kind and its spelling. -/
theorem prints (lexeme : Lexeme) :
    Prints lexeme.source (IsToken lexeme.kind lexeme.spelling.toList) := by
  refine prints_token lexeme.source fun after P hafter hlexes => ?_
  cases lexeme with
  | name s => exact lexes_name s.property (stops_of_separated (by decide) hafter) hlexes
  | keyword s =>
      have hword := lexes_word (isWord_of_isKeyword s.property)
        (stops_of_separated (by decide) hafter) hlexes
      rwa [if_pos s.property] at hword
  | integer digits =>
      simp only [source, spelling, String.toList_ofList]
      exact lexes_integer digits.property hafter hlexes
  | float numeral =>
      simp only [source, spelling, String.toList_ofList]
      exact numeral.lexes hafter hlexes
  | text quotes content => exact lexes_enclose quotes content hlexes
  | operator s => exact lexes_operator s.property hafter hlexes
  | mark c =>
      simp only [source, spelling, String.toList_ofList]
      exact lexes_mark c.property hlexes

theorem kind_ne_bad (lexeme : Lexeme) (fault : TokenFault) : lexeme.kind ≠ .bad fault := by
  cases lexeme <;> simp [kind]

end Lexeme

/-! ## Rows of tokens -/

/-- A row of tokens, printed with spaces between them. -/
def printed : List Lexeme → List Char
  | [] => []
  | [lexeme] => lexeme.source
  | lexeme :: later => lexeme.source ++ ' ' :: printed later

/-- Whether tokens have the kinds and the spellings of a row. -/
def AreTokens (lexemes : List Lexeme) (tokens : List Token) : Prop :=
  tokens.map (fun token => (token.kind, token.spelling)) =
    lexemes.map fun lexeme => (lexeme.kind, lexeme.spelling)

theorem areTokens_cons {lexeme : Lexeme} {later : List Lexeme} {before behind : List Token}
    (h : IsToken lexeme.kind lexeme.spelling.toList before) (hlater : AreTokens later behind) :
    AreTokens (lexeme :: later) (before ++ behind) := by
  obtain ⟨token, rfl, hkind, hspelling⟩ := h
  rw [String.ofList_toList] at hspelling
  simp only [AreTokens, List.singleton_append, List.map_cons, hkind, hspelling]
  rw [hlater]

/-- No token of a row is bad. -/
theorem AreTokens.fault?_eq_none {lexemes : List Lexeme} {tokens : List Token}
    (h : AreTokens lexemes tokens) : ∀ token ∈ tokens, token.fault? = none := by
  intro token hmem
  have hkey : (token.kind, token.spelling) ∈
      tokens.map fun token => (token.kind, token.spelling) :=
    List.mem_map_of_mem hmem
  rw [h] at hkey
  obtain ⟨lexeme, _, hsame⟩ := List.mem_map.mp hkey
  have hkind : lexeme.kind = token.kind := (Prod.mk.inj hsame).1
  unfold Token.fault?
  split
  · rename_i fault hbad
    exact absurd (hkind.trans hbad) (lexeme.kind_ne_bad fault)
  · rfl

/-- A printed row is cut into its tokens. -/
theorem prints_printed (lexeme : Lexeme) (later : List Lexeme) :
    Prints (printed (lexeme :: later)) (AreTokens (lexeme :: later)) := by
  induction later generalizing lexeme with
  | nil =>
      refine lexeme.prints.mono fun tokens htoken => ?_
      rw [← List.append_nil tokens]
      exact areTokens_cons htoken rfl
  | cons second later ih =>
      refine (lexeme.prints.append (ih second)).mono ?_
      rintro tokens ⟨before, behind, rfl, htoken, hbehind⟩
      exact areTokens_cons htoken hbehind

/-- A row of tokens is printed so that cutting the print gives tokens of the same kinds and the same
spellings, none of which is bad, and behind them the one that marks the end. -/
theorem tokenize_printed (lexemes : List Lexeme) :
    ∃ tokens finish, tokenize (String.ofList (printed lexemes)) = tokens ++ [finish] ∧
      finish.isFinish = true ∧
      tokens.map (fun token => (token.kind, token.spelling)) =
        lexemes.map (fun lexeme => (lexeme.kind, lexeme.spelling)) ∧
      ∀ token ∈ tokens, token.fault? = none := by
  have hlexes : Lexes (printed lexemes) fun tokens => ∃ before behind, tokens = before ++ behind ∧
      AreTokens lexemes before ∧ ∃ finish, behind = [finish] ∧ finish.isFinish = true := by
    cases lexemes with
    | nil => exact lexes_nil.mono fun tokens hfinish => ⟨[], tokens, rfl, rfl, hfinish⟩
    | cons lexeme later =>
        have hprinted := prints_printed lexeme later [] _ (Or.inl rfl) lexes_nil
        rwa [List.append_nil] at hprinted
  rw [← String.toList_ofList (l := printed lexemes)] at hlexes
  obtain ⟨tokens, _, htokens, hrow, finish, rfl, hfinish⟩ := hlexes.tokenize
  exact ⟨tokens, finish, htokens, hfinish, hrow, hrow.fault?_eq_none⟩

/-- Strings in both kinds of quotes, with the other quote, an escaped one and a line break inside,
between operators that are beginnings of others. -/
example :
    let single := String.ofList ['\'', 'n', '"', '\n']
    (tokenize (String.ofList (printed [.text .single single, .operator ⟨"@", rfl⟩,
      .operator ⟨"@^", rfl⟩, .text .double "\\n"]))).map (·.spelling) =
      [single, "@", "@^", "\\n", ""] := by
  decide +kernel

end RecordQuery.Script

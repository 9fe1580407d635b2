import RecordQuery.Proofs.Decimal.Reading
import RecordQuery.Proofs.Query.Printing
import RecordQuery.Proofs.Text.Letter
import RecordQuery.Proofs.Text.Split

/-!
# Column clauses are read back

A column clause is written as its path, a colon, the spelling of its mode and its value.  The path
has neither a colon nor a character that ends a word, and a value that begins like none of the
modes does not lengthen the mode before it (`readMode_spellMode`), so the word is cut where it was
put together (`columnClause?_word`).  The terms of a printed query (`Leaf`) are phrases of the
default column and column clauses.
-/

namespace RecordQuery.Query

/-! ## Characters of paths -/

theorem isBlank_of_isColumnChar {c : Char} (h : isColumnChar c = true) :
    Text.isBlank c = false := by
  unfold isColumnChar at h
  rcases Bool.or_eq_true_iff.mp h with hletter | hunderscore
  · exact Text.isBlank_eq_false_of_isAlphanumeric hletter
  · obtain rfl := eq_of_beq hunderscore
    decide

theorem ne_of_isColumnChar {c d : Char} (h : isColumnChar c = true)
    (hd : d ∈ ['(', ')', '"', ':', '.', '+', '-']) : c ≠ d := by
  have hnone : ['(', ')', '"', ':', '.', '+', '-'].all (fun d => !isColumnChar d) = true := by
    decide
  rintro rfl
  have hchar := List.all_eq_true.mp hnone c hd
  rw [h] at hchar
  exact Bool.false_ne_true hchar

theorem isWordChar_of_isColumnChar {c : Char} (h : isColumnChar c = true) :
    isWordChar c = true := by
  have hopening := ne_of_isColumnChar h (d := '(') (by decide)
  have hclosing := ne_of_isColumnChar h (d := ')') (by decide)
  have hquote := ne_of_isColumnChar h (d := '"') (by decide)
  simp [isWordChar, isBlank_of_isColumnChar h, hopening, hclosing, hquote]

theorem isColumnChar_of_isDigit {c : Char} (h : c.isDigit = true) : isColumnChar c = true := by
  simp [isColumnChar, Text.isAlphanumeric_of_isDigit h]

theorem isColumnChar_of_isColumnPath {path : List Char} (h : isColumnPath path = true) {c : Char}
    (hc : c ∈ path) : c = '.' ∨ isColumnChar c = true := by
  rcases Text.mem_splitAll '.' hc with hdot | ⟨segment, hsegment, hmem⟩
  · exact Or.inl hdot
  · have hall := List.all_eq_true.mp h segment hsegment
    exact Or.inr (List.all_eq_true.mp (Bool.and_eq_true_iff.mp hall).2 c hmem)

theorem ne_nil_of_isColumnPath {path : List Char} (h : isColumnPath path = true) : path ≠ [] := by
  rintro rfl
  exact absurd h (by decide)

/-! ## Modes -/

/-- The spelling of a mode in a column clause; equality has none. -/
def spellMode (mode : Operator) : List Char :=
  match modes.find? fun entry => entry.2 = mode with
  | some (spelling, _) => spelling
  | none => []

/-- The characters that modes are spelled with. -/
def modeChars : List Char := ['=', '@', '!', '<', '>', '^', '$', '~']

/-- Whether a text could go on with the spelling of a mode. -/
def BeginsMode (text : List Char) : Prop := ∃ c rest, text = c :: rest ∧ c ∈ modeChars

/-- A mode is read off its spelling and what is put behind it. -/
theorem readMode_spellMode {mode : Operator} (hmode : mode.isMode = true) {value : List Char}
    (hvalue : ¬ BeginsMode value) : readMode (spellMode mode ++ value) = (mode, value) := by
  cases value with
  | nil => cases mode <;> first | rfl | exact absurd hmode (by decide)
  | cons c rest =>
      have hne : ∀ d ∈ modeChars, (d == c) = false := by
        intro d hd
        rw [beq_eq_false_iff_ne]
        rintro rfl
        exact hvalue ⟨d, rest, rfl, hd⟩
      simp only [modeChars, List.forall_mem_cons, List.not_mem_nil, false_implies, implies_true,
        and_true] at hne
      cases mode <;> first
        | exact absurd hmode (by decide)
        | simp [spellMode, readMode, modes, List.find?, List.isPrefixOf, hne]

theorem mem_modeChars_of_mem_spellMode (mode : Operator) :
    ∀ c ∈ spellMode mode, c ∈ modeChars := by
  have hall : (spellMode mode).all modeChars.contains = true := by
    cases mode <;> rfl
  intro c hc
  exact List.contains_iff_mem.mp (List.all_eq_true.mp hall c hc)

/-! ## Words of column clauses -/

/-- The word of a column clause. -/
def columnWord (path : List Char) (mode : Operator) (value : List Char) : List Char :=
  path ++ ':' :: (spellMode mode ++ value)

variable {path value : List Char} {mode : Operator}

/-- The word of a column clause is cut where it was put together. -/
theorem columnClause?_word (hpath : isColumnPath path = true) (hmode : mode.isMode = true)
    (hvalue : ¬ BeginsMode value) :
    columnClause? (columnWord path mode value) = some (path, mode, value) := by
  have hcolon : ∀ c ∈ path, c ≠ ':' := by
    intro c hc
    rcases isColumnChar_of_isColumnPath hpath hc with rfl | hchar
    · decide
    · exact ne_of_isColumnChar hchar (by decide)
  unfold columnClause? columnWord
  rw [Text.splitFirst_append hcolon]
  simp only [hpath, if_true]
  rw [readMode_spellMode hmode hvalue]

theorem isWordChar_of_mem_columnWord (hpath : isColumnPath path = true)
    (hvalue : ∀ c ∈ value, isWordChar c = true) :
    ∀ c ∈ columnWord path mode value, isWordChar c = true := by
  have hmodes : ∀ c ∈ modeChars, isWordChar c = true := List.all_eq_true.mp (by decide)
  intro c hc
  rcases List.mem_append.mp hc with hpart | htail
  · rcases isColumnChar_of_isColumnPath hpath hpart with rfl | hchar
    · decide
    · exact isWordChar_of_isColumnChar hchar
  · rcases List.mem_cons.mp htail with rfl | hbehind
    · decide
    · rcases List.mem_append.mp hbehind with hspelled | hwritten
      · exact hmodes c (mem_modeChars_of_mem_spellMode mode c hspelled)
      · exact hvalue c hwritten

/-- The word of a column clause is one token: it begins with no sign and is not `OR`. -/
theorem scans_columnWord {P : List Token → Prop} {after : List Char}
    (hpath : isColumnPath path = true) (hvalue : ∀ c ∈ value, isWordChar c = true)
    (hafter : EndsWord after) (h : Scans true after P) :
    Scans false (columnWord path mode value ++ after)
      (Begins (.word (String.ofList (columnWord path mode value))) false P) := by
  obtain ⟨c, rest, rfl⟩ := List.exists_cons_of_ne_nil (ne_nil_of_isColumnPath hpath)
  have hsign : c ≠ '+' ∧ c ≠ '-' := by
    rcases isColumnChar_of_isColumnPath hpath (c := c) (by simp) with rfl | hchar
    · decide
    · exact ⟨ne_of_isColumnChar hchar (by decide), ne_of_isColumnChar hchar (by decide)⟩
  have hor : columnWord (c :: rest) mode value ≠ ['O', 'R'] := by
    -- There is no colon in `OR`.
    intro heq
    have hcolon : ':' ∈ ['O', 'R'] := by
      rw [← heq]
      simp [columnWord]
    exact absurd hcolon (by decide)
  exact scans_word rfl hsign.1 hsign.2 (isWordChar_of_mem_columnWord hpath hvalue) hor hafter h

/-! ## Integers as values -/

theorem toString_int64_chars (n : Int64) :
    ∀ c ∈ (toString n).toList, c = '-' ∨ c.isDigit = true := by
  intro c hc
  have htext : (toString n).toList = (toString n.toInt).toList := rfl
  rw [htext, Decimal.toList_toString] at hc
  rcases List.mem_append.mp hc with hsign | hdigit
  · split at hsign
    · exact Or.inl (List.mem_singleton.mp hsign)
    · cases hsign
  · exact Or.inr (Decimal.isDigit_of_mem_toDigits hdigit)

theorem isWordChar_of_mem_toString (n : Int64) :
    ∀ c ∈ (toString n).toList, isWordChar c = true := by
  intro c hc
  rcases toString_int64_chars n c hc with rfl | hdigit
  · decide
  · exact isWordChar_of_isColumnChar (isColumnChar_of_isDigit hdigit)

theorem not_beginsMode_toString (n : Int64) : ¬ BeginsMode (toString n).toList := by
  rintro ⟨c, rest, htext, hmode⟩
  have hnone : modeChars.all (fun c => c != '-' && !c.isDigit) = true := by decide
  have hchar := List.all_eq_true.mp hnone c hmode
  rcases toString_int64_chars n c (by rw [htext]; simp) with rfl | hdigit
  · exact absurd hchar (by decide)
  · simp [hdigit] at hchar

theorem bareValue_toString (n : Int64) : bareValue (toString n).toList = .integer n := by
  unfold bareValue
  rw [Decimal.readInt64_toString]

theorem toString_int64_ne_nil (n : Int64) : (toString n).toList ≠ [] := by
  intro hnil
  have hread := Decimal.readInt64_toString n
  rw [hnil] at hread
  cases hread

/-! ## Terms of a printed query -/

/-- A path of column names. -/
structure ColumnPath where
  /-- The names between dots. -/
  text : String
  /-- Every name is made of letters, numbers and underscores, and is not empty. -/
  isPath : isColumnPath text.toList = true

/-- An operator that a term can apply. -/
structure Mode where
  operator : Operator
  isMode : operator.isMode = true

/-- The value of a column clause. -/
inductive ColumnValue where
  | text (text : String)
  | integer (n : Int64)

/-- A term of a printed query: a phrase of the default column or, where words can name columns, a
column clause. -/
inductive Leaf : (columnClauses : Bool) → Type where
  | phrase {columnClauses : Bool} (content : String) : Leaf columnClauses
  | column (path : ColumnPath) (mode : Mode) (value : ColumnValue) : Leaf true

namespace Leaf

/-- A term as a query writes it: a text in quotes, and an integer by its digits. -/
def spelling {columnClauses : Bool} : Leaf columnClauses → List Char
  | phrase content => quote content
  | column path mode (.text text) =>
    columnWord path.text.toList mode.operator [] ++ quote text
  | column path mode (.integer n) =>
    columnWord path.text.toList mode.operator (toString n).toList

/-- What a term stands for. -/
def term (options : ParseOptions) (defaultColumn : String) {columnClauses : Bool} :
    Leaf columnClauses → Term
  | phrase content => keywordTerm options defaultColumn content
  | column path mode (.text text) => ⟨Text.segments path.text, mode.operator, .text text⟩
  | column path mode (.integer n) => ⟨Text.segments path.text, mode.operator, .integer n⟩

/-- The spelling of a column clause is scanned into tokens of it, with a default column or
without one. -/
theorem prints_column (options : ParseOptions) (defaultColumn : String) (path : ColumnPath)
    (mode : Mode) (value : ColumnValue) :
    Prints (column path mode value).spelling
      (TermTokens ⟨options, true⟩ ((column path mode value).term options defaultColumn)) := by
  have htext : Text.segments path.text = Text.segments (String.ofList path.text.toList) := by
    rw [String.ofList_toList]
  cases value with
  | text text =>
      have hbegins : ¬ BeginsMode [] := by
        rintro ⟨c, rest, hnil, _⟩
        cases hnil
      have hclause := columnClause?_word path.isPath mode.isMode hbegins
      intro after P hafter hscans
      rw [spelling, List.append_assoc]
      refine (scans_columnWord path.isPath (by simp) ?_ (scans_quote hscans)).mono ?_
      · exact endsWord_quote _
      · rintro tokens ⟨token, _, rfl, hkind, _, next, behind, rfl, hnext, hglued, hP⟩
        refine ⟨[token, next], behind, rfl, ?_, hP⟩
        rw [term, htext]
        refine .glued rfl hkind ?_ hnext hglued
        rw [String.toList_ofList]
        exact hclause
  | integer n =>
      have hclause := columnClause?_word path.isPath mode.isMode (not_beginsMode_toString n)
      have hword := prints_of_scans
        (columnWord path.text.toList mode.operator (toString n).toList)
        fun _ _ hafter hscans =>
          scans_columnWord path.isPath (isWordChar_of_mem_toString n) hafter.endsWord hscans
      refine hword.mono ?_
      rintro tokens ⟨token, rfl, hkind⟩
      rw [term, htext, ← bareValue_toString n]
      refine .value rfl hkind ?_ (toString_int64_ne_nil n)
      rw [String.toList_ofList]
      exact hclause

/-- The spelling of a term is scanned into tokens of the term. -/
theorem prints {options : ParseOptions} {defaultColumn : String} {columnClauses : Bool}
    (hdefault : options.defaultColumn = some defaultColumn) (leaf : Leaf columnClauses) :
    Prints leaf.spelling
      (TermTokens ⟨options, columnClauses⟩ (leaf.term options defaultColumn)) := by
  cases leaf with
  | phrase content =>
      have hphrase := prints_of_scans (quote content) fun _ _ _ hscans =>
        scans_quote hscans
      refine hphrase.mono ?_
      rintro tokens ⟨token, rfl, hkind⟩
      exact .phrase hdefault hkind
  | column path mode value => exact prints_column options defaultColumn path mode value

end Leaf

end RecordQuery.Query

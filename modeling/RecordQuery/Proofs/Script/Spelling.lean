import RecordQuery.Proofs.Decimal.Reading
import RecordQuery.Proofs.Query.Printing
import RecordQuery.Proofs.Script.Grammar
import RecordQuery.Proofs.Script.Lexing
import RecordQuery.Proofs.Text.Letter

/-!
# Spellings of tokens

Every kind of token is cut off a text that goes on with a space or ends behind it: marks, operators,
names and keywords, strings in quotes, integers and floats.
-/

namespace RecordQuery.Script

open Query (Separated)

variable {P : List Token → Prop} {after : List Char}

/-! ## Marks and operators -/

theorem lexes_mark {c : Char} (hmark : isPunctuator c = true) (h : Lexes after P) :
    Lexes (c :: after) (Begins .punctuator [c] P) := by
  have hchars : c = ',' ∨ c = '(' ∨ c = ')' ∨ c = '.' := by
    simpa [isPunctuator, punctuators] using hmark
  rcases hchars with rfl | rfl | rfl | rfl <;>
    exact lexes_token (by decide) rfl rfl h

/-- An operator is cut off whole: what follows makes it no longer. -/
theorem lexes_operator {spelling : String} (hoperator : isOperator spelling = true)
    (hafter : Separated after) (h : Lexes after P) :
    Lexes (spelling.toList ++ after) (Begins .operator spelling.toList P) := by
  have hspellings : spelling ∈ operators := by simpa [isOperator] using hoperator
  simp only [operators, List.mem_cons, List.not_mem_nil, or_false] at hspellings
  rcases hafter with rfl | ⟨rest, rfl⟩ <;>
    rcases hspellings with rfl | rfl | rfl | rfl | rfl | rfl | rfl | rfl | rfl | rfl | rfl | rfl |
      rfl | rfl | rfl | rfl | rfl | rfl | rfl <;>
    exact lexes_token (by decide) rfl rfl h

/-! ## Names and keywords -/

/-- Whether characters form a name or a keyword. -/
def IsWord (word : List Char) : Prop :=
  ∃ c rest, word = c :: rest ∧ startsIdentifier c = true ∧
    ∀ d ∈ rest, continuesIdentifier d = true

theorem isWord_of_isKeyword {word : String} (h : isKeyword word = true) : IsWord word.toList := by
  have hwords : word = "true" ∨ word = "false" ∨ word = "null" := by
    simpa [isKeyword, keywords] using h
  rcases hwords with rfl | rfl | rfl <;>
    exact ⟨_, _, rfl, by decide, List.all_eq_true.mp (by decide)⟩

/-- Whether a text is a name. -/
structure IsName (name : String) : Prop where
  /-- It is a row of letters, numbers and underscores. -/
  word : IsWord name.toList
  /-- It is none of the keywords. -/
  not_keyword : isKeyword name = false

theorem startsIdentifier_of_isDigit {c : Char} (h : c.isDigit = true) :
    startsIdentifier c = false := by
  have hrange : 48 ≤ c.toNat ∧ c.toNat ≤ 57 := by
    simpa [Char.isDigit, UInt32.le_iff_toNat_le] using h
  -- The letters of ASCII come behind its digits.
  have hupper : c.isUpper = false := by
    refine decide_eq_false fun hletter => ?_
    have hbound : 65 ≤ c.toNat := UInt32.le_iff_toNat_le.mp hletter.1
    omega
  have hlower : c.isLower = false := by
    refine Bool.eq_false_iff.mpr fun hletter => ?_
    have hbound : 97 ≤ c.toNat :=
      UInt32.le_iff_toNat_le.mp (of_decide_eq_true (Bool.and_eq_true_iff.mp hletter).1)
    omega
  have halpha : c.isAlpha = false := Bool.or_eq_false_iff.mpr ⟨hupper, hlower⟩
  have hunderscore : c ≠ '_' := by
    rintro rfl
    exact absurd h (by decide)
  simp [startsIdentifier, Text.isAlphabetic, Text.isAscii_of_isDigit h, halpha, hunderscore]

theorem isBlank_of_startsIdentifier {c : Char} (h : startsIdentifier c = true) :
    Text.isBlank c = false := by
  simp only [startsIdentifier, Bool.or_eq_true, beq_iff_eq] at h
  rcases h with halphabetic | rfl
  · exact Text.isBlank_eq_false_of_isAlphanumeric (by simp [Text.isAlphanumeric, halphabetic])
  · decide

/-- What starts like a name is cut off up to where no name goes on. -/
theorem readToken_of_startsIdentifier {c : Char} (h : startsIdentifier c = true)
    (rest : List Char) :
    readToken c rest =
      (if isKeyword (String.ofList (c :: rest.takeWhile continuesIdentifier)) then .keyword
        else .identifier, c :: rest.takeWhile continuesIdentifier,
        (c :: rest.takeWhile continuesIdentifier).length) := by
  have hne (d : Char) (hd : startsIdentifier d = false) : c ≠ d := by
    rintro rfl
    exact Bool.false_ne_true (hd.symm.trans h)
  have hquote : ¬ (c = '"' ∨ c = '\'') :=
    not_or.mpr ⟨hne _ (by decide), hne _ (by decide)⟩
  have hdigit : ¬ c.isDigit = true := fun hdigit =>
    Bool.false_ne_true ((startsIdentifier_of_isDigit hdigit).symm.trans h)
  have hmark : ¬ isPunctuator c = true := by
    intro hmark
    have hnone : punctuators.any startsIdentifier = false := by decide
    have hmem : c ∈ punctuators := by simpa [isPunctuator] using hmark
    exact List.any_eq_false.mp hnone c hmem h
  have hoperator : ¬ isOperatorChar c = true := by
    intro hoperator
    have hnone : operatorChars.any startsIdentifier = false := by decide
    have hmem : c ∈ operatorChars := by simpa [isOperatorChar] using hoperator
    exact List.any_eq_false.mp hnone c hmem h
  unfold readToken
  rw [if_neg hquote, if_neg hdigit, if_neg hmark, if_neg hoperator, if_pos h]

/-- Whether a text begins with no character that a condition holds of. -/
def Stops (condition : Char → Bool) (text : List Char) : Prop :=
  ∀ c rest, text = c :: rest → condition c = false

theorem stops_cons {condition : Char → Bool} {c : Char} (h : condition c = false)
    (rest : List Char) : Stops condition (c :: rest) := by
  intro d later heq
  rwa [← (List.cons.inj heq).1]

theorem stops_of_separated {condition : Char → Bool} (hspace : condition ' ' = false)
    (hafter : Separated after) : Stops condition after := by
  rcases hafter with rfl | ⟨rest, rfl⟩
  · intro c later heq
    cases heq
  · exact stops_cons hspace rest

theorem takeWhile_of_stops {condition : Char → Bool} {taken : List Char}
    (htaken : ∀ c ∈ taken, condition c = true) (hafter : Stops condition after) :
    (taken ++ after).takeWhile condition = taken := by
  rw [List.takeWhile_append_of_pos htaken]
  cases after with
  | nil => simp
  | cons c rest => simp [hafter c rest rfl]

theorem lexes_word {word : String} (hword : IsWord word.toList)
    (hafter : Stops continuesIdentifier after) (h : Lexes after P) :
    Lexes (word.toList ++ after)
      (Begins (if isKeyword word then .keyword else .identifier) word.toList P) := by
  obtain ⟨c, rest, hchars, hstart, hrest⟩ := hword
  have hread := readToken_of_startsIdentifier hstart (rest ++ after)
  rw [takeWhile_of_stops hrest hafter, ← hchars, String.ofList_toList] at hread
  rw [hchars] at hread ⊢
  have hbehind : (c :: (rest ++ after)).drop (c :: rest).length = after := by
    rw [← List.cons_append, List.drop_left]
  exact lexes_token (isBlank_of_startsIdentifier hstart) hread hbehind h

theorem lexes_name {name : String} (hname : IsName name)
    (hafter : Stops continuesIdentifier after) (h : Lexes after P) :
    Lexes (name.toList ++ after) (Begins .identifier name.toList P) := by
  have hlexes := lexes_word hname.word hafter h
  rwa [hname.not_keyword] at hlexes

/-! ## Strings -/

/-- The quotes that a string can stand in. -/
inductive Quotes where
  | single
  | double

/-- The character at both ends of a string. -/
def Quotes.mark : Quotes → Char
  | single => '\''
  | double => '"'

/-- A text with the backslashes and the quotes of a kind escaped. -/
def Quotes.escape (quotes : Quotes) (text : List Char) : List Char :=
  text.flatMap fun c => if c = quotes.mark ∨ c = '\\' then ['\\', c] else [c]

/-- A text in quotes. -/
def Quotes.enclose (quotes : Quotes) (text : String) : List Char :=
  quotes.mark :: (quotes.escape text.toList ++ [quotes.mark])

theorem readString_of_plain {quote c : Char} {rest : List Char} (hbackslash : c ≠ '\\')
    (hquote : c ≠ quote) :
    readString quote (c :: rest) =
      (c :: (readString quote rest).1, (readString quote rest).2.1,
        (readString quote rest).2.2 + 1) := by
  rw [readString, if_neg hquote]
  · rintro rfl
    exact absurd rfl hbackslash
  · rintro d rest' rfl
    exact absurd rfl hbackslash

/-- An escaped text up to a quote is read as the text. -/
theorem readString_escape (quotes : Quotes) (text after : List Char) :
    readString quotes.mark (quotes.escape text ++ quotes.mark :: after) =
      (text, true, (quotes.escape text).length + 1) := by
  -- Neither quote is an escape of anything but itself.
  have hunescape : unescape quotes.mark = quotes.mark := by cases quotes <;> rfl
  induction text with
  | nil => cases quotes <;> simp [Quotes.escape, Quotes.mark, readString]
  | cons c text ih =>
      have hescape : quotes.escape (c :: text) =
          (if c = quotes.mark ∨ c = '\\' then ['\\', c] else [c]) ++ quotes.escape text := rfl
      rw [hescape]
      by_cases hspecial : c = quotes.mark ∨ c = '\\'
      · rw [if_pos hspecial]
        have hsame : unescape c = c := by
          rcases hspecial with rfl | rfl
          · exact hunescape
          · rfl
        simp [readString, ih, hsame]
      · rw [if_neg hspecial]
        rw [not_or] at hspecial
        rw [List.append_assoc, List.singleton_append,
          readString_of_plain hspecial.2 hspecial.1, ih]
        simp

/-- A text in quotes of either kind is a string, whatever follows it. -/
theorem lexes_enclose (quotes : Quotes) (text : String) (h : Lexes after P) :
    Lexes (quotes.enclose text ++ after) (Begins .string text.toList P) := by
  have hcontent := readString_escape quotes text.toList after
  have hquote : quotes.mark = '"' ∨ quotes.mark = '\'' := by cases quotes <;> simp [Quotes.mark]
  have hread : readToken quotes.mark (quotes.escape text.toList ++ quotes.mark :: after) =
      (.string, text.toList, (quotes.enclose text).length) := by
    simp [readToken, hquote, hcontent, Quotes.enclose]
  have henclosed : quotes.enclose text ++ after =
      quotes.mark :: (quotes.escape text.toList ++ quotes.mark :: after) := by
    simp [Quotes.enclose]
  rw [henclosed]
  exact lexes_token (by cases quotes <;> decide) hread (by rw [← henclosed, List.drop_left]) h

theorem lexes_quote (text : String) (h : Lexes after P) :
    Lexes (Query.quote text ++ after) (Begins .string text.toList P) :=
  lexes_enclose .double text h

/-! ## Numerals -/

/-- Whether characters are decimal digits, at least one. -/
structure IsDigits (digits : List Char) : Prop where
  nonempty : digits ≠ []
  digits : ∀ c ∈ digits, c.isDigit = true

/-- The fraction of a numeral: nothing, or a point with digits. -/
inductive IsFraction : List Char → Prop
  | absent : IsFraction []
  | present {digits : List Char} : IsDigits digits → IsFraction ('.' :: digits)

/-- The exponent of a numeral: nothing, or a mark with digits that may have a sign. -/
inductive IsExponent : List Char → Prop
  | absent : IsExponent []
  | present {mark : Char} {sign digits : List Char} :
      mark = 'e' ∨ mark = 'E' → sign = [] ∨ sign = ['+'] ∨ sign = ['-'] → IsDigits digits →
      IsExponent (mark :: (sign ++ digits))

/-- A numeral with a fraction or an exponent. -/
structure FloatNumeral where
  whole : List Char
  fraction : List Char
  exponent : List Char
  whole_digits : IsDigits whole
  fraction_shape : IsFraction fraction
  exponent_shape : IsExponent exponent
  /-- Without both it would be an integer. -/
  is_float : fraction ≠ [] ∨ exponent ≠ []

/-- A numeral as a script writes it. -/
def FloatNumeral.spelling (numeral : FloatNumeral) : List Char :=
  numeral.whole ++ (numeral.fraction ++ numeral.exponent)

/-- Whether a text begins with no digit. -/
def NoDigit (text : List Char) : Prop := Stops Char.isDigit text

theorem takeWhile_isDigit {digits behind : List Char} (hdigits : IsDigits digits)
    (hbehind : NoDigit behind) : (digits ++ behind).takeWhile Char.isDigit = digits :=
  takeWhile_of_stops hdigits.digits hbehind

theorem dropWhile_isDigit {digits behind : List Char} (hdigits : IsDigits digits)
    (hbehind : NoDigit behind) : (digits ++ behind).dropWhile Char.isDigit = behind := by
  rw [List.dropWhile_append_of_pos hdigits.digits]
  cases behind with
  | nil => rfl
  | cons c rest => simp [hbehind c rest rfl]

theorem digitsLength_append {digits behind : List Char} (hdigits : IsDigits digits)
    (hbehind : NoDigit behind) : digitsLength (digits ++ behind) = digits.length := by
  rw [digitsLength, takeWhile_isDigit hdigits hbehind]

theorem noDigit_of_separated (hafter : Separated after) : NoDigit after :=
  stops_of_separated (by decide) hafter

theorem IsFraction.point_mem {fraction : List Char} (h : IsFraction fraction)
    (hne : fraction ≠ []) : '.' ∈ fraction := by
  cases h with
  | absent => exact absurd rfl hne
  | present _ => simp

theorem IsExponent.exists_mark {exponent : List Char} (h : IsExponent exponent)
    (hne : exponent ≠ []) : ∃ c ∈ exponent, c = 'e' ∨ c = 'E' := by
  cases h with
  | absent => exact absurd rfl hne
  | present hmark _ _ => exact ⟨_, by simp, hmark⟩

theorem IsExponent.noDigit {exponent : List Char} (h : IsExponent exponent)
    (hafter : Separated after) : NoDigit (exponent ++ after) := by
  cases h with
  | absent => exact noDigit_of_separated hafter
  | present hmark _ _ =>
      intro c rest heq
      obtain ⟨rfl, _⟩ := List.cons.inj heq
      rcases hmark with rfl | rfl <;> decide

theorem IsFraction.noDigit {fraction behind : List Char} (h : IsFraction fraction)
    (hbehind : NoDigit behind) : NoDigit (fraction ++ behind) := by
  cases h with
  | absent => exact hbehind
  | present _ =>
      intro c rest heq
      obtain ⟨rfl, _⟩ := List.cons.inj heq
      decide

theorem exponentLength_append {exponent : List Char} (h : IsExponent exponent)
    (hafter : Separated after) : exponentLength (exponent ++ after) = exponent.length := by
  cases h with
  | absent =>
      rcases hafter with rfl | ⟨rest, rfl⟩
      · rfl
      · cases rest <;> rfl
  | @present mark sign digits hmark hsign hdigits =>
      have hlength := digitsLength_append hdigits (noDigit_of_separated hafter)
      obtain ⟨d, later, rfl⟩ := List.exists_cons_of_ne_nil hdigits.nonempty
      have hdigit := hdigits.digits d (by simp)
      rcases hsign with rfl | rfl | rfl
      · simp only [List.nil_append, List.cons_append] at hlength ⊢
        simp only [exponentLength, if_pos hmark, hdigit, if_true, hlength, List.length_cons]
        omega
      · have hsign : ('+' : Char).isDigit = false := by decide
        simp only [List.cons_append, List.nil_append] at hlength ⊢
        simp only [exponentLength, if_pos hmark, hsign, Bool.false_eq_true, if_false, true_or,
          if_true, hlength, List.length_cons]
        omega
      · have hsign : ('-' : Char).isDigit = false := by decide
        simp only [List.cons_append, List.nil_append] at hlength ⊢
        simp only [exponentLength, if_pos hmark, hsign, Bool.false_eq_true, if_false, or_true,
          if_true, hlength, List.length_cons]
        omega

theorem fractionLength_append {fraction exponent : List Char} (h : IsFraction fraction)
    (hexponent : IsExponent exponent) (hafter : Separated after) :
    fractionLength (fraction ++ (exponent ++ after)) = fraction.length := by
  cases h with
  | absent =>
      -- Without a fraction no point may follow, not even behind an exponent.
      have hpoint : ∀ rest, exponent ++ after ≠ '.' :: rest := by
        intro rest heq
        cases hexponent with
        | absent =>
            rcases hafter with rfl | ⟨_, rfl⟩
            · cases heq
            · exact absurd (List.cons.inj heq).1 (by decide)
        | present hmark _ _ =>
            have hfirst := (List.cons.inj heq).1
            rcases hmark with rfl | rfl <;> exact absurd hfirst (by decide)
      rw [List.nil_append]
      unfold fractionLength
      split
      · rename_i heq
        exact absurd heq (hpoint _)
      · rfl
  | @present digits hdigits =>
      have hlength := digitsLength_append hdigits (hexponent.noDigit hafter)
      obtain ⟨d, later, rfl⟩ := List.exists_cons_of_ne_nil hdigits.nonempty
      have hdigit := hdigits.digits d (by simp)
      simp only [List.cons_append] at hlength ⊢
      simp only [fractionLength, hdigit, if_true, hlength, List.length_cons]
      omega

/-- A numeral is cut off whole. -/
theorem numberLength_append {whole fraction exponent : List Char} (hwhole : IsDigits whole)
    (hfraction : IsFraction fraction) (hexponent : IsExponent exponent)
    (hafter : Separated after) :
    numberLength (whole ++ (fraction ++ (exponent ++ after))) =
      (whole ++ (fraction ++ exponent)).length := by
  have hfirst := digitsLength_append hwhole (hfraction.noDigit (hexponent.noDigit hafter))
  have hbehind : (whole ++ (fraction ++ (exponent ++ after))).drop
      (whole.length + fraction.length) = exponent ++ after := by
    rw [← List.append_assoc, ← List.length_append, List.drop_left]
  simp only [numberLength, hfirst, List.drop_left, fractionLength_append hfraction hexponent hafter,
    hbehind, exponentLength_append hexponent hafter, List.length_append]
  omega

theorem lexes_number {whole fraction exponent : List Char} (hwhole : IsDigits whole)
    (hfraction : IsFraction fraction) (hexponent : IsExponent exponent)
    (hafter : Separated after) (h : Lexes after P) :
    Lexes (whole ++ (fraction ++ exponent) ++ after)
      (Begins (if isFloatSpelling (whole ++ (fraction ++ exponent)) then .float else .integer)
        (whole ++ (fraction ++ exponent)) P) := by
  have hlength := numberLength_append hwhole hfraction hexponent hafter
  rw [← List.append_assoc fraction, ← List.append_assoc whole] at hlength
  have htaken : (whole ++ (fraction ++ exponent) ++ after).take
      (whole ++ (fraction ++ exponent)).length = whole ++ (fraction ++ exponent) := List.take_left
  have hbehind : (whole ++ (fraction ++ exponent) ++ after).drop
      (whole ++ (fraction ++ exponent)).length = after := List.drop_left
  generalize hspelling : whole ++ (fraction ++ exponent) = spelling at hlength htaken hbehind ⊢
  obtain ⟨d, later, rfl⟩ := List.exists_cons_of_ne_nil hwhole.nonempty
  obtain ⟨rest, rfl⟩ : ∃ rest, spelling = d :: rest := ⟨_, hspelling.symm⟩
  have hdigit := hwhole.digits d (by simp)
  have hquote : ¬ (d = '"' ∨ d = '\'') := by
    rintro (rfl | rfl) <;> exact absurd hdigit (by decide)
  have hblank : Text.isBlank d = false :=
    Text.isBlank_eq_false_of_isAlphanumeric (Text.isAlphanumeric_of_isDigit hdigit)
  rw [List.cons_append] at hlength htaken hbehind ⊢
  have hread : readToken d (rest ++ after) =
      (if isFloatSpelling (d :: rest) then .float else .integer, d :: rest,
        (d :: rest).length) := by
    simp only [readToken, if_neg hquote, hdigit, if_true, hlength, htaken]
  exact lexes_token hblank hread hbehind h

theorem lexes_integer {digits : List Char} (hdigits : IsDigits digits) (hafter : Separated after)
    (h : Lexes after P) : Lexes (digits ++ after) (Begins .integer digits P) := by
  have hlexes := lexes_number hdigits .absent .absent hafter h
  have hspelling : isFloatSpelling digits = false := by
    rw [isFloatSpelling, List.any_eq_false]
    intro c hmem
    have hdigit := hdigits.digits c hmem
    have hne (d : Char) (hd : d.isDigit = false) : c ≠ d := by
      rintro rfl
      exact Bool.false_ne_true (hd.symm.trans hdigit)
    simp [hne '.' (by decide), hne 'e' (by decide), hne 'E' (by decide)]
  simpa [hspelling] using hlexes

namespace FloatNumeral

theorem lexes (numeral : FloatNumeral) (hafter : Separated after) (h : Lexes after P) :
    Lexes (numeral.spelling ++ after) (Begins .float numeral.spelling P) := by
  have hlexes := lexes_number numeral.whole_digits numeral.fraction_shape numeral.exponent_shape
    hafter h
  have hspelling : isFloatSpelling numeral.spelling = true := by
    obtain ⟨c, hmem, hmark⟩ : ∃ c ∈ numeral.fraction ++ numeral.exponent,
        c = '.' ∨ c = 'e' ∨ c = 'E' := by
      rcases numeral.is_float with hfraction | hexponent
      · exact ⟨'.', List.mem_append_left _ (numeral.fraction_shape.point_mem hfraction),
          Or.inl rfl⟩
      · obtain ⟨c, hmem, hmark⟩ := numeral.exponent_shape.exists_mark hexponent
        exact ⟨c, List.mem_append_right _ hmem, Or.inr hmark⟩
    rw [isFloatSpelling, List.any_eq_true]
    exact ⟨c, List.mem_append_right _ hmem, by simpa [or_assoc] using hmark⟩
  rw [show numeral.whole ++ (numeral.fraction ++ numeral.exponent) = numeral.spelling from rfl,
    hspelling] at hlexes
  exact hlexes

theorem exists_readExponent {exponent : List Char} (h : IsExponent exponent) :
    ∃ n, Decimal.readExponent exponent = some n := by
  cases h with
  | absent => exact ⟨0, rfl⟩
  | @present mark sign digits hmark hsign hdigits =>
      have hread : ∃ negative, Decimal.readSign (sign ++ digits) = (negative, digits) := by
        obtain ⟨d, later, rfl⟩ := List.exists_cons_of_ne_nil hdigits.nonempty
        rcases hsign with rfl | rfl | rfl
        · exact ⟨false, Decimal.readSign_of_isDigit (hdigits.digits d (by simp))⟩
        · exact ⟨false, rfl⟩
        · exact ⟨true, rfl⟩
      obtain ⟨negative, hread⟩ := hread
      have hall : digits.all Char.isDigit = true := List.all_eq_true.mpr hdigits.digits
      have hshape : (mark = 'e' ∨ mark = 'E') ∧ digits ≠ [] ∧ digits.all Char.isDigit = true :=
        ⟨hmark, hdigits.nonempty, hall⟩
      simp only [Decimal.readExponent, hread, if_pos hshape]
      exact ⟨_, rfl⟩

/-- Every numeral with a fraction or an exponent stands for a float. -/
theorem exists_readFloat (numeral : FloatNumeral) :
    ∃ x, Decimal.readFloat numeral.spelling = some x := by
  obtain ⟨whole, fraction, exponent, hwhole, hfraction, hexponent, _⟩ := numeral
  obtain ⟨n, hn⟩ := exists_readExponent hexponent
  have hbehind : NoDigit (fraction ++ exponent) := by
    have hnone := hfraction.noDigit (hexponent.noDigit (Or.inl rfl))
    rwa [List.append_nil] at hnone
  have hsign : Decimal.readSign (whole ++ (fraction ++ exponent)) =
      (false, whole ++ (fraction ++ exponent)) := by
    obtain ⟨d, later, rfl⟩ := List.exists_cons_of_ne_nil hwhole.nonempty
    exact Decimal.readSign_of_isDigit (hwhole.digits d (by simp))
  have hend : NoDigit exponent := by
    have hnone : NoDigit (exponent ++ []) := hexponent.noDigit (Or.inl rfl)
    rwa [List.append_nil] at hnone
  have hnonempty (found : List Char) : whole ++ found ≠ [] := by simp [hwhole.nonempty]
  simp only [Decimal.readFloat, spelling, hsign, takeWhile_isDigit hwhole hbehind,
    dropWhile_isDigit hwhole hbehind]
  -- The fraction is what lies behind a point, and the exponent is what is left.
  cases hfraction with
  | present hdigits =>
      simp only [List.cons_append, takeWhile_isDigit hdigits hend, dropWhile_isDigit hdigits hend,
        if_neg (hnonempty _), hn]
      exact ⟨_, rfl⟩
  | absent =>
      cases hexponent with
      | absent =>
          simp only [List.nil_append, if_neg (hnonempty _), hn]
          exact ⟨_, rfl⟩
      | present hmark _ _ =>
          rcases hmark with rfl | rfl <;> simp [hwhole.nonempty, hn]

end FloatNumeral

end RecordQuery.Script

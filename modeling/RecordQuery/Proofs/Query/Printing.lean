import RecordQuery.Proofs.Query.Grammar
import RecordQuery.Proofs.Query.Scanning

/-!
# Printed queries are scanned into tokens of their trees

A tree whose terms can be spelled is printed with a space between any two parts
(`Sequence.spelling`).  If the spelling of every term is scanned into tokens of the term, then the
printed tree is scanned into tokens of the tree (`Sequence.prints_spelling`).  What is printed
stands before other text, so the claim is about beginnings of texts (`Prints`) and goes along the
tree.
-/

namespace RecordQuery.Query

mutual

/-- A term or a group with other terms. -/
def Primary.map {α β : Type} (f : α → β) : Primary α → Primary β
  | .term term => .term (f term)
  | .group sequence => .group (sequence.map f)

/-- Clauses in a row with other terms. -/
def Sequence.map {α β : Type} (f : α → β) : Sequence α → Sequence β
  | .first sign primary => .first sign (primary.map f)
  | .later before afterOr sign primary =>
    .later (before.map f) afterOr sign (primary.map f)

end

theorem Sequence.count_map {α β : Type} (f : α → β) : (sequence : Sequence α) →
    (sequence.map f).count = sequence.count
  | .first _ _ => rfl
  | .later before _ _ _ => congrArg (· + 1) (Sequence.count_map f before)

/-! ## Spelling -/

/-- `OR` with the space behind it, where it is. -/
def spellOr (afterOr : Bool) : List Char := if afterOr then ['O', 'R', ' '] else []

/-- A sign with the space behind it, if there is one. -/
def spellSign : Option Sign → List Char
  | none => []
  | some .plus => ['+', ' ']
  | some .minus => ['-', ' ']

mutual

/-- A term or a group as a query writes it. -/
def Primary.spelling {α : Type} (spell : α → List Char) : Primary α → List Char
  | .term term => spell term
  | .group sequence => '(' :: ' ' :: (sequence.spelling spell ++ [' ', ')'])

/-- Clauses in a row as a query writes them. -/
def Sequence.spelling {α : Type} (spell : α → List Char) : Sequence α → List Char
  | .first sign primary => spellSign sign ++ primary.spelling spell
  | .later before afterOr sign primary =>
    before.spelling spell ++
      ' ' :: (spellOr afterOr ++ (spellSign sign ++ primary.spelling spell))

end

/-! ## What a beginning of a text is scanned into -/

/-- Whether a text ends or goes on with a space. -/
def Separated (after : List Char) : Prop := after = [] ∨ ∃ rest, after = ' ' :: rest

theorem Separated.endsWord {after : List Char} (h : Separated after) : EndsWord after := by
  rcases h with rfl | ⟨rest, rfl⟩
  · exact endsWord_nil
  · exact endsWord_space rest

/-- Whether a spelling before a space or the end is scanned into tokens with a property. -/
def Prints (spelling : List Char) (written : List Token → Prop) : Prop :=
  ∀ (after : List Char) (P : List Token → Prop), Separated after → Scans true after P →
    Scans false (spelling ++ after) fun tokens =>
      ∃ before behind, tokens = before ++ behind ∧ written before ∧ P behind

variable {α : Type} {rules : Rules} {spell : α → List Char} {lower : α → Term}

theorem Separated.space (rest : List Char) : Separated (' ' :: rest) := Or.inr ⟨rest, rfl⟩

theorem Prints.mono {spelling : List Char} {written other : List Token → Prop}
    (h : Prints spelling written) (hproperty : ∀ tokens, written tokens → other tokens) :
    Prints spelling other := by
  intro after P hafter hscans
  refine (h after P hafter hscans).mono ?_
  rintro tokens ⟨before, behind, rfl, hwritten, hP⟩
  exact ⟨before, behind, rfl, hproperty before hwritten, hP⟩

/-- Spellings with a space between them are scanned one after the other. -/
theorem Prints.append {first later : List Char} {one other : List Token → Prop}
    (hfirst : Prints first one) (hlater : Prints later other) :
    Prints (first ++ ' ' :: later) fun tokens =>
      ∃ before behind, tokens = before ++ behind ∧ one before ∧ other behind := by
  intro after P hafter hscans
  have hbehind := hlater after P hafter hscans
  have hall := hfirst (' ' :: (later ++ after)) _ (Separated.space _) (scans_space hbehind)
  rw [List.append_assoc, List.cons_append]
  refine hall.mono ?_
  rintro tokens ⟨before, rest, rfl, hone, between, behind, rfl, hother, hP⟩
  exact ⟨before ++ between, behind, by rw [List.append_assoc], ⟨before, between, rfl, hone, hother⟩,
    hP⟩

theorem prints_of_scans (spelling : List Char) {kind : TokenKind}
    (h : ∀ (after : List Char) (P : List Token → Prop), Separated after → Scans true after P →
      Scans false (spelling ++ after) (Begins kind false P)) :
    Prints spelling fun tokens => ∃ token, tokens = [token] ∧ token.kind = kind := by
  intro after P hafter hscans
  refine (h after P hafter hscans).mono ?_
  rintro tokens ⟨token, behind, rfl, hkind, _, hP⟩
  exact ⟨[token], behind, rfl, ⟨token, rfl, hkind⟩, hP⟩

/-! ## Signs and `OR` -/

/-- Behind an optional sign a spelling is scanned as by itself. -/
theorem prints_spellSign (sign : Option Sign) {spelling : List Char} {written : List Token → Prop}
    (h : Prints spelling written) :
    Prints (spellSign sign ++ spelling) fun tokens =>
      ∃ signs behind, tokens = signs ++ behind ∧ SignTokens sign signs ∧ written behind := by
  rcases sign with _ | _ | _
  · exact h.mono fun tokens hwritten => ⟨[], tokens, rfl, .absent, hwritten⟩
  · have hsign := prints_of_scans ['+'] fun _ _ _ hscans => scans_plus hscans
    refine (hsign.append h).mono ?_
    rintro tokens ⟨before, behind, rfl, ⟨token, rfl, hkind⟩, hwritten⟩
    exact ⟨[token], behind, rfl, .plus hkind, hwritten⟩
  · have hsign := prints_of_scans ['-'] fun _ _ _ hscans => scans_minus hscans
    refine (hsign.append h).mono ?_
    rintro tokens ⟨before, behind, rfl, ⟨token, rfl, hkind⟩, hwritten⟩
    exact ⟨[token], behind, rfl, .minus hkind, hwritten⟩

theorem prints_spellOr (afterOr : Bool) {spelling : List Char} {written : List Token → Prop}
    (h : Prints spelling written) :
    Prints (spellOr afterOr ++ spelling) fun tokens =>
      ∃ ors behind, tokens = ors ++ behind ∧ OrTokens afterOr ors ∧ written behind := by
  cases afterOr with
  | false => exact h.mono fun tokens hwritten => ⟨[], tokens, rfl, .absent, hwritten⟩
  | true =>
      have hor := prints_of_scans ['O', 'R'] fun _ _ hafter hscans =>
        scans_or hafter.endsWord hscans
      refine (hor.append h).mono ?_
      rintro tokens ⟨before, behind, rfl, ⟨token, rfl, hkind⟩, hwritten⟩
      exact ⟨[token], behind, rfl, .present hkind, hwritten⟩

/-! ## Trees -/

mutual

theorem Primary.prints_spelling (hterm : ∀ t, Prints (spell t) (TermTokens rules (lower t))) :
    (primary : Primary α) →
      Prints (primary.spelling spell) ((primary.map lower).Derives rules)
  | .term t => (hterm t).mono fun _ htokens => .term htokens
  | .group sequence => by
    have hsequence := sequence.prints_spelling hterm
    have hopening := prints_of_scans ['('] fun _ _ _ hscans => scans_opening hscans
    have hclosing := prints_of_scans [')'] fun _ _ _ hscans => scans_closing hscans
    refine (hopening.append (hsequence.append hclosing)).mono ?_
    rintro tokens ⟨_, _, rfl, ⟨opening, rfl, hopens⟩, inner, _, rfl, hinner, closing, rfl, hcloses⟩
    exact .group hopens hinner hcloses

/-- Printed clauses in a row are scanned into tokens of them. -/
theorem Sequence.prints_spelling (hterm : ∀ t, Prints (spell t) (TermTokens rules (lower t))) :
    (sequence : Sequence α) →
      Prints (sequence.spelling spell) ((sequence.map lower).Derives rules)
  | .first sign primary => by
    refine (prints_spellSign sign (primary.prints_spelling hterm)).mono ?_
    rintro tokens ⟨signs, behind, rfl, hsigns, hprimary⟩
    exact .first hsigns hprimary
  | .later before afterOr sign primary => by
    have hclause := prints_spellOr afterOr (prints_spellSign sign (primary.prints_spelling hterm))
    refine ((before.prints_spelling hterm).append hclause).mono ?_
    rintro tokens ⟨earlier, _, rfl, hearlier, ors, _, rfl, hors, signs, behind, rfl, hsigns,
      hprimary⟩
    exact .later hearlier hors hsigns hprimary

end

/-- A printed sequence has tokens that the sequence derives. -/
theorem Sequence.tokenize_spelling (hterm : ∀ t, Prints (spell t) (TermTokens rules (lower t)))
    (sequence : Sequence α) :
    ∃ tokens, tokenize (String.ofList (sequence.spelling spell)) = .ok tokens ∧
      (sequence.map lower).Derives rules tokens := by
  have hscans := sequence.prints_spelling hterm [] _ (Or.inl rfl) (scans_nil true)
  rw [List.append_nil, ← String.toList_ofList (l := sequence.spelling spell)] at hscans
  obtain ⟨tokens, htokens, before, behind, rfl, hderives, rfl⟩ := hscans.tokenize
  exact ⟨_, htokens, by rw [List.append_nil]; exact hderives⟩

end RecordQuery.Query

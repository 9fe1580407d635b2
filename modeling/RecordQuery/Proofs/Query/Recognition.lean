import RecordQuery.Proofs.Query.Balance
import RecordQuery.Proofs.Query.Grammar

/-!
# The reader accepts exactly the grammar

A sequence that derives tokens is read off any row of tokens that begins with them
(`Sequence.Derives.read`), and whatever is read is derived (`sound`).  Both need a bound that covers
the depth of the reading; the bounds of the three readers differ by one step each, and every clause
takes a token, which leaves three steps for it.
-/

namespace RecordQuery.Query

open Text (Position)

variable {setting : Setting}

/-! ## Beginnings of terms and groups -/

/-- Whether a term or a group can begin with a token. -/
structure Token.BeginsPrimary (token : Token) : Prop where
  not_closing : token.kind ≠ .closing
  not_or : token.kind ≠ .or
  not_plus : token.kind ≠ .plus
  not_minus : token.kind ≠ .minus

theorem TermTokens.begins {rules : Rules} {t : Term} {tokens : List Token}
    (h : TermTokens rules t tokens) :
    ∃ token rest, tokens = token :: rest ∧ token.BeginsPrimary := by
  have hword {token : Token} {word : String} (hkind : token.kind = .word word) :
      token.BeginsPrimary := by
    constructor <;> simp [hkind]
  cases h with
  | phrase _ hkind => exact ⟨_, _, rfl, by constructor <;> simp [hkind]⟩
  | word _ hkind _ => exact ⟨_, _, rfl, hword hkind⟩
  | value _ hkind _ _ => exact ⟨_, _, rfl, hword hkind⟩
  | glued _ hkind _ _ _ => exact ⟨_, _, rfl, hword hkind⟩

theorem Primary.Derives.begins {rules : Rules} {primary : Primary Term} {tokens : List Token}
    (h : primary.Derives rules tokens) :
    ∃ token rest, tokens = token :: rest ∧ token.BeginsPrimary := by
  cases h with
  | term hterm => exact hterm.begins
  | group hopening _ _ => exact ⟨_, _, rfl, by constructor <;> simp [hopening]⟩

theorem expectClause_of_ne {token : Token} (connective : Token) (rest : List Token)
    (hclosing : token.kind ≠ .closing) (hor : token.kind ≠ .or) :
    expectClause connective (token :: rest) = .ok () := by
  cases hkind : token.kind with
  | closing => exact absurd hkind hclosing
  | or => exact absurd hkind hor
  | word _ | phrase _ | opening | plus | minus => simp only [expectClause, hkind]

/-- Behind an optional sign a clause goes on. -/
theorem readSign_of_signTokens {sign : Option Sign} {signs rest : List Token} {token : Token}
    (hsign : SignTokens sign signs) (hbegins : token.BeginsPrimary) :
    readSign (signs ++ token :: rest) = .ok (sign.map Sign.isMinus, token :: rest) := by
  cases hsign with
  | absent =>
      have hnone : ¬ (token.kind = .plus ∨ token.kind = .minus) :=
        not_or.mpr ⟨hbegins.not_plus, hbegins.not_minus⟩
      rw [List.nil_append, readSign, if_neg hnone]
      rfl
  | plus hplus =>
      rw [List.singleton_append, readSign, if_pos (Or.inl hplus),
        expectClause_of_ne _ rest hbegins.not_closing hbegins.not_or, hplus]
      rfl
  | minus hminus =>
      rw [List.singleton_append, readSign, if_pos (Or.inr hminus),
        expectClause_of_ne _ rest hbegins.not_closing hbegins.not_or, hminus]
      rfl

theorem head_of_signTokens {sign : Option Sign} {signs : List Token} {token : Token}
    (hsign : SignTokens sign signs) (hbegins : token.BeginsPrimary) (rest : List Token) :
    ∃ head behind, signs ++ token :: rest = head :: behind ∧
      head.kind ≠ .closing ∧ head.kind ≠ .or := by
  cases hsign with
  | absent => exact ⟨token, rest, rfl, hbegins.not_closing, hbegins.not_or⟩
  | plus hkind => exact ⟨_, _, rfl, by simp [hkind], by simp [hkind]⟩
  | minus hkind => exact ⟨_, _, rfl, by simp [hkind], by simp [hkind]⟩

theorem readOr_of_orTokens {isFirst afterOr : Bool} {sign : Option Sign}
    {ors signs rest : List Token} {token : Token} (hor : OrTokens afterOr ors)
    (hsign : SignTokens sign signs) (hbegins : token.BeginsPrimary)
    (hfirst : isFirst = true → afterOr = false) :
    readOr isFirst (ors ++ (signs ++ token :: rest)) =
      .ok (afterOr, signs ++ token :: rest) := by
  obtain ⟨head, behind, htokens, hclosing, hnone⟩ := head_of_signTokens hsign hbegins rest
  rw [htokens]
  cases hor with
  | absent => rw [List.nil_append, readOr, if_neg hnone]
  | present hkind =>
      have hlater : ¬ isFirst = true := fun h => Bool.false_ne_true (hfirst h).symm
      rw [List.singleton_append, readOr, if_pos hkind, if_neg hlater,
        expectClause_of_ne _ behind hclosing hnone]
      rfl

theorem head_ne_closing {afterOr : Bool} {sign : Option Sign} {ors signs : List Token}
    {token : Token} (hor : OrTokens afterOr ors) (hsign : SignTokens sign signs)
    (hbegins : token.BeginsPrimary) (rest : List Token) :
    ∃ head behind, ors ++ (signs ++ token :: rest) = head :: behind ∧ head.kind ≠ .closing := by
  cases hor with
  | present hkind => exact ⟨_, _, rfl, by simp [hkind]⟩
  | absent =>
      obtain ⟨head, behind, htokens, hclosing, _⟩ := head_of_signTokens hsign hbegins rest
      exact ⟨head, behind, htokens, hclosing⟩

/-! ## Derived tokens are read -/

theorem readPrimary_of_termTokens {t : Term} {tokens : List Token}
    (h : TermTokens setting.rules t tokens) (link : Link) (rest : List Token) (fuel : Nat) :
    readPrimary setting (fuel + 1) link (tokens ++ rest) = .ok (.term link t, rest) := by
  cases h with
  | phrase hcolumn hkind =>
      rw [Setting.options_rules] at hcolumn
      simp [readPrimary, hkind, defaultTerm, hcolumn, keywordTerm, Except.map]
  | word hcolumn hkind hplain =>
      rw [Setting.options_rules] at hcolumn
      have hclause : (if setting.columnClauses then columnClause? _ else none) = none :=
        ite_eq_right_iff.mpr hplain
      simp [readPrimary, hkind, wordTerm, hclause, defaultTerm, hcolumn, keywordTerm, Except.map]
  | value hclauses hkind hclause hvalue =>
      rw [Setting.columnClauses_rules] at hclauses
      simp [readPrimary, hkind, wordTerm, hclauses, hclause, clauseValue, hvalue, Except.map]
  | @glued word phrase token next path mode hclauses hkind hclause hphrase hglued =>
      rw [Setting.columnClauses_rules] at hclauses
      obtain ⟨kind, position, source, glued⟩ := next
      obtain rfl : kind = .phrase phrase := hphrase
      obtain rfl : glued = true := hglued
      simp [readPrimary, hkind, wordTerm, hclauses, hclause, clauseValue, Except.map]

/-- A term or group that is read makes a clause with the `OR` and the sign before it. -/
theorem readClauses_of_tokens (inGroup isFirst : Bool) {afterOr : Bool} {sign : Option Sign}
    {primary : Primary Term} {ors signs tokens rest : List Token} {fuel : Nat}
    (hor : OrTokens afterOr ors) (hsign : SignTokens sign signs)
    (hprimary : primary.Derives setting.rules tokens) (hfirst : isFirst = true → afterOr = false)
    (hread : ∀ link fuel, 3 * (tokens ++ rest).length ≤ fuel + 1 →
      readPrimary setting fuel link (tokens ++ rest) =
        .ok (primary.clause setting.options.defaultJoin link, rest))
    (hfuel : 3 * (ors ++ (signs ++ (tokens ++ rest))).length + 1 ≤ fuel) :
    ∃ later, 3 * rest.length + 1 ≤ later ∧
      readClauses setting inGroup fuel isFirst (ors ++ (signs ++ (tokens ++ rest))) =
        (primary.clause setting.options.defaultJoin
              (linkOf setting.options.defaultJoin isFirst afterOr (sign.map Sign.isMinus)) ::
            (readClauses setting inGroup later false rest).1,
          (readClauses setting inGroup later false rest).2) := by
  -- The clause has a token, so the bound is far enough from zero for its two readers.
  obtain ⟨token, behind, rfl, hbegins⟩ := hprimary.begins
  simp only [List.length_append, List.length_cons] at hfuel
  obtain ⟨fuel, rfl⟩ : ∃ inner, fuel = inner + 2 := ⟨fuel - 2, by omega⟩
  have hclause := hread (linkOf setting.options.defaultJoin isFirst afterOr
    (sign.map Sign.isMinus)) fuel (by simp only [List.length_append, List.length_cons]; omega)
  obtain ⟨head, others, htokens, hclosing⟩ :=
    head_ne_closing hor hsign hbegins (behind ++ rest)
  refine ⟨fuel + 1, by omega, ?_⟩
  simp only [List.cons_append] at hclause ⊢
  have hreadClause : readClause setting (fuel + 1) isFirst (head :: others) =
      .ok (primary.clause setting.options.defaultJoin
        (linkOf setting.options.defaultJoin isFirst afterOr (sign.map Sign.isMinus)), rest) := by
    simp only [← htokens, readClause, readOr_of_orTokens hor hsign hbegins hfirst,
      readSign_of_signTokens hsign hbegins, hclause]
  rw [htokens]
  simp only [readClauses, if_neg hclosing, hreadClause]

theorem Sequence.clauses_ne_nil (sequence : Sequence Term) (join : Operator) :
    sequence.clauses join ≠ [] := by
  cases sequence <;> simp [Sequence.clauses]

mutual

/-- A term or a group is read off tokens that begin with its own. -/
theorem Primary.Derives.read : {primary : Primary Term} → {tokens : List Token} →
    primary.Derives setting.rules tokens → ∀ (rest : List Token) (link : Link) (fuel : Nat),
    3 * (tokens ++ rest).length ≤ fuel + 1 →
    readPrimary setting fuel link (tokens ++ rest) =
      .ok (primary.clause setting.options.defaultJoin link, rest)
  | _, _, .term hterm, rest, link, fuel, hfuel => by
    obtain ⟨token, behind, rfl, _⟩ := hterm.begins
    simp only [List.length_append, List.length_cons] at hfuel
    obtain ⟨fuel, rfl⟩ : ∃ inner, fuel = inner + 1 := ⟨fuel - 1, by omega⟩
    exact readPrimary_of_termTokens hterm link rest fuel
  | _, _, .group hopening hsequence hclosing, rest, link, fuel, hfuel => by
    rename_i sequence opening closing tokens
    simp only [List.length_append, List.length_cons, List.length_nil] at hfuel
    obtain ⟨fuel, rfl⟩ : ∃ inner, fuel = inner + 1 := ⟨fuel - 1, by omega⟩
    obtain ⟨later, hlater, hread⟩ := hsequence.read true (closing :: rest) fuel
      (by simp only [List.length_append, List.length_cons]; omega)
    obtain ⟨later, rfl⟩ : ∃ inner, later = inner + 1 := ⟨later - 1, by omega⟩
    have hnonempty := sequence.clauses_ne_nil setting.options.defaultJoin
    have hinner : readClauses setting true fuel true (tokens ++ closing :: rest) =
        (sequence.clauses setting.options.defaultJoin, .ok (closing :: rest)) := by
      simpa [readClauses, hclosing] using hread
    simp [readPrimary, hopening, hinner, hnonempty, Primary.clause]

/-- Clauses in a row are read off tokens that begin with theirs, and then the rest. -/
theorem Sequence.Derives.read : {sequence : Sequence Term} → {tokens : List Token} →
    sequence.Derives setting.rules tokens → ∀ (inGroup : Bool) (rest : List Token) (fuel : Nat),
    3 * (tokens ++ rest).length + 1 ≤ fuel →
    ∃ later, 3 * rest.length + 1 ≤ later ∧
      readClauses setting inGroup fuel true (tokens ++ rest) =
        (sequence.clauses setting.options.defaultJoin ++
            (readClauses setting inGroup later false rest).1,
          (readClauses setting inGroup later false rest).2)
  | _, _, .first hsign hprimary, inGroup, rest, fuel, hfuel => by
    have hread := hprimary.read rest
    rw [List.append_assoc] at hfuel ⊢
    exact readClauses_of_tokens inGroup true .absent hsign hprimary (fun _ => rfl) hread hfuel
  | _, _, .later hbefore hor hsign hprimary, inGroup, rest, fuel, hfuel => by
    have hread := hprimary.read rest
    simp only [List.append_assoc] at hfuel ⊢
    obtain ⟨between, hbetween, hearlier⟩ := hbefore.read inGroup _ fuel hfuel
    obtain ⟨later, hlater, hclause⟩ := readClauses_of_tokens inGroup false hor hsign hprimary
      (by simp) hread hbetween
    refine ⟨later, hlater, ?_⟩
    rw [hearlier, hclause, Sequence.clauses, List.append_assoc]
    rfl

end

/-! ## What is read is derived -/

/-- The tokens of a clause: an optional `OR`, an optional sign, and a term or group. -/
def DerivesClause (setting : Setting) (isFirst : Bool) (clause : Clause) (used : List Token) :
    Prop :=
  ∃ afterOr sign primary ors signs tokens, used = ors ++ (signs ++ tokens) ∧
    OrTokens afterOr ors ∧ SignTokens sign signs ∧ Primary.Derives setting.rules primary tokens ∧
    (isFirst = true → afterOr = false) ∧
    clause = primary.clause setting.options.defaultJoin
      (linkOf setting.options.defaultJoin isFirst afterOr (sign.map Sign.isMinus))

theorem readOr_tokens {isFirst afterOr : Bool} {tokens rest : List Token}
    (h : readOr isFirst tokens = .ok (afterOr, rest)) :
    (isFirst = true → afterOr = false) ∧ ∃ ors, tokens = ors ++ rest ∧ OrTokens afterOr ors := by
  unfold readOr at h
  split at h
  · cases h
    exact ⟨fun _ => rfl, [], rfl, .absent⟩
  · rename_i token later
    split at h
    · rename_i hkind
      split at h
      · cases h
      · rename_i hlater
        obtain ⟨_, _, hanswer⟩ := exists_of_map_eq_ok h
        cases hanswer
        exact ⟨fun hfirst => absurd hfirst hlater, [token], rfl, .present hkind⟩
    · cases h
      exact ⟨fun _ => rfl, [], rfl, .absent⟩

theorem readSign_tokens {sign : Option Bool} {tokens rest : List Token}
    (h : readSign tokens = .ok (sign, rest)) :
    ∃ written signs, sign = written.map Sign.isMinus ∧ tokens = signs ++ rest ∧
      SignTokens written signs := by
  unfold readSign at h
  split at h
  · cases h
    exact ⟨none, [], rfl, rfl, .absent⟩
  · rename_i token later
    split at h
    · rename_i hkind
      obtain ⟨_, _, hanswer⟩ := exists_of_map_eq_ok h
      cases hanswer
      rcases hkind with hplus | hminus
      · exact ⟨some .plus, [token], by rw [hplus]; rfl, rfl, .plus hplus⟩
      · exact ⟨some .minus, [token], by rw [hminus]; rfl, rfl, .minus hminus⟩
    · cases h
      exact ⟨none, [], rfl, rfl, .absent⟩

theorem defaultTerm_tokens {options : ParseOptions} {token : Token} {keyword : String} {t : Term}
    (h : defaultTerm options token keyword = .ok t) :
    ∃ column, options.defaultColumn = some column ∧ t = keywordTerm options column keyword := by
  unfold defaultTerm at h
  split at h
  · cases h
  · rename_i column hcolumn
    cases h
    exact ⟨column, hcolumn, rfl⟩

theorem wordTerm_tokens {token : Token} {word : String} {rest later : List Token} {t : Term}
    (hkind : token.kind = .word word) (h : wordTerm setting token word rest = .ok (t, later)) :
    ∃ behind, rest = behind ++ later ∧ TermTokens setting.rules t (token :: behind) := by
  unfold wordTerm at h
  split at h
  · rename_i path mode value hclause
    have hclauses : setting.columnClauses = true := by
      cases hwords : setting.columnClauses with
      | true => rfl
      | false => simp [hwords] at hclause
    rw [if_pos hclauses] at hclause
    unfold clauseValue at h
    split at h
    · rename_i hempty
      obtain rfl : value = [] := by simpa using hempty
      split at h
      · cases h
        exact ⟨[_], rfl, .glued hclauses hkind hclause rfl rfl⟩
      · cases h
    · rename_i hvalue
      cases h
      exact ⟨[], rfl, .value hclauses hkind hclause (by simpa using hvalue)⟩
  · rename_i hclause
    obtain ⟨term, hterm, hanswer⟩ := exists_of_map_eq_ok h
    cases hanswer
    obtain ⟨column, hcolumn, rfl⟩ := defaultTerm_tokens hterm
    exact ⟨[], rfl, .word hcolumn hkind (ite_eq_right_iff.mp hclause)⟩

theorem DerivesClause.length_pos {isFirst : Bool} {clause : Clause} {used : List Token}
    (h : DerivesClause setting isFirst clause used) : 0 < used.length := by
  obtain ⟨afterOr, sign, primary, ors, signs, tokens, rfl, _, _, hprimary, _⟩ := h
  obtain ⟨token, behind, rfl, _⟩ := hprimary.begins
  simp only [List.length_append, List.length_cons]
  omega

/-- Clauses that have been read are those of a sequence that derives their tokens; before the first
clause there are none. -/
def Begun (setting : Setting) (isFirst : Bool) (clauses : List Clause) (tokens : List Token) :
    Prop :=
  match isFirst with
  | true => clauses = [] ∧ tokens = []
  | false => ∃ sequence : Sequence Term, sequence.Derives setting.rules tokens ∧
      sequence.clauses setting.options.defaultJoin = clauses

theorem DerivesClause.begun {isFirst : Bool} {clause : Clause} {clauses : List Clause}
    {used earlier : List Token} (h : DerivesClause setting isFirst clause used)
    (hbegun : Begun setting isFirst clauses earlier) :
    Begun setting false (clauses ++ [clause]) (earlier ++ used) := by
  obtain ⟨afterOr, sign, primary, ors, signs, tokens, rfl, hor, hsign, hprimary, hfirst, rfl⟩ := h
  cases isFirst with
  | true =>
      obtain ⟨rfl, rfl⟩ := hbegun
      obtain rfl := hfirst rfl
      cases hor
      have hderives : (Sequence.first sign primary).Derives setting.rules (signs ++ tokens) :=
        .first hsign hprimary
      exact ⟨_, hderives, rfl⟩
  | false =>
      obtain ⟨before, hbefore, rfl⟩ := hbegun
      exact ⟨.later before afterOr sign primary, .later hbefore hor hsign hprimary, rfl⟩

/-- Whether the reading of clauses may stop before tokens. -/
def StopsAt (inGroup : Bool) (rest : List Token) : Prop :=
  rest = [] ∨ inGroup = true ∧ ∃ token later, rest = token :: later ∧ token.kind = .closing

/-- What the readers answer within a bound that covers the tokens. -/
structure Sound (setting : Setting) (fuel : Nat) : Prop where
  /-- Clauses go on from those that have been read. -/
  clauses : ∀ inGroup isFirst tokens clauses rest begun earlier, 3 * tokens.length + 1 ≤ fuel →
    Begun setting isFirst begun earlier →
    readClauses setting inGroup fuel isFirst tokens = (clauses, .ok rest) →
      StopsAt inGroup rest ∧ ∃ used, tokens = used ++ rest ∧
        ∃ still, Begun setting still (begun ++ clauses) (earlier ++ used)
  /-- A clause is derived from the tokens it takes. -/
  clause : ∀ isFirst tokens clause rest, 3 * tokens.length ≤ fuel →
    readClause setting fuel isFirst tokens = .ok (clause, rest) →
      ∃ used, tokens = used ++ rest ∧ DerivesClause setting isFirst clause used
  /-- So is a term or group. -/
  primary : ∀ link tokens clause rest, 3 * tokens.length ≤ fuel + 1 →
    readPrimary setting fuel link tokens = .ok (clause, rest) →
      ∃ (primary : Primary Term) (used : List Token), tokens = used ++ rest ∧
        primary.Derives setting.rules used ∧
        clause = primary.clause setting.options.defaultJoin link

theorem sound_zero : Sound setting 0 where
  clauses _ _ _ _ _ _ _ hfuel := absurd hfuel (Nat.not_succ_le_zero _)
  clause _ _ _ _ _ h := by cases h
  primary _ _ _ _ _ h := by simp [readPrimary] at h

namespace Sound

variable {fuel : Nat} {tokens rest : List Token} {isFirst inGroup : Bool} {link : Link}
  {clause : Clause}

theorem clauses_succ (h : Sound setting fuel) {clauses begun : List Clause}
    {earlier : List Token} (hfuel : 3 * tokens.length + 1 ≤ fuel + 1)
    (hbegun : Begun setting isFirst begun earlier)
    (hread : readClauses setting inGroup (fuel + 1) isFirst tokens = (clauses, .ok rest)) :
    StopsAt inGroup rest ∧ ∃ used, tokens = used ++ rest ∧
      ∃ still, Begun setting still (begun ++ clauses) (earlier ++ used) := by
  cases tokens with
  | nil =>
      simp only [readClauses, Prod.mk.injEq, Except.ok.injEq] at hread
      obtain ⟨rfl, rfl⟩ := hread
      exact ⟨Or.inl rfl, [], rfl, isFirst, by simpa using hbegun⟩
  | cons token behind =>
      simp only [readClauses] at hread
      split at hread
      · rename_i hkind
        split at hread
        · rename_i hgroup
          simp only [Prod.mk.injEq, Except.ok.injEq] at hread
          obtain ⟨rfl, rfl⟩ := hread
          exact ⟨Or.inr ⟨hgroup, token, behind, rfl, hkind⟩, [], rfl, isFirst,
            by simpa using hbegun⟩
        · simp at hread
      · split at hread
        · simp at hread
        · rename_i clause between hclause
          -- The clause takes a token, which makes the bound enough for the later ones.
          obtain ⟨used, htokens, hused⟩ := h.clause isFirst _ clause between (by omega) hclause
          have hpositive := hused.length_pos
          have hlength := congrArg List.length htokens
          rw [List.length_append] at hlength
          simp only [Prod.mk.injEq] at hread
          obtain ⟨rfl, houtcome⟩ := hread
          obtain ⟨hstop, later, rfl, still, hall⟩ :=
            h.clauses inGroup false between _ rest _ _ (by omega) (hused.begun hbegun)
              (Prod.ext rfl houtcome)
          refine ⟨hstop, used ++ later, ?_, still, ?_⟩
          · rw [htokens, List.append_assoc]
          · simpa using hall

theorem clause_succ (h : Sound setting fuel) (hfuel : 3 * tokens.length ≤ fuel + 1)
    (hread : readClause setting (fuel + 1) isFirst tokens = .ok (clause, rest)) :
    ∃ used, tokens = used ++ rest ∧ DerivesClause setting isFirst clause used := by
  simp only [readClause] at hread
  split at hread
  · cases hread
  · rename_i afterOr behind hor
    split at hread
    · cases hread
    · rename_i sign later hsign
      obtain ⟨hfirst, ors, rfl, hors⟩ := readOr_tokens hor
      obtain ⟨written, signs, rfl, rfl, hsigns⟩ := readSign_tokens hsign
      simp only [List.length_append] at hfuel
      obtain ⟨primary, used, rfl, hused, rfl⟩ := h.primary _ later clause rest (by omega) hread
      exact ⟨ors ++ (signs ++ used), by simp only [List.append_assoc], afterOr, written,
        primary, ors, signs, used, rfl, hors, hsigns, hused, hfirst, rfl⟩

/-- In a group the reader only stops before a closing parenthesis. -/
theorem group (h : Sound setting fuel) {opening closing : Token} {behind : List Token}
    (hopening : opening.kind = .opening) (hfuel : 3 * behind.length + 1 ≤ fuel)
    (houtcome : (readClauses setting true fuel true behind).2 = .ok (closing :: rest))
    (hnonempty : (readClauses setting true fuel true behind).1 ≠ []) :
    ∃ (sequence : Sequence Term) (used : List Token), opening :: behind = used ++ rest ∧
      (Primary.group sequence).Derives setting.rules used ∧
      sequence.clauses setting.options.defaultJoin =
        (readClauses setting true fuel true behind).1 := by
  obtain ⟨hstop, used, rfl, still, hbegun⟩ :=
    h.clauses true true behind _ (closing :: rest) [] [] hfuel ⟨rfl, rfl⟩ (Prod.ext rfl houtcome)
  obtain ⟨_, _, hbehind, hclosing⟩ := (hstop.resolve_left (by simp)).2
  obtain ⟨rfl, rfl⟩ := List.cons.inj hbehind
  cases still with
  | true => exact absurd hbegun.1 hnonempty
  | false =>
      obtain ⟨sequence, hsequence, hall⟩ := hbegun
      exact ⟨sequence, opening :: (used ++ [closing]), by simp,
        .group hopening hsequence hclosing, hall⟩

theorem primary_succ (h : Sound setting fuel) (hfuel : 3 * tokens.length ≤ fuel + 1 + 1)
    (hread : readPrimary setting (fuel + 1) link tokens = .ok (clause, rest)) :
    ∃ (primary : Primary Term) (used : List Token), tokens = used ++ rest ∧
      primary.Derives setting.rules used ∧
      clause = primary.clause setting.options.defaultJoin link := by
  cases tokens with
  | nil => simp [readPrimary] at hread
  | cons token behind =>
      rw [List.length_cons] at hfuel
      simp only [readPrimary] at hread
      split at hread
      · rename_i hopening
        split at hread
        · cases hread
        · cases hread
        · rename_i closing _ houtcome
          split at hread
          · cases hread
          · rename_i hnonempty
            cases hread
            obtain ⟨sequence, used, htokens, hderives, hall⟩ :=
              h.group hopening (by omega) houtcome (by simpa using hnonempty)
            refine ⟨.group sequence, used, htokens, hderives, ?_⟩
            rw [Primary.clause, hall]
      · rename_i phrase hkind
        obtain ⟨t, hterm, hanswer⟩ := exists_of_map_eq_ok hread
        cases hanswer
        obtain ⟨column, hcolumn, rfl⟩ := defaultTerm_tokens hterm
        exact ⟨.term _, [token], rfl, .term (.phrase hcolumn hkind), rfl⟩
      · rename_i word hkind
        obtain ⟨⟨t, later⟩, hterm, hanswer⟩ := exists_of_map_eq_ok hread
        cases hanswer
        obtain ⟨used, rfl, htokens⟩ := wordTerm_tokens hkind hterm
        exact ⟨.term _, token :: used, rfl, .term htokens, rfl⟩
      all_goals cases hread

end Sound

/-- Whatever a reader answers within its bound is derived from the tokens it takes. -/
theorem sound (setting : Setting) (fuel : Nat) : Sound setting fuel := by
  induction fuel with
  | zero => exact sound_zero
  | succ fuel ih =>
      exact
        { clauses := fun _ _ _ _ _ _ _ hfuel hbegun hread => ih.clauses_succ hfuel hbegun hread
          clause := fun _ _ _ _ hfuel hread => ih.clause_succ hfuel hread
          primary := fun _ _ _ _ hfuel hread => ih.primary_succ hfuel hread }

/-! ## Whole queries -/

variable {options : ParseOptions} {columnClauses : Bool} {query : String}

theorem Sequence.Derives.ne_nil {rules : Rules} {sequence : Sequence Term} {tokens : List Token}
    (h : sequence.Derives rules tokens) : tokens ≠ [] := by
  cases h with
  | first _ hprimary =>
      obtain ⟨token, behind, rfl, _⟩ := hprimary.begins
      simp
  | later _ _ _ hprimary =>
      obtain ⟨token, behind, rfl, _⟩ := hprimary.begins
      simp

/-- A query whose tokens a sequence derives is read as the clauses of that sequence. -/
theorem parse_of_derives {tokens : List Token} {sequence : Sequence Term}
    (htokens : tokenize query = .ok tokens)
    (hderives : sequence.Derives ⟨options, columnClauses⟩ tokens) :
    parse options columnClauses true query = ⟨sequence.clauses options.defaultJoin, none⟩ := by
  obtain ⟨token, behind, rfl⟩ := List.exists_cons_of_ne_nil hderives.ne_nil
  let setting : Setting := ⟨options, columnClauses, Position.start.advanceAll query.toList⟩
  have hsetting : sequence.Derives setting.rules (token :: behind) := hderives
  obtain ⟨later, hlater, hread⟩ := hsetting.read false []
    (3 * (token :: behind).length + 3) (by rw [List.append_nil]; omega)
  obtain ⟨later, rfl⟩ : ∃ inner, later = inner + 1 := ⟨later - 1, by omega⟩
  have hend : readClauses setting false (later + 1) false [] = ([], .ok []) := by
    simp only [readClauses]
  rw [List.append_nil, hend, List.append_nil] at hread
  simp only [parse, Bool.not_true, Bool.false_eq_true, if_false, htokens]
  rw [hread]

/-- A query that is read without a failure has tokens that a sequence derives. -/
theorem derives_of_parse (h : (parse options columnClauses true query).failure = none) :
    ∃ tokens, tokenize query = .ok tokens ∧
      ∃ sequence : Sequence Term, sequence.Derives ⟨options, columnClauses⟩ tokens := by
  have hnonempty := clauses_ne_nil_of_parse h
  simp only [parse, Bool.not_true, Bool.false_eq_true, if_false] at h hnonempty
  split at h
  · cases h
  · cases h
  · rename_i tokens _ htokens
    split at h
    · cases h
    · rename_i rest houtcome
      simp only [htokens, houtcome] at hnonempty
      obtain ⟨hstop, used, rfl, still, hbegun⟩ :=
        (sound _ _).clauses false true tokens _ rest [] [] (by omega) ⟨rfl, rfl⟩
          (Prod.ext rfl houtcome)
      have hrest : rest = [] := hstop.resolve_right (by simp)
      subst hrest
      cases still with
      | true => exact absurd hbegun.1 hnonempty
      | false =>
          obtain ⟨sequence, hsequence, _⟩ := hbegun
          rw [List.append_nil] at htokens
          exact ⟨used, htokens, sequence, hsequence⟩

end RecordQuery.Query

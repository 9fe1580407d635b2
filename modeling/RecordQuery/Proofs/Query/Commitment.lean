import RecordQuery.Expression.Building
import RecordQuery.Proofs.Query.Language
import RecordQuery.Proofs.Script.Language

/-!
# What is kept of a text that fails

A text whose reading fails leaves the operations of the clauses that stand before the failing one.
Which clauses those are is said by the grammar alone: the tokens of the text begin with theirs, and
no further clause goes on from there (`Leads`).  Some clauses of that kind lead every row of tokens
(`exists_leads`), and the reader gives exactly their operations (`clauses_of_leads`).

A text with an unterminated phrase has no tokens and leaves nothing, whatever stands before the
phrase.
-/

namespace RecordQuery.Query

/-! ## Leading clauses -/

/-- The clauses before the last one. -/
def Sequence.before? {α : Type} : Sequence α → Option (Sequence α)
  | .first _ _ => none
  | .later before _ _ _ => some before

/-- Whether tokens begin with those of some clauses, or of none, and no further clause follows. -/
structure Leads (rules : Rules) (tokens : List Token) (clauses : Option (Sequence Term)) :
    Prop where
  begun : ∀ sequence ∈ clauses, ∃ front, front <+: tokens ∧ sequence.Derives rules front
  ended : ∀ longer : Sequence Term, longer.before? = clauses →
    ∀ front, front <+: tokens → ¬ longer.Derives rules front

/-- The number of clauses, groups counted as one. -/
def leadingCount (clauses : Option (Sequence Term)) : Nat := (clauses.map Sequence.count).getD 0

/-- The operations of leading clauses with their connectives. -/
def leadingOperations (join : Operator) (clauses : Option (Sequence Term)) : List Operation :=
  (clauses.map fun sequence => (sequence.formula join).operations).getD []

variable {rules : Rules} {tokens : List Token}

theorem Sequence.Derives.count_le : {sequence : Sequence Term} → {tokens : List Token} →
    sequence.Derives rules tokens → sequence.count ≤ tokens.length
  | _, _, .first _ hprimary => by
    obtain ⟨token, behind, rfl, _⟩ := hprimary.begins
    simp only [Sequence.count, List.length_append, List.length_cons]
    omega
  | _, _, .later hbefore _ _ hprimary => by
    have hearlier := hbefore.count_le
    obtain ⟨token, behind, rfl, _⟩ := hprimary.begins
    simp only [Sequence.count, List.length_append, List.length_cons]
    omega

theorem leadingCount_before (longer : Sequence Term) :
    longer.count = leadingCount longer.before? + 1 := by
  cases longer <;> rfl

theorem exists_leads (rules : Rules) (tokens : List Token) :
    ∃ clauses, Leads rules tokens clauses := by
  -- Clauses that have begun go on or lead; each takes a token, so they cannot go on for ever.
  suffices hgoes : ∀ (left : Nat) (clauses : Option (Sequence Term)),
      (∀ sequence ∈ clauses, ∃ front, front <+: tokens ∧ sequence.Derives rules front) →
      tokens.length ≤ leadingCount clauses + left → ∃ clauses, Leads rules tokens clauses from
    hgoes tokens.length none (by simp) (by simp)
  intro left
  induction left with
  | zero =>
      intro clauses hbegun hleft
      refine ⟨clauses, hbegun, ?_⟩
      intro longer hbefore front hfront hderives
      have hcount := leadingCount_before longer
      have hlength := hderives.count_le
      have hshorter := hfront.length_le
      rw [hbefore] at hcount
      omega
  | succ left ih =>
      intro clauses hbegun hleft
      by_cases hended : ∀ longer : Sequence Term, longer.before? = clauses →
          ∀ front, front <+: tokens → ¬ longer.Derives rules front
      · exact ⟨clauses, hbegun, hended⟩
      · push Not at hended
        obtain ⟨longer, hbefore, front, hfront, hderives⟩ := hended
        refine ih (some longer) ?_ ?_
        · intro sequence hsequence
          obtain rfl := Option.some.inj hsequence
          exact ⟨front, hfront, hderives⟩
        · have hcount : leadingCount (some longer) = leadingCount clauses + 1 := by
            rw [← hbefore]
            exact leadingCount_before longer
          omega

/-! ## Reading leading clauses -/

variable {setting : Setting}

theorem clauses_eq_nil_of_stuck {isFirst : Bool} {fuel : Nat}
    (hstuck : ∀ clause used, used <+: tokens → ¬ DerivesClause setting isFirst clause used)
    (hfuel : 3 * tokens.length + 1 ≤ fuel) :
    (readClauses setting false fuel isFirst tokens).1 = [] := by
  obtain ⟨fuel, rfl⟩ : ∃ inner, fuel = inner + 1 := ⟨fuel - 1, by omega⟩
  cases tokens with
  | nil => rfl
  | cons token rest =>
      by_cases hclosing : token.kind = .closing
      · simp [readClauses, hclosing]
      · cases hread : readClause setting fuel isFirst (token :: rest) with
        | error error => simp [readClauses, hclosing, hread]
        | ok answer =>
            obtain ⟨clause, behind⟩ := answer
            obtain ⟨used, htokens, hused⟩ :=
              (sound setting fuel).clause isFirst _ clause behind (by omega) hread
            exact absurd hused (hstuck clause used ⟨behind, htokens.symm⟩)

/-- The reader gives the clauses that lead the tokens. -/
theorem clauses_of_leads {clauses : Option (Sequence Term)} {fuel : Nat}
    (h : Leads setting.rules tokens clauses) (hfuel : 3 * tokens.length + 1 ≤ fuel) :
    operationsOfAll (readClauses setting false fuel true tokens).1 =
      leadingOperations setting.options.defaultJoin clauses := by
  cases clauses with
  | none =>
      have hstuck : ∀ clause used, used <+: tokens →
          ¬ DerivesClause setting true clause used := by
        rintro clause used hused
          ⟨afterOr, sign, primary, ors, signs, inner, rfl, hor, hsign, hprimary, hfirst, _⟩
        -- Before the first clause there is no `OR`, so it makes a sequence by itself.
        obtain rfl := hfirst rfl
        cases hor
        have hderives : (Sequence.first sign primary).Derives setting.rules (signs ++ inner) :=
          .first hsign hprimary
        exact h.ended _ rfl _ hused hderives
      rw [clauses_eq_nil_of_stuck hstuck hfuel]
      rfl
  | some sequence =>
      obtain ⟨front, ⟨rest, rfl⟩, hderives⟩ := h.begun sequence rfl
      have hstuck : ∀ clause used, used <+: rest →
          ¬ DerivesClause setting false clause used := by
        rintro clause used ⟨behind, rfl⟩
          ⟨afterOr, sign, primary, ors, signs, inner, rfl, hor, hsign, hprimary, _, _⟩
        refine h.ended (.later sequence afterOr sign primary) rfl _ ?_
          (.later hderives hor hsign hprimary)
        exact ⟨behind, by simp only [List.append_assoc]⟩
      -- The reader takes the clauses that have begun and stops behind them.
      obtain ⟨later, hlater, hread⟩ := hderives.read false rest fuel hfuel
      rw [hread, clauses_eq_nil_of_stuck hstuck hlater, List.append_nil,
        Sequence.operations_clauses]
      rfl

/-! ## Whole texts -/

variable {options : ParseOptions} {text : String}

theorem clauses_parse (columnClauses : Bool) (htokens : tokenize text = .ok tokens) :
    (parse options columnClauses true text).clauses =
      (readClauses ⟨options, columnClauses, Text.Position.start.advanceAll text.toList⟩ false
        (3 * tokens.length + 3) true tokens).1 := by
  simp only [parse, Bool.not_true, Bool.false_eq_true, if_false, htokens]
  cases tokens with
  | nil => rfl
  | cons token rest => simp only; split <;> rfl

/-- The tokens of a query leave the operations of the clauses that lead them. -/
theorem operations_of_leads {clauses : Option (Sequence Term)}
    (hgrammar : options.grammar ≠ .script) (htokens : tokenize text = .ok tokens)
    (h : Leads options.rules tokens clauses) :
    (parseText options true text).operations =
      leadingOperations options.defaultJoin clauses := by
  let setting : Setting :=
    ⟨options, options.rules.columnClauses, Text.Position.start.advanceAll text.toList⟩
  have hleads : Leads setting.rules tokens clauses := h
  calc (parseText options true text).operations
      = operationsOfAll (parse options options.rules.columnClauses true text).clauses := by
        rw [parseText_eq_parsed hgrammar]
        rfl
    _ = operationsOfAll (readClauses setting false (3 * tokens.length + 3) true tokens).1 := by
        rw [clauses_parse _ htokens]
    _ = leadingOperations options.defaultJoin clauses := clauses_of_leads hleads (by omega)

theorem operations_eq_nil_of_unread {record : Bool} (hgrammar : options.grammar ≠ .script)
    (h : record = false ∨ ∃ error, tokenize text = .error error) :
    (parseText options record text).operations = [] := by
  rw [parseText_eq_parsed hgrammar]
  rcases h with rfl | ⟨error, herror⟩
  · rfl
  · cases record with
    | false => rfl
    | true => simp only [parse, Bool.not_true, Bool.false_eq_true, if_false, herror]; rfl

end RecordQuery.Query

namespace RecordQuery

open Query

theorem operations_eq_nil_of_refused {options : ParseOptions} {text : String} {record : Bool}
    {error : ParseError} (hgrammar : options.grammar = .script)
    (h : (parseText options record text).outcome = .error error) :
    (parseText options record text).operations = [] := by
  rw [parseText_eq_script hgrammar] at h ⊢
  cases hread : Script.parse record text with
  | error _ => rfl
  | ok expr =>
      rw [hread] at h
      cases h

namespace Expression

variable {e : Expression} {options : ParseOptions} {text : String}

/-- A text adds its operations at the end, and nothing else of the expression changes. -/
theorem parse_adds (hbuilding : e.stage = .building) (hoptions : options.check = .ok ()) :
    (e.parse text options).1 = { e with operations :=
      e.operations ++ (parseText options (e.vars.size != 0) text).operations } := by
  simp only [parse, requireBuilding, hbuilding, if_true, hoptions]
  split <;> rfl

theorem exists_error_of_parse (hbuilding : e.stage = .building)
    (hoptions : options.check = .ok ()) {error : Error}
    (hfails : (e.parse text options).2 = .error error) :
    ∃ cause, (parseText options (e.vars.size != 0) text).outcome = .error cause := by
  simp only [parse, requireBuilding, hbuilding, if_true, hoptions] at hfails
  cases houtcome : (parseText options (e.vars.size != 0) text).outcome with
  | error cause => exact ⟨cause, rfl⟩
  | ok count =>
      rw [houtcome] at hfails
      cases hfails

/-- A text that fails leaves the clauses that lead its tokens, whatever comes behind them: their
operations with their connectives follow those that the expression had, and nothing else changes.
A script leaves nothing, and neither does a text without tokens. -/
theorem parse_committed {error : Error} (hbuilding : e.stage = .building)
    (hoptions : options.check = .ok ()) (hfails : (e.parse text options).2 = .error error) :
    let Leaves := fun operations : List Operation =>
      (e.parse text options).1 = { e with operations := e.operations ++ operations }
    (options.grammar = .script → Leaves []) ∧
      (options.grammar ≠ .script →
        (e.vars.size = 0 ∨ ∃ cause, tokenize text = .error cause) → Leaves []) ∧
      (options.grammar ≠ .script → e.vars.size ≠ 0 → ∀ tokens, tokenize text = .ok tokens →
        (∃ clauses, Leads options.rules tokens clauses) ∧
          ∀ clauses, Leads options.rules tokens clauses →
            Leaves (leadingOperations options.defaultJoin clauses)) := by
  intro Leaves
  have hadds : (e.parse text options).1 = _ := parse_adds hbuilding hoptions
  have hleaves : ∀ operations,
      (parseText options (e.vars.size != 0) text).operations = operations → Leaves operations := by
    intro operations hoperations
    rw [← hoperations]
    exact hadds
  refine ⟨fun hscript => ?_, fun hquery hunread => ?_, fun hquery hrecord tokens htokens => ?_⟩
  · obtain ⟨cause, hcause⟩ := exists_error_of_parse hbuilding hoptions hfails
    exact hleaves [] (operations_eq_nil_of_refused hscript hcause)
  · refine hleaves [] (operations_eq_nil_of_unread hquery ?_)
    rcases hunread with hsize | hcause
    · exact Or.inl (by simp [hsize])
    · exact Or.inr hcause
  · refine ⟨exists_leads options.rules tokens, fun clauses hleads => hleaves _ ?_⟩
    rw [bne_iff_ne.mpr hrecord]
    exact operations_of_leads hquery htokens hleads

/-- Two clauses before a group that stays open are kept. -/
theorem parse_committed_openGroup :
    let e : Expression := { empty none with vars := Variables.empty.define none (.table ⟨1⟩) }
    let options : ParseOptions := { defaultColumn := some "title" }
    ∃ tokens clauses, tokenize "a -b (c" = .ok tokens ∧ Leads options.rules tokens clauses ∧
      (leadingOperations options.defaultJoin clauses).length = 11 ∧
      (e.parse "a -b (c" options).1 =
        { e with operations := e.operations ++ leadingOperations options.defaultJoin clauses } := by
  intro e options
  have hsize : (e.parse "a -b (c" options).1.operations.size = 11 := by decide +kernel
  have hfails : ∃ error, (e.parse "a -b (c" options).2 = .error error := by
    cases houtcome : (e.parse "a -b (c" options).2 with
    | error error => exact ⟨error, rfl⟩
    | ok _ =>
        have hrefused : (e.parse "a -b (c" options).2.toOption = none := by decide +kernel
        rw [houtcome] at hrefused
        cases hrefused
  obtain ⟨error, herror⟩ := hfails
  obtain ⟨_, _, hleaves⟩ := parse_committed rfl (by decide) herror
  cases htokens : tokenize "a -b (c" with
  | error cause =>
      have hscanned : (tokenize "a -b (c").toOption.isSome := by decide +kernel
      rw [htokens] at hscanned
      cases hscanned
  | ok tokens =>
      obtain ⟨⟨clauses, hleads⟩, hkeeps⟩ := hleaves (by decide) (by decide) tokens htokens
      have hkept := hkeeps clauses hleads
      refine ⟨tokens, clauses, rfl, hleads, ?_, hkept⟩
      rw [hkept] at hsize
      have hnone : e.operations = #[] := rfl
      simpa [hnone] using hsize

/-- A complete clause is kept before a group that stays open and lost before a phrase that stays
open. -/
theorem parse_loses_openPhrase :
    let e : Expression := { empty none with vars := Variables.empty.define none (.table ⟨1⟩) }
    let options : ParseOptions := { defaultColumn := some "title" }
    (e.parse "a" options).2.toOption = some () ∧
      (e.parse "a" options).1.operations.size = 5 ∧
      (e.parse "a (open" options).2.toOption = none ∧
      (e.parse "a (open" options).1.operations.size = 5 ∧
      (e.parse "a \"open" options).2.toOption = none ∧
      (e.parse "a \"open" options).1.operations.size = 0 := by
  decide +kernel

end Expression

end RecordQuery

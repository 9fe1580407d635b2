import RecordQuery.Proofs.Compile.SlotCount
import RecordQuery.Proofs.Except
import RecordQuery.Query.Parser

/-!
# Queries stand for one value

A clause fits its place if it joins the clauses before it with a connective, the first one excepted,
and if its groups are not empty (`Clause.Fits`).  The operations of a row of such clauses add one
slot (`operationsOfAll_continues`), and the reader only answers such clauses, before a failure as
well (`read_fits`).
-/

namespace RecordQuery.Query

/-! ## Clauses that fit -/

/-- Whether a link says how to join the clauses before it, if there are any. -/
def Link.Fits (isFirst : Bool) (link : Link) : Prop :=
  match link.connective with
  | none => isFirst = true
  | some connective => isFirst = false ∧ connective.JoinsTwo

mutual

/-- Whether a clause fits its place in a row. -/
def Clause.Fits : Bool → Clause → Prop
  | isFirst, .term link term => link.Fits isFirst ∧ term.mode.JoinsTwo
  | isFirst, .group link clauses => link.Fits isFirst ∧ clauses ≠ [] ∧ AllFit true clauses

/-- Whether clauses fit their places in a row. -/
def AllFit : Bool → List Clause → Prop
  | _, [] => True
  | isFirst, clause :: later => clause.Fits isFirst ∧ AllFit false later

end

/-! ## Operations of clauses that fit -/

/-- Operations that stand for one value, or that make one value of a value before them. -/
def Continues (isFirst : Bool) (operations : List Operation) : Prop :=
  match isFirst with
  | true => AddsSlots 1 operations
  | false => ∀ before, AddsSlots 1 before → AddsSlots 1 (before ++ operations)

theorem Continues.append {isFirst : Bool} {first later : List Operation}
    (hfirst : Continues isFirst first) (hlater : Continues false later) :
    Continues isFirst (first ++ later) := by
  cases isFirst with
  | true => exact hlater first hfirst
  | false =>
      intro before hbefore
      rw [← List.append_assoc]
      exact hlater _ (hfirst before hbefore)

theorem Term.addsSlot {term : Term} (hmode : term.mode.JoinsTwo) : AddsSlots 1 term.operations :=
  (AddsSlots.readPath term.path).binary (.pushValue term.value) hmode

/-- The link behind the operations of a clause joins them to the ones before. -/
theorem Link.continues {isFirst : Bool} {link : Link} {operations : List Operation}
    (hlink : link.Fits isFirst) (h : AddsSlots 1 operations) :
    Continues isFirst (operations ++ link.operations) := by
  obtain ⟨connective, negated⟩ := link
  have hnegated : AddsSlots 1 (operations ++ if negated then [Operation.apply .not 1] else []) := by
    cases negated with
    | true => exact h.unary (Or.inl rfl)
    | false => simpa using h
  cases connective with
  | none =>
      obtain rfl : isFirst = true := hlink
      exact hnegated
  | some connective =>
      obtain ⟨rfl, hjoins⟩ := hlink
      intro before hbefore
      have hjoined := hbefore.binary hnegated hjoins
      simpa [Link.operations] using hjoined

mutual

theorem Clause.continues : (clause : Clause) → (isFirst : Bool) → clause.Fits isFirst →
    Continues isFirst clause.operations
  | .term _ _, _, ⟨hlink, hmode⟩ => Link.continues hlink (Term.addsSlot hmode)
  | .group _ clauses, _, ⟨hlink, hnonempty, hclauses⟩ =>
    Link.continues hlink (operationsOfAll_continues clauses true hnonempty hclauses)

theorem operationsOfAll_continues : (clauses : List Clause) → (isFirst : Bool) → clauses ≠ [] →
    AllFit isFirst clauses → Continues isFirst (operationsOfAll clauses)
  | [], _, hnonempty, _ => absurd rfl hnonempty
  -- A single clause has no later ones that would go on with its value.
  | [clause], isFirst, _, ⟨hclause, _⟩ => by
    have h := clause.continues isFirst hclause
    rwa [operationsOfAll, operationsOfAll, List.append_nil]
  | clause :: next :: later, isFirst, _, ⟨hclause, hlater⟩ =>
    (clause.continues isFirst hclause).append
      (operationsOfAll_continues (next :: later) false (List.cons_ne_nil _ _) hlater)

end

/-! ## Clauses that the reader answers -/

theorem joinsTwo_of_isConnective {operator : Operator} (h : operator.isConnective = true) :
    operator.JoinsTwo := by
  cases operator with
  | and | or | andNot => exact ⟨rfl, by decide⟩
  | _ => cases h

theorem joinsTwo_of_isMode {operator : Operator} (h : operator.isMode = true) :
    operator.JoinsTwo := by
  cases operator with
  | contains | startsWith | endsWith | regexp | equal | notEqual | less | greater | lessEqual
    | greaterEqual => exact ⟨rfl, by decide⟩
  | _ => cases h

theorem linkOf_fits {join : Operator} (hjoin : join.JoinsTwo) (isFirst afterOr : Bool)
    (sign : Option Bool) : (linkOf join isFirst afterOr sign).Fits isFirst := by
  unfold linkOf Link.Fits
  cases isFirst with
  | true => rfl
  | false =>
      cases afterOr with
      | true => exact ⟨rfl, rfl, by decide⟩
      | false =>
          cases sign with
          | none => exact ⟨rfl, hjoin⟩
          | some minus => cases minus <;> exact ⟨rfl, rfl, by decide⟩

theorem isMode_readMode (text : List Char) : (readMode text).1.isMode = true := by
  have hmodes : ∀ entry ∈ modes, entry.2.isMode = true := by decide
  unfold readMode
  split
  · rename_i spelling mode hfind
    exact hmodes _ (List.mem_of_find?_eq_some hfind)
  · rfl

theorem isMode_of_columnClause? {word path value : List Char} {mode : Operator}
    (h : columnClause? word = some (path, mode, value)) : mode.isMode = true := by
  unfold columnClause? at h
  split at h
  · cases h
  · rename_i text _
    split at h
    · cases h
      exact isMode_readMode text
    · cases h

section Reading

variable {setting : Setting} {token : Token} {rest later : List Token}

theorem defaultTerm_joinsTwo {options : ParseOptions} {keyword : String} {term : Term}
    (hmode : options.defaultMode.JoinsTwo) (h : defaultTerm options token keyword = .ok term) :
    term.mode.JoinsTwo := by
  unfold defaultTerm at h
  split at h <;> cases h
  exact hmode

theorem wordTerm_joinsTwo {word : String} {term : Term}
    (hmode : setting.options.defaultMode.JoinsTwo)
    (h : wordTerm setting token word rest = .ok (term, later)) : term.mode.JoinsTwo := by
  unfold wordTerm at h
  split at h
  · rename_i path mode value hclause
    have hjoins : mode.JoinsTwo := by
      split at hclause
      · exact joinsTwo_of_isMode (isMode_of_columnClause? hclause)
      · cases hclause
    obtain ⟨answer, _, hterm⟩ := exists_of_map_eq_ok h
    cases hterm
    exact hjoins
  · obtain ⟨answer, hanswer, hterm⟩ := exists_of_map_eq_ok h
    cases hterm
    exact defaultTerm_joinsTwo hmode hanswer

/-- Whatever the reader answers fits its place: the clauses before a failure, a clause, and a term
or group with a link that fits. -/
theorem read_fits (hmode : setting.options.defaultMode.JoinsTwo)
    (hjoin : setting.options.defaultJoin.JoinsTwo) (fuel : Nat) :
    (∀ inGroup isFirst tokens,
        AllFit isFirst (readClauses setting inGroup fuel isFirst tokens).1) ∧
      (∀ isFirst tokens clause later, readClause setting fuel isFirst tokens = .ok (clause, later) →
        clause.Fits isFirst) ∧
      ∀ isFirst link tokens clause later, link.Fits isFirst →
        readPrimary setting fuel link tokens = .ok (clause, later) → clause.Fits isFirst := by
  induction fuel with
  | zero =>
      refine ⟨fun _ _ _ => trivial, fun _ _ _ _ h => ?_, fun _ _ _ _ _ _ h => ?_⟩
      · cases h
      · simp [readPrimary] at h
  | succ fuel ih =>
      -- The three readers call each other with less fuel, so that they are done together.
      obtain ⟨hclauses, hclause, hprimary⟩ := ih
      refine ⟨fun inGroup isFirst tokens => ?_, fun isFirst tokens clause later h => ?_,
        fun isFirst link tokens clause later hlink h => ?_⟩
      · cases tokens with
        | nil => trivial
        | cons token rest =>
            simp only [readClauses]
            split
            · split <;> trivial
            · split
              · trivial
              · rename_i clause later hread
                exact ⟨hclause isFirst _ clause later hread, hclauses inGroup false later⟩
      · simp only [readClause] at h
        split at h
        · cases h
        · split at h
          · cases h
          · exact hprimary isFirst _ _ clause later (linkOf_fits hjoin ..) h
      · cases tokens with
        | nil => simp [readPrimary] at h
        | cons token rest =>
            simp only [readPrimary] at h
            split at h
            · split at h
              · cases h
              · cases h
              · split at h
                · cases h
                · rename_i hnonempty
                  cases h
                  exact ⟨hlink, by simpa using hnonempty, hclauses true true rest⟩
            · rename_i phrase _
              obtain ⟨term, hterm, hanswer⟩ := exists_of_map_eq_ok h
              cases hanswer
              exact ⟨hlink, defaultTerm_joinsTwo hmode hterm⟩
            · rename_i word _
              obtain ⟨⟨term, behind⟩, hterm, hanswer⟩ := exists_of_map_eq_ok h
              cases hanswer
              exact ⟨hlink, wordTerm_joinsTwo hmode hterm⟩
            all_goals cases h

/-- Outside groups, tokens that are read without a failure give a clause. -/
theorem readClauses_ne_nil {fuel : Nat} {isFirst : Bool}
    (h : (readClauses setting false (fuel + 1) isFirst (token :: rest)).2 = .ok later) :
    (readClauses setting false (fuel + 1) isFirst (token :: rest)).1 ≠ [] := by
  simp only [readClauses] at h ⊢
  split at h
  · cases h
  · rename_i hclosing
    simp only [if_neg hclosing]
    split at h
    · cases h
    · exact List.cons_ne_nil _ _

end Reading

/-! ## Whole queries -/

/-- The operations of the clauses that were read stand for one value. -/
theorem parse_addsSlot {options : ParseOptions} (hoptions : options.check = .ok ())
    {columnClauses record : Bool} {query : String}
    (hnonempty : (parse options columnClauses record query).clauses ≠ []) :
    AddsSlots 1 (operationsOfAll (parse options columnClauses record query).clauses) := by
  have hchecked : options.defaultMode.JoinsTwo ∧ options.defaultJoin.JoinsTwo := by
    unfold ParseOptions.check at hoptions
    split at hoptions
    · cases hoptions
    · rename_i hmode
      split at hoptions
      · cases hoptions
      · rename_i hjoin
        exact ⟨joinsTwo_of_isMode (by simpa using hmode),
          joinsTwo_of_isConnective (by simpa using hjoin)⟩
  have hread (setting : Setting) (hsetting : setting.options = options) (fuel : Nat)
      (tokens : List Token) (hclauses : (readClauses setting false fuel true tokens).1 ≠ []) :
      AddsSlots 1 (operationsOfAll (readClauses setting false fuel true tokens).1) := by
    subst hsetting
    exact operationsOfAll_continues _ true hclauses
      ((read_fits hchecked.1 hchecked.2 fuel).1 false true tokens)
  unfold parse at hnonempty ⊢
  split at hnonempty
  · exact absurd rfl hnonempty
  · rename_i hrecord
    rw [if_neg hrecord]
    split at hnonempty
    · exact absurd rfl hnonempty
    · exact absurd rfl hnonempty
    · simp only at hnonempty ⊢
      split at hnonempty
      · exact hread _ rfl _ _ hnonempty
      · exact hread _ rfl _ _ hnonempty

/-- A query that is read without a failure has a clause. -/
theorem clauses_ne_nil_of_parse {options : ParseOptions} {columnClauses record : Bool}
    {query : String} (h : (parse options columnClauses record query).failure = none) :
    (parse options columnClauses record query).clauses ≠ [] := by
  unfold parse at h ⊢
  split at h
  · cases h
  · rename_i hrecord
    rw [if_neg hrecord]
    split at h
    · cases h
    · cases h
    · rename_i tokens hnonempty htokens
      obtain ⟨token, rest, rfl⟩ := List.exists_cons_of_ne_nil hnonempty
      simp only at h ⊢
      split at h
      · cases h
      · rename_i later hlater
        exact readClauses_ne_nil hlater

end RecordQuery.Query

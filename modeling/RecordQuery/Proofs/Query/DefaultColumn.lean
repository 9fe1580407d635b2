import RecordQuery.Parse
import RecordQuery.Proofs.Except

/-!
# Queries that stay in the default column

Without column clauses a text can only say what to look for, never where: every term looks for a
keyword in the default column (`Term.IsDefault`), whatever the text and whether it can be read to
its end or not (`read_confined`).  So the operations of the text read the default column of
the record in variable 0, compare it with keywords and join the results (`OnlyReads`).
-/

namespace RecordQuery

/-! ## Operations -/

/-- Whether an operator compares a column with a keyword or joins the results of comparisons. -/
def Operator.IsTest (operator : Operator) : Prop :=
  operator.isMode = true ∨ operator.isConnective = true ∨ operator = .not

/-- Whether operations read nothing but a column, if there is one, of the record in variable 0, and
otherwise have only keywords and tests of them. -/
inductive OnlyReads (column : Option String) : List Operation → Prop
  | nil : OnlyReads column []
  /-- The column is read. -/
  | read {path : String} {later : List Operation} :
      column = some path → OnlyReads column later →
      OnlyReads column (Operation.readPath (Text.segments path) ++ later)
  /-- A keyword is pushed. -/
  | keyword {keyword : String} {later : List Operation} :
      OnlyReads column later → OnlyReads column (.pushValue (.text keyword) :: later)
  /-- A test is made. -/
  | test {operator : Operator} {arity : Int} {later : List Operation} :
      operator.IsTest → OnlyReads column later →
      OnlyReads column (.apply operator arity :: later)

namespace OnlyReads

variable {column : Option String} {first later : List Operation}

theorem append (hfirst : OnlyReads column first) (hlater : OnlyReads column later) :
    OnlyReads column (first ++ later) := by
  induction hfirst with
  | nil => exact hlater
  | read hpath _ ih =>
      rw [List.append_assoc]
      exact .read hpath ih
  | keyword _ ih => exact .keyword ih
  | test hoperator _ ih => exact .test hoperator ih

/-- None of the operations calls a function, and what they push is variable 0 or a text. -/
theorem operands (h : OnlyReads column first) : ∀ operation ∈ first,
    operation.operator ≠ .call ∧
      (operation.operand = none ∨ operation.operand = some (.variableAt 0) ∨
        ∃ s, operation.operand = some (.ofValue (.text s))) := by
  have hcolumns (path : List String) : ∀ operation ∈ path.flatMap Operation.readColumn,
      operation.operator ≠ .call ∧
        (operation.operand = none ∨ operation.operand = some (.variableAt 0) ∨
          ∃ s, operation.operand = some (.ofValue (.text s))) := by
    intro operation hmem
    obtain ⟨name, _, hmem⟩ := List.mem_flatMap.mp hmem
    rcases List.mem_cons.mp hmem with rfl | hmem
    · exact ⟨fun h => (by cases h), .inr (.inr ⟨name, rfl⟩)⟩
    · obtain rfl := List.mem_singleton.mp hmem
      exact ⟨fun h => (by cases h), .inl rfl⟩
  induction h with
  | nil => exact fun _ hmem => absurd hmem List.not_mem_nil
  | read _ _ ih =>
      intro operation hmem
      rcases List.mem_append.mp hmem with hmem | hmem
      · rcases List.mem_cons.mp hmem with rfl | hmem
        · exact ⟨by decide, .inr (.inl rfl)⟩
        · exact hcolumns _ operation hmem
      · exact ih operation hmem
  | @keyword keyword _ _ ih =>
      intro operation hmem
      rcases List.mem_cons.mp hmem with rfl | hmem
      · exact ⟨fun h => (by cases h), .inr (.inr ⟨keyword, rfl⟩)⟩
      · exact ih operation hmem
  | test hoperator _ ih =>
      intro operation hmem
      rcases List.mem_cons.mp hmem with rfl | hmem
      · refine ⟨?_, .inl rfl⟩
        rintro rfl
        rcases hoperator with h | h | h <;> cases h
      · exact ih operation hmem

end OnlyReads

namespace Query

/-! ## Clauses -/

/-- Whether a link joins clauses by a connective. -/
def Link.Connects (link : Link) : Prop :=
  ∀ connective, link.connective = some connective → connective.isConnective = true

/-- Whether a term looks for a keyword in the default column. -/
def Term.IsDefault (options : ParseOptions) (term : Term) : Prop :=
  ∃ path keyword, options.defaultColumn = some path ∧
    term = ⟨Text.segments path, options.defaultMode, .text keyword⟩

mutual

/-- Whether all terms of a clause are in the default column. -/
def Clause.Confined (options : ParseOptions) : Clause → Prop
  | .term link term => link.Connects ∧ term.IsDefault options
  | .group link clauses => link.Connects ∧ AllConfined options clauses

/-- Whether all terms of clauses are in the default column. -/
def AllConfined (options : ParseOptions) : List Clause → Prop
  | [] => True
  | clause :: later => clause.Confined options ∧ AllConfined options later

end

variable {options : ParseOptions}

theorem Link.onlyReads {link : Link} (h : link.Connects) (column : Option String) :
    OnlyReads column link.operations := by
  obtain ⟨connective, negated⟩ := link
  have hnegation : OnlyReads column (if negated then [Operation.apply .not 1] else []) := by
    split
    · exact .test (.inr (.inr rfl)) .nil
    · exact .nil
  cases connective with
  | none => exact hnegation
  | some connective =>
      exact hnegation.append (.test (.inr (.inl (h connective rfl))) .nil)

theorem Term.onlyReads {term : Term} (hmode : options.defaultMode.isMode = true)
    (h : term.IsDefault options) : OnlyReads options.defaultColumn term.operations := by
  obtain ⟨path, keyword, hpath, rfl⟩ := h
  exact .read hpath (.keyword (.test (.inl hmode) .nil))

mutual

theorem Clause.onlyReads (hmode : options.defaultMode.isMode = true) : (clause : Clause) →
    clause.Confined options → OnlyReads options.defaultColumn clause.operations
  | .term _ _, ⟨hlink, hterm⟩ => (Term.onlyReads hmode hterm).append (Link.onlyReads hlink _)
  | .group _ clauses, ⟨hlink, hclauses⟩ =>
    (operationsOfAll_onlyReads hmode clauses hclauses).append (Link.onlyReads hlink _)

theorem operationsOfAll_onlyReads (hmode : options.defaultMode.isMode = true) :
    (clauses : List Clause) → AllConfined options clauses →
    OnlyReads options.defaultColumn (operationsOfAll clauses)
  | [], _ => .nil
  | clause :: later, ⟨hclause, hlater⟩ =>
    (clause.onlyReads hmode hclause).append (operationsOfAll_onlyReads hmode later hlater)

end

/-! ## Reading -/

theorem linkOf_connects {join : Operator} (hjoin : join.isConnective = true)
    (isFirst afterOr : Bool) (sign : Option Bool) :
    (linkOf join isFirst afterOr sign).Connects := by
  intro connective hconnective
  unfold linkOf at hconnective
  simp only at hconnective
  split at hconnective
  · cases hconnective
  · split at hconnective
    · cases hconnective
      rfl
    · split at hconnective
      all_goals
        cases hconnective
        first
        | rfl
        | exact hjoin

theorem defaultTerm_isDefault {token : Token} {keyword : String} {term : Term}
    (h : defaultTerm options token keyword = .ok term) : term.IsDefault options := by
  unfold defaultTerm at h
  split at h
  · cases h
  · rename_i path hpath
    cases h
    exact ⟨path, keyword, hpath, rfl⟩

theorem wordTerm_isDefault {setting : Setting} (hcolumns : setting.columnClauses = false)
    {token : Token} {word : String} {rest later : List Token} {term : Term}
    (h : wordTerm setting token word rest = .ok (term, later)) :
    term.IsDefault setting.options := by
  unfold wordTerm at h
  rw [hcolumns] at h
  obtain ⟨answer, hanswer, hterm⟩ := exists_of_map_eq_ok h
  cases hterm
  exact defaultTerm_isDefault hanswer

/-- Whatever is read without column clauses stays in the default column: the clauses before a
failure, a clause, and a term or group. -/
theorem read_confined {setting : Setting} (hcolumns : setting.columnClauses = false)
    (hjoin : setting.options.defaultJoin.isConnective = true) (fuel : Nat) :
    (∀ inGroup isFirst tokens,
        AllConfined setting.options (readClauses setting inGroup fuel isFirst tokens).1) ∧
      (∀ isFirst tokens clause later, readClause setting fuel isFirst tokens = .ok (clause, later) →
        clause.Confined setting.options) ∧
      ∀ link tokens clause later, link.Connects →
        readPrimary setting fuel link tokens = .ok (clause, later) →
        clause.Confined setting.options := by
  induction fuel with
  | zero =>
      refine ⟨fun _ _ _ => trivial, fun _ _ _ _ h => ?_, fun _ _ _ _ _ h => ?_⟩
      · cases h
      · simp [readPrimary] at h
  | succ fuel ih =>
      -- The three readers call each other with less fuel, so that they are done together.
      obtain ⟨hclauses, hclause, hprimary⟩ := ih
      refine ⟨fun inGroup isFirst tokens => ?_, fun isFirst tokens clause later h => ?_,
        fun link tokens clause later hlink h => ?_⟩
      · cases tokens with
        | nil => trivial
        | cons token rest =>
            simp only [readClauses]
            split
            · split <;> trivial
            · split
              · trivial
              · rename_i clause later hread
                exact ⟨hclause isFirst _ clause later hread, hclauses inGroup false later⟩
      · simp only [readClause] at h
        split at h
        · cases h
        · split at h
          · cases h
          · exact hprimary _ _ clause later (linkOf_connects hjoin _ _ _) h
      · cases tokens with
        | nil => simp [readPrimary] at h
        | cons token rest =>
            simp only [readPrimary] at h
            split at h
            · split at h
              · cases h
              · cases h
              · split at h
                · cases h
                · cases h
                  exact ⟨hlink, hclauses true true rest⟩
            · obtain ⟨term, hterm, hanswer⟩ := exists_of_map_eq_ok h
              cases hanswer
              exact ⟨hlink, defaultTerm_isDefault hterm⟩
            · obtain ⟨⟨term, behind⟩, hterm, hanswer⟩ := exists_of_map_eq_ok h
              cases hanswer
              exact ⟨hlink, wordTerm_isDefault hcolumns hterm⟩
            all_goals cases h

/-- All clauses of a query without column clauses stay in the default column, those before a
failure as well. -/
theorem allConfined_parse (hjoin : options.defaultJoin.isConnective = true) (record : Bool)
    (query : String) : AllConfined options (parse options false record query).clauses := by
  unfold parse
  split
  · trivial
  · split
    · trivial
    · trivial
    · have hread (finish : Text.Position) (fuel : Nat) (tokens : List Token) :
          AllConfined options (readClauses ⟨options, false, finish⟩ false fuel true tokens).1 := by
        have hcolumns : (⟨options, false, finish⟩ : Setting).columnClauses = false := rfl
        exact (read_confined hcolumns hjoin fuel).1 false true tokens
      simp only
      split <;> exact hread _ _ _

end Query

/-! ## Texts -/

theorem ParseOptions.isMode_and_isConnective {options : ParseOptions}
    (h : options.check = .ok ()) :
    options.defaultMode.isMode = true ∧ options.defaultJoin.isConnective = true := by
  unfold check at h
  split at h
  · cases h
  · rename_i hmode
    split at h
    · cases h
    · rename_i hjoin
      exact ⟨by simpa using hmode, by simpa using hjoin⟩

/-- The operations of a text that is read without column clauses only read the default column. -/
theorem parseText_onlyReads {options : ParseOptions} (hgrammar : options.grammar = .columnQuery)
    (hoptions : options.check = .ok ()) (record : Bool) (text : String) :
    OnlyReads options.defaultColumn (parseText options record text).operations := by
  obtain ⟨hmode, hjoin⟩ := ParseOptions.isMode_and_isConnective hoptions
  have hoperations : (parseText options record text).operations =
      Query.operationsOfAll (Query.parse options false record text).clauses := by
    simp only [parseText, hgrammar, Query.Reading.parsed]
  rw [hoperations]
  exact Query.operationsOfAll_onlyReads hmode _ (Query.allConfined_parse hjoin record text)

end RecordQuery

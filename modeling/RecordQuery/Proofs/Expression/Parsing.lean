import RecordQuery.Expression.Execution
import RecordQuery.Proofs.Compile.Refusal
import RecordQuery.Proofs.Query.Balance
import RecordQuery.Proofs.Script.Balance
import RecordQuery.Regexp.Standard

/-!
# Parsed expressions fit together

Whatever text is read into an expression without operations, by whatever grammar and options, the
operations that are added stand for one value, those of the clauses before a failure as well.  So
the compiler never refuses a parsed expression because its operations do not fit together.
-/

namespace RecordQuery

/-- The operations of a text stand for one value; only a text that fails may give none. -/
theorem parseText_addsSlot {options : ParseOptions} (hoptions : options.check = .ok ())
    (record : Bool) (text : String) :
    AddsSlots 1 (parseText options record text).operations ∨
      ((parseText options record text).operations = [] ∧
        ∃ error, (parseText options record text).outcome = .error error) := by
  have hquery (columnClauses : Bool) :
      let parsed := (Query.parse options columnClauses record text).parsed
      AddsSlots 1 parsed.operations ∨
        (parsed.operations = [] ∧ ∃ error, parsed.outcome = .error error) := by
    by_cases hnil : (Query.parse options columnClauses record text).clauses = []
    · refine Or.inr ⟨by simp only [Query.Reading.parsed, hnil]; rfl, ?_⟩
      cases hfailure : (Query.parse options columnClauses record text).failure with
      | none => exact absurd hnil (Query.clauses_ne_nil_of_parse hfailure)
      | some error => exact ⟨error, by simp only [Query.Reading.parsed, hfailure]⟩
    · exact Or.inl (Query.parse_addsSlot hoptions hnil)
  have hscript : let parsed := Script.committed (Script.emit record text)
      AddsSlots 1 parsed.operations ∨
        (parsed.operations = [] ∧ ∃ error, parsed.outcome = .error error) := by
    rw [Script.committed_emit]
    cases hread : Script.parse record text with
    | error error => exact Or.inr ⟨rfl, error, rfl⟩
    | ok e => exact Or.inl (Script.parse_addsSlot hread)
  -- Naming the grammar in the error changes neither side of the alternative.
  have hpart : ∀ parsed : Parsed,
      (AddsSlots 1 parsed.operations ∨
        (parsed.operations = [] ∧ ∃ error, parsed.outcome = .error error)) →
      ∀ name : ParseError → ParseError,
        AddsSlots 1 parsed.operations ∨
          (parsed.operations = [] ∧ ∃ error, parsed.outcome.mapError name = .error error) := by
    rintro parsed (hadds | ⟨hnil, error, herror⟩) name
    · exact Or.inl hadds
    · exact Or.inr ⟨hnil, name error, by rw [herror]; rfl⟩
  unfold parseText
  cases options.grammar with
  | query => exact hpart _ (hquery true) _
  | columnQuery => exact hpart _ (hquery false) _
  | script => exact hpart _ hscript _

namespace Expression

/-- What a text adds to an expression without operations stands for one value; only a text that
fails may add nothing. -/
theorem parse_addsSlot {e : Expression} (hempty : e.operations = #[]) (text : String)
    (options : ParseOptions) :
    AddsSlots 1 (e.parse text options).1.operations.toList ∨
      ((e.parse text options).1.operations = #[] ∧
        ∃ error, (e.parse text options).2 = .error error) := by
  unfold parse
  split
  · exact Or.inr ⟨hempty, _, rfl⟩
  · split
    · exact Or.inr ⟨hempty, _, rfl⟩
    · rename_i hoptions
      have hoperations (operations : List Operation) :
          (e.operations ++ operations).toList = operations := by simp [hempty]
      rcases parseText_addsSlot hoptions (e.vars.size != 0) text with
        hadds | ⟨hnil, error, herror⟩
      · refine Or.inl ?_
        simp only
        split
        · rwa [hoperations]
        · rwa [hoperations]
      · refine Or.inr ?_
        simp only [herror]
        exact ⟨by simp [hempty, hnil], _, rfl⟩

/-- Operations that stand for one value are never refused because they do not fit together. -/
theorem not_isStructural_compile [Regexp.Matcher] {e : Expression} {source : Source} {error : Error}
    (hadds : AddsSlots 1 e.operations.toList) (h : e.compile source = .error error) :
    ¬ error.IsStructural := by
  unfold compile at h
  split at h
  · split at h
    · rename_i hcompile
      cases h
      exact Compile.not_isStructural_compile hadds.sound (hadds.slots 0) hcompile
    · split at h
      · cases h
        exact id
      · cases h
  · cases h

/-- A text that is read into an expression without operations adds sound operations.  They find the
slots that they need and leave one, if there are any, and there are unless the text fails.  So the
compiler never refuses the expression because its operations do not fit together, but for an
expression that a failure left empty. -/
theorem parse_balanced [Regexp.Matcher] {e : Expression} (hempty : e.operations = #[])
    (text : String) (options : ParseOptions) :
    let parsed := (e.parse text options).1
    (∀ operation ∈ parsed.operations.toList, operation.Sound) ∧
      (parsed.operations = #[] ∨
        Compile.slotsAfterAll? 0 parsed.operations.toList = some 1) ∧
      ((e.parse text options).2 = .ok () → parsed.operations ≠ #[]) ∧
      ∀ source error, parsed.compile source = .error error → error.IsStructural →
        error = .emptyExpression ∧ (e.parse text options).2 ≠ .ok () := by
  intro parsed
  rcases parse_addsSlot hempty text options with hadds | ⟨hnil, failure, hfailure⟩
  · have hnonempty : parsed.operations ≠ #[] := fun hnil =>
      hadds.ne_nil (Array.toList_eq_nil_iff.mpr hnil)
    exact ⟨hadds.sound, Or.inr (hadds.slots 0), fun _ => hnonempty,
      fun source error hcompile hstructural =>
        absurd hstructural (not_isStructural_compile hadds hcompile)⟩
  · have hfails : (e.parse text options).2 ≠ .ok () := by
      rw [hfailure]
      rintro ⟨⟩
    have hoperations : parsed.operations.toList = [] := Array.toList_eq_nil_iff.mpr hnil
    refine ⟨?_, Or.inl hnil, fun hok => absurd hok hfails, ?_⟩
    · rw [hoperations]
      exact fun _ hmem => absurd hmem List.not_mem_nil
    · intro source error hcompile _
      -- Nothing was appended, so the first check of the compiler is the one that fails.
      unfold compile at hcompile
      split at hcompile
      · simp only [hoperations, RecordQuery.compile, List.isEmpty_nil, if_true,
          Except.error.injEq] at hcompile
        exact ⟨hcompile.symm, hfails⟩
      · cases hcompile

/-- A failure in a group leaves the clauses before it, which stand for one value together. -/
theorem parse_balanced_unbalanced :
    let e : Expression := { empty none with vars := Variables.empty.define none (.table ⟨1⟩) }
    let options : ParseOptions := { defaultColumn := some "title" }
    (e.parse "a -b (c" options).1.operations.size = 11 ∧
      Compile.slotsAfterAll? 0 (e.parse "a -b (c" options).1.operations.toList = some 1 := by
  intro e options
  have hempty : e.operations = #[] := rfl
  have hsize : (e.parse "a -b (c" options).1.operations.size = 11 := by decide +kernel
  have hslots := (parse_balanced hempty "a -b (c" options).2.1
  generalize (e.parse "a -b (c" options).1 = parsed at hsize hslots ⊢
  refine ⟨hsize, hslots.resolve_left fun hnil => ?_⟩
  rw [hnil] at hsize
  cases hsize

end Expression

end RecordQuery

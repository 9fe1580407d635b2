import RecordQuery.Parse
import RecordQuery.Proofs.Query.ColumnClause
import RecordQuery.Proofs.Query.Recognition

/-!
# The language of queries

A text is a query exactly if its tokens are derived from the grammar (`parseText_iff_derives`), what
it becomes is what any derivation of them stands for (`parseText_of_derives`), and every tree that
is printed is such a text (`parseText_printed`).
-/

namespace RecordQuery

open Query

/-- What the terms of a query depend on, by the options: only the grammar `query` has column
clauses. -/
def ParseOptions.rules (options : ParseOptions) : Rules := ⟨options, options.grammar == .query⟩

/-- A printed tree: any two of its parts with a space between them, phrases in quotes. -/
def Query.Sequence.printed {columnClauses : Bool} (sequence : Sequence (Leaf columnClauses)) :
    String :=
  String.ofList (sequence.spelling Leaf.spelling)

variable {options : ParseOptions} {text : String}

/-- By any grammar but that of scripts a text is read as a query. -/
theorem parseText_eq_parsed (hgrammar : options.grammar ≠ .script) (record : Bool) :
    parseText options record text =
      { (parse options options.rules.columnClauses record text).parsed with
        outcome :=
          (parse options options.rules.columnClauses record text).parsed.outcome.mapError
            fun error => { error with query := text } } := by
  unfold parseText ParseOptions.rules
  cases hoptions : options.grammar with
  | query => rfl
  | columnQuery => rfl
  | script => exact absurd hoptions hgrammar

/-- Only a query that is read without a failure becomes a number of clauses. -/
theorem failure_eq_none_of_parseText {count : Nat} (hgrammar : options.grammar ≠ .script)
    (h : (parseText options true text).outcome = .ok count) :
    (parse options options.rules.columnClauses true text).failure = none := by
  rw [parseText_eq_parsed hgrammar] at h
  cases hreading : parse options options.rules.columnClauses true text with
  | mk clauses failure =>
      rw [hreading] at h
      cases failure with
      | none => rfl
      | some error => cases h

/-- A text whose tokens a sequence derives becomes the operations of that sequence, joined from the
left. -/
theorem parseText_of_derives {tokens : List Token} {sequence : Sequence Term}
    (hgrammar : options.grammar ≠ .script) (htokens : tokenize text = .ok tokens)
    (hderives : sequence.Derives options.rules tokens) :
    parseText options true text =
      ⟨(sequence.formula options.defaultJoin).operations, .ok sequence.count⟩ := by
  have hparse : parse options options.rules.columnClauses true text =
      ⟨sequence.clauses options.defaultJoin, none⟩ := parse_of_derives htokens hderives
  rw [parseText_eq_parsed hgrammar, hparse, ← Sequence.operations_clauses,
    ← Sequence.length_clauses options.defaultJoin]
  rfl

/-- A text is accepted exactly if some sequence derives its tokens. -/
theorem parseText_iff_derives (hgrammar : options.grammar ≠ .script) :
    (∃ count, (parseText options true text).outcome = .ok count) ↔
      ∃ tokens, tokenize text = .ok tokens ∧
        ∃ sequence : Sequence Term, sequence.Derives options.rules tokens := by
  constructor
  · rintro ⟨count, hcount⟩
    exact derives_of_parse (failure_eq_none_of_parseText hgrammar hcount)
  · rintro ⟨tokens, htokens, sequence, hderives⟩
    exact ⟨_, by rw [parseText_of_derives hgrammar htokens hderives]⟩

/-- A printed tree is read back. -/
theorem parseText_printed {column : String} (hgrammar : options.grammar ≠ .script)
    (hcolumn : options.defaultColumn = some column)
    (sequence : Sequence (Leaf options.rules.columnClauses)) :
    parseText options true sequence.printed =
      ⟨((sequence.map (Leaf.term options column)).formula options.defaultJoin).operations,
        .ok sequence.count⟩ := by
  have hleaf : ∀ leaf : Leaf options.rules.columnClauses, Prints leaf.spelling
      (TermTokens options.rules (leaf.term options column)) := fun leaf => leaf.prints hcolumn
  obtain ⟨tokens, htokens, hderives⟩ := sequence.tokenize_spelling hleaf
  rw [← Sequence.count_map (Leaf.term options column)]
  exact parseText_of_derives hgrammar htokens hderives

/-- The texts of the query grammars are those whose tokens a sequence derives, and become the
operations of that sequence, joined from the left; every tree is printed as such a text. -/
theorem parseText_grammar {column : String} (hgrammar : options.grammar ≠ .script)
    (hcolumn : options.defaultColumn = some column) :
    (∀ text, (∃ count, (parseText options true text).outcome = .ok count) ↔
      ∃ tokens, tokenize text = .ok tokens ∧
        ∃ sequence : Sequence Term, sequence.Derives options.rules tokens) ∧
    (∀ text tokens (sequence : Sequence Term), tokenize text = .ok tokens →
      sequence.Derives options.rules tokens →
      parseText options true text =
        ⟨(sequence.formula options.defaultJoin).operations, .ok sequence.count⟩) ∧
    ∀ sequence : Sequence (Leaf options.rules.columnClauses),
      parseText options true sequence.printed =
        ⟨((sequence.map (Leaf.term options column)).formula options.defaultJoin).operations,
          .ok sequence.count⟩ :=
  ⟨fun _ => parseText_iff_derives hgrammar,
    fun _ _ _ htokens hderives => parseText_of_derives hgrammar htokens hderives,
    parseText_printed hgrammar hcolumn⟩

/-- A negated phrase with a quote in it, and a group with a column clause behind `OR`. -/
theorem parseText_grammar_quoted :
    let options : ParseOptions := { defaultColumn := some "title" }
    parseText options true "- \"a\\\"b\" OR ( author.age:>=-5 )" =
        ⟨(Formula.join .or (.not (.term ⟨["title"], .contains, .text "a\"b"⟩))
          (.term ⟨["author", "age"], .greaterEqual, .integer (-5)⟩)).operations, .ok 2⟩ ∧
      (∃ count, (parseText options true "c").outcome = .ok count) ∧
      parseText options true "c" =
        ⟨(Formula.term ⟨["title"], .contains, .text "c"⟩).operations, .ok 1⟩ := by
  intro options
  have hgrammar : options.grammar ≠ .script := by decide
  have hcolumn : options.defaultColumn = some "title" := rfl
  obtain ⟨haccepted, hread, hprinted⟩ := parseText_grammar hgrammar hcolumn
  let age : ColumnPath := ⟨"author.age", by decide⟩
  let tree : Sequence (Leaf true) :=
    .later (.first (some .minus) (.term (.phrase "a\"b"))) true none
      (.group (.first none (.term (.column age ⟨.greaterEqual, rfl⟩ (.integer (-5))))))
  have htext : tree.printed = "- \"a\\\"b\" OR ( author.age:>=-5 )" := by decide +kernel
  have htokens : tokenize "c" = .ok [⟨.word "c", .start, "c", false⟩] := by rfl
  have hderives : (Sequence.first none (.term (keywordTerm options "title" "c"))).Derives
      options.rules [⟨.word "c", .start, "c", false⟩] :=
    .first .absent (.term (.word rfl rfl fun _ => by decide))
  have htitle : Text.segments "title" = ["title"] := by decide +kernel
  have hage : Text.segments "author.age" = ["author", "age"] := by decide +kernel
  have htree : parseText options true tree.printed = _ := hprinted tree
  rw [htext] at htree
  rw [← htitle, ← hage]
  exact ⟨htree, (haccepted "c").mpr ⟨_, htokens, _, hderives⟩, hread _ _ _ htokens hderives⟩

end RecordQuery

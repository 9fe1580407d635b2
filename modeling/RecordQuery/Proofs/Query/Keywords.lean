import RecordQuery.MemoryStore.Source
import RecordQuery.Proofs.Compile.Inversion
import RecordQuery.Proofs.Expression.Lifecycle
import RecordQuery.Proofs.Query.Commitment
import RecordQuery.Proofs.Query.DefaultColumn
import RecordQuery.Proofs.Query.Language
import RecordQuery.Proofs.Snippet.Distinct
import RecordQuery.Regexp.Standard

/-!
# Keywords of queries

A compiled query tells which texts its searches look for, so that snippets can show them.  These are
the texts of the terms that no clause around them negates (`Sequence.positives`), in the order of
the query.  The compiler merges them slot by slot: the operations of a formula leave one piece with
the keywords of the formula (`Formula.keywords_of_steps`).
-/

namespace RecordQuery

open Query

/-! ## Terms that are not negated -/

namespace Query

/-- The modes whose texts are keywords: containment, either end, and equality. -/
def textModes : List Operator := [.contains, .startsWith, .endsWith, .equal]

/-- The text that a term looks for, if it looks for a text and that is not empty. -/
def Term.keyword? (term : Term) : Option String :=
  match term.value with
  | .text keyword => if term.mode ∈ textModes ∧ keyword ≠ "" then some keyword else none
  | _ => none

theorem isTextSearch_iff (operator : Operator) :
    operator.isTextSearch = true ↔ operator ∈ textModes := by
  cases operator <;> decide

/-- Whether a clause behind others is negated: by a minus, or as the right operand of a join that
negates it. -/
def negates (join : Operator) (afterOr : Bool) : Option Sign → Bool
  | some .minus => true
  | some .plus => false
  | none => !afterOr && join = .andNot

mutual

/-- The terms of a term or a group under no negation. -/
def Primary.positives (join : Operator) : Primary Term → List Term
  | .term t => [t]
  | .group sequence => sequence.positives join

/-- The terms of clauses in a row under no negation, in the order they are written. -/
def Sequence.positives (join : Operator) : Sequence Term → List Term
  | .first sign primary => if sign = some .minus then [] else primary.positives join
  | .later before afterOr sign primary =>
    before.positives join ++
      if negates join afterOr sign then [] else primary.positives join

end

/-- The terms of a formula under no negation. -/
def Formula.positives : Formula → List Term
  | .term t => [t]
  | .not _ => []
  | .join connective left right =>
    left.positives ++ if connective = .andNot then [] else right.positives

mutual

theorem Primary.positives_formula (join : Operator) : (primary : Primary Term) →
    (primary.formula join).positives = primary.positives join
  | .term _ => rfl
  | .group sequence => by
    have hsequence := Sequence.positives_formula join sequence
    rw [Primary.formula, Primary.positives, hsequence]

/-- The formula of a sequence negates what the sequence negates. -/
theorem Sequence.positives_formula (join : Operator) : (sequence : Sequence Term) →
    (sequence.formula join).positives = sequence.positives join
  | .first sign primary => by
    have hprimary := Primary.positives_formula join primary
    rcases sign with _ | _ | _ <;>
      simp [Sequence.formula, Formula.signed, Formula.positives, Sequence.positives, hprimary]
  | .later before afterOr sign primary => by
    have hbefore := Sequence.positives_formula join before
    have hprimary := Primary.positives_formula join primary
    cases afterOr <;> rcases sign with _ | _ | _ <;>
      simp [Sequence.formula, Formula.signed, Formula.positives, Sequence.positives, negates,
        hbefore, hprimary]

end

/-! ## Operators of derived formulas -/

/-- Whether the operators of a formula stand where their kind may stand. -/
def Formula.WellFormed : Formula → Prop
  | .term t => t.mode.isMode = true
  | .not operand => operand.WellFormed
  | .join connective left right =>
    connective.isConnective = true ∧ left.WellFormed ∧ right.WellFormed

theorem Formula.WellFormed.signed {formula : Formula} (h : formula.WellFormed)
    (sign : Option Sign) : (formula.signed sign).WellFormed := by
  rcases sign with _ | _ | _ <;> exact h

theorem TermTokens.isMode {rules : Rules} {term : Term} {tokens : List Token}
    (hmode : rules.options.defaultMode.isMode = true) (h : TermTokens rules term tokens) :
    term.mode.isMode = true := by
  cases h with
  | phrase | word => exact hmode
  | value _ _ hclause _ => exact isMode_of_columnClause? hclause
  | glued _ _ hclause _ _ => exact isMode_of_columnClause? hclause

mutual

theorem Primary.wellFormed_of_derives {rules : Rules} {join : Operator}
    (hmode : rules.options.defaultMode.isMode = true) (hjoin : join.isConnective = true) :
    {primary : Primary Term} → {tokens : List Token} → primary.Derives rules tokens →
      (primary.formula join).WellFormed
  | .term _, _, .term hterm => hterm.isMode hmode
  | .group _, _, .group _ hsequence _ => by
    have h := Sequence.wellFormed_of_derives hmode hjoin hsequence
    rwa [Primary.formula]

/-- The formula of a derived sequence is well-formed. -/
theorem Sequence.wellFormed_of_derives {rules : Rules} {join : Operator}
    (hmode : rules.options.defaultMode.isMode = true) (hjoin : join.isConnective = true) :
    {sequence : Sequence Term} → {tokens : List Token} → sequence.Derives rules tokens →
      (sequence.formula join).WellFormed
  | .first sign _, _, .first _ hprimary => by
    have h := Primary.wellFormed_of_derives hmode hjoin hprimary
    rw [Sequence.formula]
    exact h.signed sign
  | .later _ afterOr sign _, _, .later hbefore _ _ hprimary => by
    have hleft := Sequence.wellFormed_of_derives hmode hjoin hbefore
    have hright := Primary.wellFormed_of_derives hmode hjoin hprimary
    cases afterOr with
    | true => exact ⟨rfl, hleft, hright.signed sign⟩
    | false =>
        rcases sign with _ | _ | _
        · exact ⟨hjoin, hleft, hright⟩
        · exact ⟨rfl, hleft, hright⟩
        · exact ⟨rfl, hleft, hright⟩

end

end Query

/-! ## Keywords of pieces -/

theorem Operator.connective?_of_isMode {operator : Operator} (h : operator.isMode = true) :
    operator.connective? = none := by
  cases operator <;> first | rfl | cases h

theorem Operator.binary?_of_isConnective {operator : Operator} (h : operator.isConnective = true) :
    operator.binary? = none := by
  cases operator <;> first | rfl | cases h

namespace Compile

variable {scope : Scope} {index : Nat} {operator : Operator} {layout layout' : Layout}

theorem Piece.keywords_settled [Regexp.Matcher] (source : Source) (slot : Slot) (code : List Op)
    (foldable : Bool) :
    (Piece.settled source slot code foldable).slot.keywords = slot.keywords := by
  unfold Piece.settled
  split <;> rfl

theorem Piece.keywords_beside (domain : Domain) (piece : Piece) :
    (piece.beside domain).slot.keywords = piece.slot.keywords := by
  unfold Piece.beside
  split
  · split <;> rfl
  · rfl

/-- Beside records a piece stays the text that it was, if it was one. -/
theorem searchedKeywords_beside (left : Slot) (domain : Domain) (right : Piece) :
    searchedKeywords operator left (right.beside domain).slot =
      searchedKeywords operator left right.slot := by
  unfold Piece.beside
  split
  · rename_i table n hconstant
    split
    · rename_i record hrecord
      simp only [Value.coerce, Value.toRecordOf] at hrecord
      split at hrecord
      · cases hrecord
        simp only [searchedKeywords, hconstant]
      · cases hrecord
    · rfl
  · rfl

theorem searchedKeywords_congr {left other : Slot} (h : left.keywords = other.keywords)
    (right : Slot) :
    searchedKeywords operator left right = searchedKeywords operator other right := by
  unfold searchedKeywords
  rw [h]

theorem searchedKeywords_compared {left right left' right' : Piece}
    (h : comparedPieces operator left right = (left', right')) :
    searchedKeywords operator left'.slot right'.slot =
      searchedKeywords operator left.slot right.slot := by
  unfold comparedPieces at h
  split at h
  · cases h
    rw [searchedKeywords_beside, searchedKeywords_congr (Piece.keywords_beside _ _)]
  · cases h
    rfl

variable [Regexp.Matcher]

theorem Combined.keywords_getValue {record name piece : Piece}
    (h : Combined scope index .getValue [record, name] piece) : piece.slot.keywords = [] := by
  cases h with
  | member | getValue => rfl
  | connect hoperator => cases hoperator
  | binary hoperator => cases hoperator

/-- An operation on two values that is no connective has the keyword of its search. -/
theorem Combined.keywords_mode (hmode : operator.isMode = true) {left right piece : Piece}
    (h : Combined scope index operator [left, right] piece) :
    piece.slot.keywords = searchedKeywords operator left.slot right.slot := by
  cases h with
  | member | getValue | call => cases hmode
  | connect hoperator => cases (Operator.connective?_of_isMode hmode).symm.trans hoperator
  | pattern => rfl
  | binary _ _ _ hcompared =>
      rw [Piece.keywords_settled, ← searchedKeywords_compared hcompared]
      rfl

theorem Combined.keywords_not {operand piece : Piece}
    (h : Combined scope index .not [operand] piece) : piece.slot.keywords = [] := by
  cases h with
  | connect hoperator => cases hoperator
  | not => rw [Piece.keywords_settled]; rfl

/-- A connective has the keywords of the operands that it does not negate. -/
theorem Combined.keywords_connective (hconnective : operator.isConnective = true)
    {left right piece : Piece} (h : Combined scope index operator [left, right] piece) :
    piece.slot.keywords =
      left.slot.keywords ++ if operator = .andNot then [] else right.slot.keywords := by
  cases h with
  | member | getValue | call | pattern => cases hconnective
  | connect hoperator =>
      rw [Piece.keywords_settled]
      cases operator with
      | and | or | andNot =>
          cases hoperator
          simp [connectedSlot, connectedKeywords]
      | _ => cases hconnective
  | binary hoperator => cases (Operator.binary?_of_isConnective hconnective).symm.trans hoperator

/-! ## Keywords of formulas -/

theorem keywords_of_readPath {path : List String}
    (hsteps : Layout.Steps scope index (Operation.readPath path) layout layout') :
    ∃ piece, layout' = layout.push piece ∧ piece.slot.keywords = [] := by
  refine hsteps.readPath (fun start piece hvariable => ?_) fun _ _ _ _ hcolumn =>
    hcolumn.keywords_getValue
  cases hvariable
  rfl

/-- The keywords of a term are its text, if it has one to look for. -/
theorem keywords_of_term {term : Term} (hmode : term.mode.isMode = true)
    (hsteps : Layout.Steps scope index term.operations layout layout') :
    ∃ piece, layout' = layout.push piece ∧ piece.slot.keywords = term.keyword?.toList := by
  obtain ⟨between, hpath, hlater⟩ := Layout.Steps.split hsteps
  obtain ⟨column, rfl, hcolumn⟩ := keywords_of_readPath hpath
  obtain _ | ⟨hvalue, _ | ⟨happly, hnil⟩⟩ := hlater
  cases hnil
  obtain ⟨constant, hconstant, rfl⟩ := hvalue.pushed
  obtain ⟨hjoins, hcall⟩ := joinsTwo_of_isMode hmode
  have hpop : term.mode ≠ .pop := by
    rintro h
    rw [h] at hmode
    cases hmode
  have hneeded : neededSlots term.mode 2 = 2 := if_neg hcall
  obtain ⟨piece, hpiece, rfl⟩ :=
    Layout.Step.applied [column, constant] happly hpop hneeded
  refine ⟨piece, rfl, ?_⟩
  rw [hpiece.keywords_mode hmode]
  cases hconstant
  unfold searchedKeywords Term.keyword?
  cases term.value <;> simp [Cell.free, hcolumn, isTextSearch_iff]
  split <;> rfl

/-- The operations of a formula leave one piece, whose keywords are those of the terms under no
negation. -/
theorem keywords_of_formula {formula : Formula} (hformula : formula.WellFormed)
    (hsteps : Layout.Steps scope index formula.operations layout layout') :
    ∃ piece, layout' = layout.push piece ∧
      piece.slot.keywords = formula.positives.filterMap Term.keyword? := by
  induction formula generalizing index layout layout' with
  | term t =>
      obtain ⟨piece, hpiece, hkeywords⟩ := keywords_of_term hformula hsteps
      refine ⟨piece, hpiece, hkeywords.trans ?_⟩
      cases hkeyword : t.keyword? <;> simp [Formula.positives, hkeyword]
  | not operand ih =>
      obtain ⟨between, hoperand, hlater⟩ := Layout.Steps.split hsteps
      obtain ⟨piece, rfl, _⟩ := ih hformula hoperand
      obtain _ | ⟨happly, hnil⟩ := hlater
      cases hnil
      obtain ⟨negated, hnegated, rfl⟩ :=
        Layout.Step.applied [piece] happly (by decide) rfl
      exact ⟨negated, rfl, hnegated.keywords_not⟩
  | join connective left right ihleft ihright =>
      obtain ⟨hconnective, hleft, hright⟩ := hformula
      obtain ⟨between, hfirst, hlater⟩ := Layout.Steps.split hsteps
      obtain ⟨first, rfl, hfirstKeywords⟩ := ihleft hleft hfirst
      obtain ⟨behind, hsecond, hlast⟩ := Layout.Steps.split hlater
      obtain ⟨second, rfl, hsecondKeywords⟩ := ihright hright hsecond
      obtain _ | ⟨happly, hnil⟩ := hlast
      cases hnil
      obtain ⟨hjoins, hcall⟩ := joinsTwo_of_isConnective hconnective
      have hpop : connective ≠ .pop := by
        rintro rfl
        cases hconnective
      have hneeded : neededSlots connective 2 = 2 := if_neg hcall
      obtain ⟨piece, hpiece, rfl⟩ :=
        Layout.Step.applied [first, second] happly hpop hneeded
      refine ⟨piece, rfl, ?_⟩
      -- The connective hands on the keywords of the right side unless it subtracts that side.
      rw [hpiece.keywords_connective hconnective, hfirstKeywords, hsecondKeywords,
        Formula.positives, List.filterMap_append]
      split <;> rfl

theorem keywords_of_compile {source : Source} {vars : Variables} {formula : Formula}
    {compiled : Compiled} (hformula : formula.WellFormed)
    (hcompile : compile source vars formula.operations = .ok compiled) :
    compiled.keywords = (formula.positives.filterMap Term.keyword?).eraseDups := by
  obtain ⟨spare, piece, hsteps, _, rfl⟩ := compile_layout hcompile
  obtain ⟨other, hlayout, hkeywords⟩ := keywords_of_formula hformula hsteps
  obtain ⟨rfl, _⟩ := List.cons.inj (congrArg Layout.pieces hlayout)
  rw [← hkeywords, ← Snippet.distinct_eq_eraseDups]

end Compile

/-! ## Keywords of expressions -/

theorem record_of_parseText {options : ParseOptions} (hgrammar : options.grammar ≠ .script)
    {record : Bool} {text : String} {count : Nat}
    (h : (parseText options record text).outcome = .ok count) : record = true := by
  cases record with
  | true => rfl
  | false =>
      rw [parseText_eq_parsed hgrammar] at h
      cases h

namespace Expression

variable {e : Expression} {options : ParseOptions} {text : String}

/-- A text that is read into an expression is read while it is being built and by options that
pass. -/
theorem parse_accepted (h : (e.parse text options).2 = .ok ()) :
    e.stage = .building ∧ options.check = .ok () ∧
      ∃ count, (parseText options (e.vars.size != 0) text).outcome = .ok count := by
  simp only [parse, requireBuilding] at h
  by_cases hbuilding : e.stage = .building
  · rw [if_pos hbuilding] at h
    cases hoptions : options.check with
    | error error => simp [hoptions] at h
    | ok _ =>
        cases houtcome : (parseText options (e.vars.size != 0) text).outcome with
        | error error => simp [hoptions, houtcome] at h
        | ok count => exact ⟨hbuilding, rfl, count, rfl⟩
  · rw [if_neg hbuilding] at h
    cases h

/-- The keywords of a query that is read into an expression without operations and compiled: the
texts that its terms under no negation look for, each once, in the order they are first written. -/
theorem keywords_parsed [Regexp.Matcher] {source : Source} {ready : Expression}
    (hempty : e.operations = #[])
    (hgrammar : options.grammar ≠ .script) (hparse : (e.parse text options).2 = .ok ())
    (hcompile : (e.parse text options).1.compile source = .ok ready) :
    (∃ tokens, tokenize text = .ok tokens ∧
      ∃ sequence : Sequence Term, sequence.Derives options.rules tokens) ∧
    ∀ tokens (sequence : Sequence Term), tokenize text = .ok tokens →
      sequence.Derives options.rules tokens →
      ready.keywords =
        ((sequence.positives options.defaultJoin).filterMap Term.keyword?).eraseDups := by
  obtain ⟨hbuilding, hoptions, count, hcount⟩ := parse_accepted hparse
  have hrecord := record_of_parseText hgrammar hcount
  rw [hrecord] at hcount
  refine ⟨(parseText_iff_derives hgrammar).mp ⟨count, hcount⟩,
    fun tokens sequence htokens hderives => ?_⟩
  -- The derivation says which formula the text stands for, and the compiler saw just that.
  have hparsed : (e.parse text options).1 = _ := parse_adds hbuilding hoptions
  rw [hrecord, parseText_of_derives hgrammar htokens hderives] at hparsed
  rw [hparsed] at hcompile
  rcases compile_cases hcompile with ⟨hbuilt, _⟩ | ⟨_, _, compiled, hcompiled, rfl⟩
  · exact absurd hbuilding hbuilt
  · obtain ⟨hmode, hjoin⟩ := ParseOptions.isMode_and_isConnective hoptions
    have hformula : (sequence.formula options.defaultJoin).WellFormed :=
      Sequence.wellFormed_of_derives hmode hjoin hderives
    have hoperations : (e.operations ++ (sequence.formula options.defaultJoin).operations).toList =
        (sequence.formula options.defaultJoin).operations := by simp [hempty]
    rw [hoperations] at hcompiled
    rw [← Sequence.positives_formula, ← Compile.keywords_of_compile hformula hcompiled]
    rfl

/-- A negated group and the clauses that the default join negates have no keywords, neither has a
comparison that is no search, and a keyword that is written twice is told once. -/
theorem keywords_parsed_negated :
    let columns : List Column := [⟨"title", .scalar .text⟩]
    let source := (⟨[⟨"Books", none, columns, []⟩], .empty⟩ : MemoryStore).source none
    let e : Expression := { empty none with vars := Variables.empty.define none (.table ⟨1⟩) }
    let options : ParseOptions := { defaultColumn := some "title", defaultJoin := .andNot }
    let text := "\"a\" \"b\" + ( title:^\"c\" + \"a\" + title:<\"d\" ) - ( \"e\" OR \"f\" )"
    ∃ ready, (e.parse text options).2 = .ok () ∧
      (e.parse text options).1.compile source = .ok ready ∧ ready.keywords = ["a", "c"] := by
  intro columns source e options text
  let title : ColumnPath := ⟨"title", by decide⟩
  let group : Sequence (Leaf true) :=
    .later (.later (.first none (.term (.column title ⟨.startsWith, rfl⟩ (.text "c"))))
      false (some .plus) (.term (.phrase "a")))
      false (some .plus) (.term (.column title ⟨.less, rfl⟩ (.text "d")))
  let negated : Sequence (Leaf true) :=
    .later (.first none (.term (.phrase "e"))) true none (.term (.phrase "f"))
  let tree : Sequence (Leaf true) :=
    .later (.later (.later (.first none (.term (.phrase "a"))) false none (.term (.phrase "b")))
      false (some .plus) (.group group)) false (some .minus) (.group negated)
  have htext : String.ofList (tree.spelling Leaf.spelling) = text := by decide +kernel
  have hleaf : ∀ leaf : Leaf true, Prints leaf.spelling
      (TermTokens options.rules (leaf.term options "title")) := fun leaf => leaf.prints rfl
  obtain ⟨tokens, htokens, hderives⟩ := tree.tokenize_spelling hleaf
  rw [htext] at htokens
  have hparse : (e.parse text options).2 = .ok () := by
    cases houtcome : (e.parse text options).2 with
    | ok _ => rfl
    | error error =>
        have haccepted : (e.parse text options).2.toOption.isSome := by decide +kernel
        rw [houtcome] at haccepted
        cases haccepted
  cases hcompile : (e.parse text options).1.compile source with
  | error error =>
      have hcompiles : ((e.parse text options).1.compile source).toOption.isSome := by
        decide +kernel
      rw [hcompile] at hcompiles
      cases hcompiles
  | ok ready =>
      obtain ⟨_, hkeywords⟩ := keywords_parsed rfl (by decide) hparse hcompile
      refine ⟨ready, hparse, rfl, ?_⟩
      rw [hkeywords tokens _ htokens hderives]
      decide +kernel

end Expression

end RecordQuery

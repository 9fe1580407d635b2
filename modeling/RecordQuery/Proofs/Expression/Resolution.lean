import RecordQuery.Proofs.Compile.StackSafety
import RecordQuery.Proofs.Expression.Binding
import RecordQuery.Proofs.Query.Compilation
import RecordQuery.Regexp.Standard

/-!
# Queries answer alike whenever their columns are resolved

A query on records of a table is compiled with its columns resolved.  The same text on a variable of
any domain is compiled with the names of its columns, which the run looks up on the records that it
finds.  Both answer the same and remember the same text (`execute_resolved`), through references to
no record, nulls and references to records that do not exist.

There is one exception: an integer that is compared with a reference stands for a record only where
it is known before the run that the column holds references.
-/

namespace RecordQuery

open Query

/-! ## The terms of a text -/

namespace Query

mutual

/-- The terms of a clause. -/
def Clause.terms : Clause → List Term
  | .term _ term => [term]
  | .group _ clauses => termsOfAll clauses

/-- The terms of a row of clauses. -/
def termsOfAll : List Clause → List Term
  | [] => []
  | clause :: later => clause.terms ++ termsOfAll later

end

theorem termsOfAll_append (first later : List Clause) :
    termsOfAll (first ++ later) = termsOfAll first ++ termsOfAll later := by
  induction first with
  | nil => rfl
  | cons clause first ih => simp [termsOfAll, ih]

theorem Formula.terms_signed (sign : Option Sign) (formula : Formula) :
    (formula.signed sign).terms = formula.terms := by
  rcases sign with _ | _ | _ <;> rfl

mutual

theorem Primary.terms_clause (join : Operator) (link : Link) : (primary : Primary Term) →
    (primary.clause join link).terms = (primary.formula join).terms
  | .term _ => rfl
  | .group sequence => by
    have hsequence := Sequence.terms_clauses join sequence
    rw [Primary.clause, Primary.formula, Clause.terms, hsequence]

/-- Clauses in a row have the terms of their formula. -/
theorem Sequence.terms_clauses (join : Operator) : (sequence : Sequence Term) →
    termsOfAll (sequence.clauses join) = (sequence.formula join).terms
  | .first sign primary => by
    have hprimary := Primary.terms_clause join (linkOf join true false
      (sign.map Sign.isMinus)) primary
    rw [Sequence.clauses, termsOfAll, termsOfAll, List.append_nil, hprimary, Sequence.formula,
      Formula.terms_signed]
  | .later before afterOr sign primary => by
    have hbefore := Sequence.terms_clauses join before
    have hprimary := Primary.terms_clause join (linkOf join false afterOr
      (sign.map Sign.isMinus)) primary
    rw [Sequence.clauses, termsOfAll_append, hbefore, termsOfAll, termsOfAll, List.append_nil,
      hprimary]
    cases afterOr <;> rcases sign with _ | _ | _ <;>
      simp [Sequence.formula, Formula.signed, Formula.terms]

end

end Query

/-- The terms of the clauses that a text is read into. -/
def ParseOptions.terms (options : ParseOptions) (text : String) : List Term :=
  termsOfAll (Query.parse options options.rules.columnClauses true text).clauses

namespace Expression

/-- Whether an expression is being built and has nothing but variables yet, the first one of a
domain. -/
structure AsksOf (e : Expression) (domain : Domain) : Prop where
  /-- The expression is being built. -/
  stage : e.stage = .building
  /-- There are no operations. -/
  operations : e.operations = #[]
  /-- The domain of variable 0. -/
  domain : e.vars.domain? 0 = some domain

/-! ## Runs -/

/-- A record of the domain of variable 0 is bound to it as it is. -/
theorem exists_bindArguments_record {vars : Variables} {domain : Domain} {record : RecordRef}
    (hdomain : vars.domain? 0 = some domain) (hfits : (Value.record record).FitsIn domain) :
    ∃ bound, bindArguments vars [.record record] = .ok bound ∧
      bound.value? 0 = some (.record record) := by
  have haccepted : vars.Accepts [.record record] := by
    refine ⟨Compile.lt_size_of_domain? hdomain, fun position argument other hargument hother => ?_⟩
    cases position with
    | zero =>
        cases hargument
        obtain rfl := Option.some.inj (hdomain.symm.trans hother)
        exact hfits.convertsTo
    | succ position => cases hargument
  obtain ⟨bound, hbound, hbinds⟩ := exists_bindArguments haccepted
  obtain ⟨other, fitted, hother, hfitted, hvalue⟩ := hbinds.given 0 _ rfl
  obtain rfl := Option.some.inj (hdomain.symm.trans hother)
  obtain rfl := Except.ok.inj (hfits.symm.trans hfitted)
  exact ⟨bound, hbound, hvalue⟩

/-- Expressions with results of one domain answer the same if their programs leave the same. -/
theorem runProgram_congr [Regexp.Matcher] {e f : Expression} {source : Source}
    {compiled other : Compiled} (he : e.compiled = some compiled) (hf : f.compiled = some other)
    (hrange : compiled.range = other.range) (hresult : e.result = f.result)
    (houtcome : Machine.run ⟨source, some e.vars⟩ compiled.program =
      Machine.run ⟨source, some f.vars⟩ other.program) :
    (e.runProgram source).2 = (f.runProgram source).2 ∧
      (e.runProgram source).1.lastText = (f.runProgram source).1.lastText := by
  simp only [runProgram, he, hf, houtcome]
  cases (Machine.run ⟨source, some f.vars⟩ other.program).result with
  | error error => exact ⟨rfl, rfl⟩
  | ok value =>
      simp only [keepResult, hrange, hresult]
      cases source.failure? with
      | some status => exact ⟨rfl, rfl⟩
      | none => cases f.result.set value <;> exact ⟨rfl, rfl⟩

/-! ## Both ways -/

/-- An expression that has just been compiled from operations runs on a record as its program
does. -/
theorem exists_execute_record [Regexp.Matcher] {e ready : Expression} {source : Source}
    {domain : Domain}
    {record : RecordRef} (hstage : e.stage = .building) (hdomain : e.vars.domain? 0 = some domain)
    (hfits : (Value.record record).FitsIn domain) {compiled : Compiled}
    (hcompiled : RecordQuery.compile source e.vars e.operations.toList = .ok compiled)
    (hcompile : e.compile source = .ok ready) :
    ∃ bound, RunsOver source domain record ⟨source, e.vars⟩ ⟨source, some bound⟩ ∧
      ready.compiled = some compiled ∧ ready.result = .empty compiled.range ∧
      e.execute source [.record record] = ({ ready with vars := bound }).runProgram source := by
  rcases compile_cases hcompile with ⟨hbuilt, _⟩ | ⟨_, _, made, hmade, rfl⟩
  · exact absurd hstage hbuilt
  · obtain rfl := Except.ok.inj (hcompiled.symm.trans hmade)
    obtain ⟨bound, hbound, hheld⟩ := exists_bindArguments_record hdomain hfits
    refine ⟨bound, ⟨rfl, rfl, hdomain, ?_⟩, rfl, rfl, ?_⟩
    · simp only [Environment.variable, hheld]
    · simp only [execute, hcompile, hbound]

/-- A derived text becomes the operations of its formula. -/
theorem AsksOf.parse_eq {e : Expression} {domain : Domain} (h : e.AsksOf domain)
    {options : ParseOptions} {text : String} {tokens : List Token} {sequence : Sequence Term}
    (hgrammar : options.grammar ≠ .script) (hoptions : options.check = .ok ())
    (htokens : tokenize text = .ok tokens) (hderives : sequence.Derives options.rules tokens) :
    (e.parse text options).1 =
      { e with operations := (sequence.formula options.defaultJoin).operations.toArray } := by
  have hsize : (e.vars.size != 0) = true := by
    have hpositive := Compile.lt_size_of_domain? h.domain
    simp only [bne_iff_ne]
    omega
  rw [parse_adds h.stage hoptions, hsize, parseText_of_derives hgrammar htokens hderives,
    h.operations]
  simp

/-- A query on a record of a store answers the same and remembers the same text whether variable 0
is known to hold records of the record's table or not, if it compiles for these and compares no
reference with an integer.  The record itself and those that it leads to need not exist. -/
theorem execute_resolved [Regexp.Matcher] {functions : Registry} {store : MemoryStore}
    (hstore : (MemoryStore.empty functions).Later store) (status : Option Status)
    {record : RecordRef} {early late : Expression} (hearly : early.AsksOf (.table record.table))
    (hlate : late.AsksOf .any) {options : ParseOptions} {text : String} {ready : Expression}
    (hgrammar : options.grammar ≠ .script) (hparse : (early.parse text options).2 = .ok ())
    (hcompile : (early.parse text options).1.compile (store.source status) = .ok ready)
    (hreferences : ∀ term ∈ options.terms text,
      term.ComparesNoReference (store.source status) record.table) :
    let source := store.source status
    let earlyRun := (early.parse text options).1.execute source [.record record]
    let lateRun := (late.parse text options).1.execute source [.record record]
    (∃ lateReady, (late.parse text options).1.compile source = .ok lateReady) ∧
      earlyRun.2 = lateRun.2 ∧ earlyRun.1.lastText = lateRun.1.lastText := by
  intro source earlyRun lateRun
  obtain ⟨_, hoptions, count, hcount⟩ := parse_accepted hparse
  rw [record_of_parseText hgrammar hcount] at hcount
  obtain ⟨tokens, htokens, sequence, hderives⟩ :=
    (parseText_iff_derives hgrammar).mp ⟨count, hcount⟩
  let formula := sequence.formula options.defaultJoin
  obtain ⟨hmode, hjoin⟩ := ParseOptions.isMode_and_isConnective hoptions
  have hformula : formula.WellFormed := Sequence.wellFormed_of_derives hmode hjoin hderives
  have hterms : options.terms text = formula.terms := by
    have hread : Query.parse options options.rules.columnClauses true text = _ :=
      parse_of_derives htokens hderives
    rw [ParseOptions.terms, hread, Sequence.terms_clauses]
  let earlyParsed : Expression := { early with operations := formula.operations.toArray }
  let lateParsed : Expression := { late with operations := formula.operations.toArray }
  have hearlyParsed : (early.parse text options).1 = earlyParsed :=
    hearly.parse_eq hgrammar hoptions htokens hderives
  have hlateParsed : (late.parse text options).1 = lateParsed :=
    hlate.parse_eq hgrammar hoptions htokens hderives
  rw [hearlyParsed] at hcompile
  simp only [earlyRun, lateRun, hearlyParsed, hlateParsed]
  -- The formula compiles for records of the table, so it compiles for anything.
  rcases compile_cases hcompile with ⟨hbuilt, _⟩ | ⟨_, hfailure, compiled, hcompiled, _⟩
  · exact absurd hearly.stage hbuilt
  obtain ⟨other, hother⟩ := Compile.exists_compile_formula hformula hcompiled hlate.domain
  obtain ⟨lateReady, hlateCompile⟩ :
      ∃ lateReady, lateParsed.compile source = .ok lateReady := by
    simp only [lateParsed, compile, hlate.stage, if_true, hother, hfailure, source]
    exact ⟨_, rfl⟩
  obtain ⟨hrange, hrun⟩ := Compile.run_compile_formula hformula hcompiled
  obtain ⟨hotherRange, hotherRun⟩ := Compile.run_compile_formula hformula hother
  obtain ⟨bound, hover, hprogram, hresult, hexecute⟩ := exists_execute_record (e := earlyParsed)
    hearly.stage hearly.domain (Value.fitsIn_table record) hcompiled hcompile
  obtain ⟨lateBound, hlateOver, hlateProgram, hlateResult, hlateExecute⟩ :=
    exists_execute_record (e := lateParsed) hlate.stage hlate.domain (Value.fitsIn_any _) hother
      hlateCompile
  -- The trees of the two programs evaluate to the same, so the programs leave the same.
  have hruns : Runs store status record _ _ _ _ :=
    ⟨hstore.typed (MemoryStore.typed_empty functions), hover, hlateOver⟩
  have heval := hruns.eval_formula hformula (hterms ▸ hreferences)
  rw [hexecute, hlateExecute]
  refine ⟨⟨lateReady, hlateCompile⟩, runProgram_congr hprogram hlateProgram
    (hrange.trans hotherRange.symm) ?_ ?_⟩
  · rw [hresult, hlateResult, hrange, hotherRange]
  · rw [hrun, hotherRun]
    exact congrArg Evaluation.outcome heval

/-- The friend of a person has no friend, whose name is therefore a null, of the type of names or
without a type. -/
theorem execute_resolved_friends :
    let columns : List Column := [⟨"name", .scalar .text⟩, ⟨"friend", .table ⟨1⟩⟩]
    let persons (rows : List Row) : MemoryStore := ⟨[⟨"Persons", none, columns, rows⟩], .empty⟩
    let store := persons [⟨.unknown, [.null .text, .record ⟨⟨1⟩, 2⟩]⟩,
      ⟨.unknown, [.text "Bob", .record (.nil ⟨1⟩)]⟩]
    let of (domain : Domain) : Expression :=
      { empty none with vars := Variables.empty.define none domain }
    let options : ParseOptions := {}
    let text := "friend.friend.name:\"Cy\" OR friend.name:@bo + _id:>=1"
    let run (domain : Domain) :=
      ((of domain).parse text options).1.execute (store.source none) [.record ⟨⟨1⟩, 1⟩]
    (MemoryStore.empty .empty).Later store ∧
      (run (.table ⟨1⟩)).2 = .ok (.boolean true) ∧ (run (.table ⟨1⟩)).1.lastText = some "Bob" ∧
      (run .any).2 = (run (.table ⟨1⟩)).2 ∧
      (run .any).1.lastText = (run (.table ⟨1⟩)).1.lastText := by
  intro columns persons store of options text run
  let noColumns : MemoryStore := ⟨[⟨"Persons", none, [], []⟩], .empty⟩
  let names : MemoryStore := ⟨[⟨"Persons", none, [⟨"name", .scalar .text⟩], []⟩], .empty⟩
  let nobody : Row := ⟨.unknown, [.null .text, .record (.nil ⟨1⟩)]⟩
  let bob : Row := ⟨.unknown, [.text "Bob", .record (.nil ⟨1⟩)]⟩
  have htable : (MemoryStore.empty .empty).createTable "Persons" none = .ok (⟨1⟩, noColumns) := rfl
  have hnames : noColumns.addColumn ⟨1⟩ "name" (.scalar .text) = .ok (.stored 0, names) := rfl
  have hfriends : names.addColumn ⟨1⟩ "friend" (.table ⟨1⟩) = .ok (.stored 1, persons []) := rfl
  have hfirst : (persons []).addRecord ⟨1⟩ none = .ok (⟨⟨1⟩, 1⟩, persons [nobody]) := rfl
  have hsecond : (persons [nobody]).addRecord ⟨1⟩ none =
      .ok (⟨⟨1⟩, 2⟩, persons [nobody, nobody]) := rfl
  have hbob : (persons [nobody, nobody]).setValue ⟨⟨1⟩, 2⟩ "name" (.text "Bob") =
      .ok (persons [nobody, bob]) := rfl
  have hfriend : (persons [nobody, bob]).setValue ⟨⟨1⟩, 1⟩ "friend" (.record ⟨⟨1⟩, 2⟩) =
      .ok store := rfl
  have hstore : (MemoryStore.empty .empty).Later store :=
    .head (.createTable htable) (.head (.addColumn hnames) (.head (.addColumn hfriends)
      (.head (.addRecord hfirst) (.head (.addRecord hsecond) (.head (.setValue hbob)
        (.single (.setValue hfriend)))))))
  have hasks (domain : Domain) : (of domain).AsksOf domain := ⟨rfl, rfl, rfl⟩
  have hparse : ((of (.table ⟨1⟩)).parse text options).2 = .ok () := by
    cases houtcome : ((of (.table ⟨1⟩)).parse text options).2 with
    | ok _ => rfl
    | error error =>
        have haccepted : ((of (.table ⟨1⟩)).parse text options).2.toOption.isSome := by
          decide +kernel
        rw [houtcome] at haccepted
        cases haccepted
  obtain ⟨ready, hcompile⟩ : ∃ ready,
      ((of (.table ⟨1⟩)).parse text options).1.compile (store.source none) = .ok ready := by
    cases hready : ((of (.table ⟨1⟩)).parse text options).1.compile (store.source none) with
    | ok ready => exact ⟨ready, rfl⟩
    | error error =>
        have hcompiles : (((of (.table ⟨1⟩)).parse text options).1.compile
            (store.source none)).toOption.isSome := by decide +kernel
        rw [hready] at hcompiles
        cases hcompiles
  have hreferences : ∀ term ∈ options.terms text,
      term.ComparesNoReference (store.source none) ⟨1⟩ := by
    have hall : (options.terms text).all (fun term => decide
        ((store.source none).rangeAt (.table ⟨1⟩) term.path ∈
          [Domain.scalar .text, .scalar .integer])) = true := by decide +kernel
    intro term hmem _ _ other hrange
    have hscalar := of_decide_eq_true (List.all_eq_true.mp hall term hmem)
    rw [hrange] at hscalar
    simp at hscalar
  obtain ⟨_, hresult, htext⟩ : (∃ lateReady,
      ((of .any).parse text options).1.compile (store.source none) = .ok lateReady) ∧
        (run (.table ⟨1⟩)).2 = (run .any).2 ∧
        (run (.table ⟨1⟩)).1.lastText = (run .any).1.lastText :=
    execute_resolved hstore none (hasks (.table ⟨1⟩)) (hasks .any) (by decide) hparse hcompile
      hreferences
  exact ⟨hstore, by decide +kernel, by decide +kernel, hresult.symm, htext.symm⟩

end Expression

end RecordQuery

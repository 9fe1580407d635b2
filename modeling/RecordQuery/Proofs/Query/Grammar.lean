import RecordQuery.Query.Parser

/-!
# The grammar of queries

A query is a sequence of clauses:

* `sequence := clause ((OR)? clause)*`
* `clause := (+|-)? primary`
* `primary := '(' sequence ')' | term`

`Sequence` is the syntax tree, left-recursive because clauses are joined from the left, and
`Sequence.Derives` relates it to the tokens that it is written with.  What a sequence stands for is
a `Formula`: the first clause joined with the second, this with the third, and so on.
-/

namespace RecordQuery.Query

/-- A sign before a clause. -/
inductive Sign where
  | plus
  | minus
  deriving DecidableEq

mutual

/-- A term or a group of clauses. -/
inductive Primary (α : Type) where
  | term (term : α)
  | group (sequence : Sequence α)

/-- Clauses in a row. -/
inductive Sequence (α : Type) where
  | first (sign : Option Sign) (primary : Primary α)
  | later (before : Sequence α) (afterOr : Bool) (sign : Option Sign) (primary : Primary α)

end

/-! ## What a sequence stands for -/

/-- Terms, their negations, and pairs joined by a connective. -/
inductive Formula where
  | term (term : Term)
  | not (operand : Formula)
  | join (connective : Operator) (left right : Formula)

namespace Formula

/-- The operations of a formula. -/
def operations : Formula → List Operation
  | term t => t.operations
  | not operand => operand.operations ++ [.apply .not 1]
  | join connective left right =>
    left.operations ++ (right.operations ++ [.apply connective 2])

/-- The formula after a sign that does not join it to another one. -/
def signed (sign : Option Sign) (formula : Formula) : Formula :=
  match sign with
  | some .minus => not formula
  | some .plus | none => formula

end Formula

mutual

/-- The formula of a term or a group; `join` joins clauses without a connective of their own. -/
def Primary.formula (join : Operator) : Primary Term → Formula
  | .term t => .term t
  | .group sequence => sequence.formula join

/-- The formula of clauses in a row. -/
def Sequence.formula (join : Operator) : Sequence Term → Formula
  | .first sign primary => (primary.formula join).signed sign
  | .later before true sign primary =>
    .join .or (before.formula join) ((primary.formula join).signed sign)
  | .later before false (some .plus) primary =>
    .join .and (before.formula join) (primary.formula join)
  | .later before false (some .minus) primary =>
    .join .andNot (before.formula join) (primary.formula join)
  | .later before false none primary =>
    .join join (before.formula join) (primary.formula join)

end

/-! ## Tokens of a sequence -/

/-- What the terms of a query depend on. -/
structure Rules where
  options : ParseOptions
  /-- Whether words can name columns. -/
  columnClauses : Bool

/-- What the terms of a query depend on when it is read. -/
def Setting.rules (setting : Setting) : Rules := ⟨setting.options, setting.columnClauses⟩

@[simp] theorem Setting.options_rules (setting : Setting) :
    setting.rules.options = setting.options := rfl

@[simp] theorem Setting.columnClauses_rules (setting : Setting) :
    setting.rules.columnClauses = setting.columnClauses := rfl

/-- The term that a keyword of the default column is. -/
def keywordTerm (options : ParseOptions) (column keyword : String) : Term :=
  ⟨Text.segments column, options.defaultMode, .text keyword⟩

/-- The tokens of a term: a phrase or a word of the default column, a column clause with its value
behind the mode, or one with a phrase glued to it. -/
inductive TermTokens (rules : Rules) : Term → List Token → Prop
  | phrase {column phrase : String} {token : Token} :
      rules.options.defaultColumn = some column → token.kind = .phrase phrase →
      TermTokens rules (keywordTerm rules.options column phrase) [token]
  | word {column word : String} {token : Token} :
      rules.options.defaultColumn = some column → token.kind = .word word →
      (rules.columnClauses = true → columnClause? word.toList = none) →
      TermTokens rules (keywordTerm rules.options column word) [token]
  | value {word : String} {token : Token} {path value : List Char} {mode : Operator} :
      rules.columnClauses = true → token.kind = .word word →
      columnClause? word.toList = some (path, mode, value) → value ≠ [] →
      TermTokens rules ⟨Text.segments (String.ofList path), mode, bareValue value⟩ [token]
  | glued {word phrase : String} {token next : Token} {path : List Char} {mode : Operator} :
      rules.columnClauses = true → token.kind = .word word →
      columnClause? word.toList = some (path, mode, []) → next.kind = .phrase phrase →
      next.glued = true →
      TermTokens rules ⟨Text.segments (String.ofList path), mode, .text phrase⟩ [token, next]

/-- The tokens of an optional `OR`. -/
inductive OrTokens : Bool → List Token → Prop
  | absent : OrTokens false []
  | present {token : Token} : token.kind = .or → OrTokens true [token]

/-- The tokens of an optional sign. -/
inductive SignTokens : Option Sign → List Token → Prop
  | absent : SignTokens none []
  | plus {token : Token} : token.kind = .plus → SignTokens (some .plus) [token]
  | minus {token : Token} : token.kind = .minus → SignTokens (some .minus) [token]

mutual

/-- The tokens of a term or a group. -/
inductive Primary.Derives (rules : Rules) : Primary Term → List Token → Prop
  | term {t : Term} {tokens : List Token} :
      TermTokens rules t tokens → Primary.Derives rules (.term t) tokens
  | group {sequence : Sequence Term} {opening closing : Token} {tokens : List Token} :
      opening.kind = .opening → Sequence.Derives rules sequence tokens →
      closing.kind = .closing →
      Primary.Derives rules (.group sequence) (opening :: (tokens ++ [closing]))

/-- The tokens of clauses in a row. -/
inductive Sequence.Derives (rules : Rules) : Sequence Term → List Token → Prop
  | first {sign : Option Sign} {primary : Primary Term} {signs tokens : List Token} :
      SignTokens sign signs → Primary.Derives rules primary tokens →
      Sequence.Derives rules (.first sign primary) (signs ++ tokens)
  | later {before : Sequence Term} {afterOr : Bool} {sign : Option Sign} {primary : Primary Term}
      {earlier ors signs tokens : List Token} :
      Sequence.Derives rules before earlier → OrTokens afterOr ors → SignTokens sign signs →
      Primary.Derives rules primary tokens →
      Sequence.Derives rules (.later before afterOr sign primary)
        (earlier ++ (ors ++ (signs ++ tokens)))

end

/-! ## Clauses of a sequence -/

/-- The number of clauses in a row, groups counted as one. -/
def Sequence.count {α : Type} : Sequence α → Nat
  | .first _ _ => 1
  | .later before _ _ _ => before.count + 1

/-- A sign as the reader answers it; true stands for minus. -/
def Sign.isMinus : Sign → Bool
  | plus => false
  | minus => true

mutual

/-- The clause of a term or a group with a link. -/
def Primary.clause (join : Operator) (link : Link) : Primary Term → Clause
  | .term t => .term link t
  | .group sequence => .group link (sequence.clauses join)

/-- The clauses in a row from the left. -/
def Sequence.clauses (join : Operator) : Sequence Term → List Clause
  | .first sign primary => [primary.clause join (linkOf join true false (sign.map Sign.isMinus))]
  | .later before afterOr sign primary =>
    before.clauses join ++
      [primary.clause join (linkOf join false afterOr (sign.map Sign.isMinus))]

end

theorem Sequence.length_clauses (join : Operator) : (sequence : Sequence Term) →
    (sequence.clauses join).length = sequence.count
  | .first _ _ => rfl
  | .later before afterOr sign primary => by
    have hbefore := Sequence.length_clauses join before
    rw [Sequence.clauses, List.length_append, hbefore]
    rfl

theorem operationsOfAll_append (first later : List Clause) :
    operationsOfAll (first ++ later) = operationsOfAll first ++ operationsOfAll later := by
  induction first with
  | nil => rfl
  | cons clause first ih => simp [operationsOfAll, ih]

mutual

theorem Primary.operations_clause (join : Operator) (link : Link) : (primary : Primary Term) →
    (primary.clause join link).operations =
      (primary.formula join).operations ++ link.operations
  | .term _ => rfl
  | .group sequence => by
    have hsequence := Sequence.operations_clauses join sequence
    rw [Primary.clause, Primary.formula, Clause.operations, hsequence]

/-- Clauses in a row have the operations of their formula. -/
theorem Sequence.operations_clauses (join : Operator) : (sequence : Sequence Term) →
    operationsOfAll (sequence.clauses join) = (sequence.formula join).operations
  | .first sign primary => by
    have hprimary := Primary.operations_clause join (linkOf join true false
      (sign.map Sign.isMinus)) primary
    rw [Sequence.clauses, operationsOfAll, operationsOfAll, List.append_nil, hprimary]
    rcases sign with _ | _ | _ <;>
      simp [Sequence.formula, Formula.signed, Formula.operations, Link.operations, linkOf,
        Sign.isMinus]
  | .later before afterOr sign primary => by
    have hbefore := Sequence.operations_clauses join before
    have hprimary := Primary.operations_clause join (linkOf join false afterOr
      (sign.map Sign.isMinus)) primary
    rw [Sequence.clauses, operationsOfAll_append, hbefore, operationsOfAll, operationsOfAll,
      List.append_nil, hprimary]
    cases afterOr <;> rcases sign with _ | _ | _ <;>
      simp [Sequence.formula, Formula.signed, Formula.operations, Link.operations, linkOf,
        Sign.isMinus]

end

end RecordQuery.Query

import RecordQuery.Proofs.Query.Language
import RecordQuery.Proofs.Script.Language

/-!
# Queries as scripts

A query whose terms compare columns with values can be written as a script: each term, each join and
each negation in parentheses of its own (`Sequence.script`).  The operators are spelled otherwise,
and a path is read column by column and not cut at its dots, but names, texts in quotes and numbers
are written alike.

Both texts become the same operations: those of the formula that the clauses stand for are those of
the expression that the script stands for (`Sequence.operations_expr`), and each text is read as the
one or the other (`parseText_translated`).
-/

namespace RecordQuery.Query

open Script (Identifier Writes)

/-! ## Comparisons -/

/-- A path of columns, each read from the record that the ones before it give. -/
inductive NamePath where
  | column (name : Identifier)
  | member (record : NamePath) (name : Identifier)

/-- What a column is compared with. -/
inductive ComparedValue where
  | text (s : String)
  | integer (n : Int64) (nonneg : 0 ≤ n.toInt)

/-- A comparison of a column with a value. -/
structure Comparison where
  path : NamePath
  mode : Mode
  value : ComparedValue

namespace NamePath

/-- The names of the columns. -/
def names : NamePath → List String
  | column name => [name.val]
  | member record name => record.names ++ [name.val]

/-- The names with dots between them. -/
def spelling : NamePath → List Char
  | column name => name.val.toList
  | member record name => record.spelling ++ '.' :: name.val.toList

/-- The path as a script reads it. -/
def expr : NamePath → Script.Expr
  | column name => .column name.val
  | member record name => .member record.expr name.val

theorem isColumnChar_of_mem_name (name : Identifier) :
    ∀ c ∈ name.val.toList, isColumnChar c = true := by
  obtain ⟨c, rest, hchars, hstart, hrest⟩ := name.property.word
  intro d hd
  rw [hchars] at hd
  rcases List.mem_cons.mp hd with rfl | hbehind
  · unfold Script.startsIdentifier at hstart
    rcases Bool.or_eq_true_iff.mp hstart with halphabetic | hunderscore
    · simp [isColumnChar, Text.isAlphanumeric, halphabetic]
    · simp [isColumnChar, hunderscore]
  · exact hrest d hbehind

theorem splitAll_spelling (path : NamePath) :
    Text.splitAll '.' path.spelling = path.names.map String.toList := by
  have hname (name : Identifier) : ∀ c ∈ name.val.toList, c ≠ '.' := fun c hc =>
    ne_of_isColumnChar (isColumnChar_of_mem_name name c hc) (by decide)
  induction path with
  | column name => exact Text.splitAll_of_notMem (hname name)
  | member record name ih =>
      rw [spelling, Text.splitAll_append (hname name), ih, names, List.map_append]
      rfl

theorem segments_spelling (path : NamePath) :
    Text.segments (String.ofList path.spelling) = path.names := by
  rw [Text.segments, String.toList_ofList, splitAll_spelling, List.map_map]
  exact (List.map_congr_left fun name _ => String.ofList_toList).trans (List.map_id _)

theorem isColumnPath_spelling (path : NamePath) : isColumnPath path.spelling = true := by
  rw [isColumnPath, splitAll_spelling, List.all_map, List.all_eq_true]
  have hname (name : Identifier) :
      (!name.val.toList.isEmpty && name.val.toList.all isColumnChar) = true := by
    obtain ⟨c, rest, hchars, _⟩ := name.property.word
    have hall := List.all_eq_true.mpr (isColumnChar_of_mem_name name)
    rw [hall, hchars]
    rfl
  induction path with
  | column name =>
      intro found hfound
      obtain rfl := List.mem_singleton.mp hfound
      exact hname name
  | member record name ih =>
      intro found hfound
      rcases List.mem_append.mp hfound with hfound | hfound
      · exact ih found hfound
      · obtain rfl := List.mem_singleton.mp hfound
        exact hname name

/-- The path as a query writes it. -/
def columnPath (path : NamePath) : ColumnPath :=
  ⟨String.ofList path.spelling, by rw [String.toList_ofList]; exact path.isColumnPath_spelling⟩

theorem operations_expr (path : NamePath) :
    path.expr.operations = Operation.readPath path.names := by
  induction path with
  | column name => rfl
  | member record name ih =>
      rw [expr, Script.Expr.operations, ih, names]
      simp [Operation.readPath]

end NamePath

/-- The value as a script writes it. -/
def ComparedValue.literal : ComparedValue → Script.Literal
  | text s => .text s
  | integer n nonneg => .integer n nonneg

/-- The value as a query writes it. -/
def ComparedValue.columnValue : ComparedValue → ColumnValue
  | text s => .text s
  | integer n _ => .integer n

namespace Comparison

/-- The term of a query. -/
def term (c : Comparison) : Term := ⟨c.path.names, c.mode.operator, c.value.literal.value⟩

/-- The expression of a script. -/
def expr (c : Comparison) : Script.Expr :=
  .binary c.mode.operator c.path.expr (.literal c.value.literal.value)

/-- The comparison as a query writes it. -/
def spelling (c : Comparison) : List Char :=
  (Leaf.column c.path.columnPath c.mode c.value.columnValue).spelling

theorem prints (options : ParseOptions) (c : Comparison) :
    Prints c.spelling (TermTokens ⟨options, true⟩ c.term) := by
  have hprints := Leaf.prints_column options "" c.path.columnPath c.mode c.value.columnValue
  have hterm : (Leaf.column c.path.columnPath c.mode c.value.columnValue).term options "" =
      c.term := by
    obtain ⟨path, mode, value⟩ := c
    cases value <;>
      simp [Leaf.term, ComparedValue.columnValue, term, NamePath.columnPath,
        NamePath.segments_spelling, ComparedValue.literal, Script.Literal.value]
  rwa [hterm] at hprints

theorem operations_expr (c : Comparison) : c.expr.operations = c.term.operations := by
  rw [expr, Script.Expr.operations, NamePath.operations_expr]
  rfl

end Comparison

/-! ## The script of a query -/

/-- The operator between clauses; `join` joins those without a connective of their own. -/
def connective (join : Operator) : (afterOr : Bool) → Option Sign → Operator
  | true, _ => .or
  | false, some .plus => .and
  | false, some .minus => .andNot
  | false, none => join

/-- Whether a clause is negated by itself: where no connective takes its sign. -/
def isNegated (unjoined : Bool) (sign : Option Sign) : Bool := unjoined && sign == some .minus

/-- An expression, negated if need be. -/
def negateIf (negated : Bool) (e : Script.Expr) : Script.Expr := if negated then .not e else e

mutual

/-- The expression of a term or a group. -/
def Primary.expr (join : Operator) : Primary Comparison → Script.Expr
  | .term c => c.expr
  | .group sequence => sequence.expr join

/-- The expression of clauses in a row. -/
def Sequence.expr (join : Operator) : Sequence Comparison → Script.Expr
  | .first sign primary => negateIf (isNegated true sign) (primary.expr join)
  | .later before afterOr sign primary =>
    .binary (connective join afterOr sign) (before.expr join)
      (negateIf (isNegated afterOr sign) (primary.expr join))

end

/-- How scripts spell the modes and the connectives of queries. -/
def scriptSpelling : Operator → String
  | .equal => "=="
  | .notEqual => "!="
  | .less => "<"
  | .greater => ">"
  | .lessEqual => "<="
  | .greaterEqual => ">="
  | .contains => "@"
  | .startsWith => "@^"
  | .endsWith => "@$"
  | .regexp => "@~"
  | .and => "&&"
  | .or => "||"
  | .andNot => "&!"
  | _ => ""

/-- Two operands with an operator between them, in parentheses. -/
def scriptPair (operator : Operator) (left right : List Char) : List Char :=
  Script.enclose true (left ++ ' ' :: ((scriptSpelling operator).toList ++ ' ' :: right))

/-- An operand, negated in parentheses if need be. -/
def scriptNot (negated : Bool) (operand : List Char) : List Char :=
  if negated then Script.enclose true ('!' :: ' ' :: operand) else operand

mutual

/-- A term or a group as a script writes it. -/
def Primary.script (join : Operator) : Primary Comparison → List Char
  | .term c => scriptPair c.mode.operator c.path.spelling c.value.literal.spelling
  | .group sequence => sequence.script join

/-- Clauses in a row as a script writes them. -/
def Sequence.script (join : Operator) : Sequence Comparison → List Char
  | .first sign primary => scriptNot (isNegated true sign) (primary.script join)
  | .later before afterOr sign primary =>
    scriptPair (connective join afterOr sign) (before.script join)
      (scriptNot (isNegated afterOr sign) (primary.script join))

end

/-! ## The operations -/

theorem operations_negateIf (negated : Bool) (e : Script.Expr) :
    (negateIf negated e).operations =
      e.operations ++ if negated then [Operation.apply .not 1] else [] := by
  cases negated <;> simp [negateIf, Script.Expr.operations]

mutual

theorem Primary.operations_expr (join : Operator) : (primary : Primary Comparison) →
    (primary.expr join).operations =
      ((primary.map Comparison.term).formula join).operations
  | .term c => c.operations_expr
  | .group sequence => sequence.operations_expr join

/-- The expression and the formula of clauses in a row have the same operations. -/
theorem Sequence.operations_expr (join : Operator) : (sequence : Sequence Comparison) →
    (sequence.expr join).operations =
      ((sequence.map Comparison.term).formula join).operations
  | .first sign primary => by
    have hprimary := primary.operations_expr join
    rw [Sequence.expr, operations_negateIf, hprimary]
    rcases sign with _ | _ | _ <;>
      simp [isNegated, Sequence.map, Sequence.formula, Formula.signed, Formula.operations]
  | .later before afterOr sign primary => by
    have hbefore := before.operations_expr join
    have hprimary := primary.operations_expr join
    rw [Sequence.expr, Script.Expr.operations, operations_negateIf, hbefore, hprimary]
    cases afterOr <;> rcases sign with _ | _ | _ <;>
      simp [isNegated, connective, Sequence.map, Sequence.formula, Formula.signed,
        Formula.operations]

end

/-! ## Reading the script -/

/-- A path without spaces is cut at its dots: a dot ends a name. -/
theorem NamePath.lexes {P : List Script.Token → Prop} (path : NamePath) {after : List Char}
    (hafter : Script.Stops Script.continuesIdentifier after) (h : Script.Lexes after P) :
    Script.Lexes (path.spelling ++ after) fun tokens =>
      ∃ before behind, tokens = before ++ behind ∧
        Writes Script.Level.dot path.expr before ∧ P behind := by
  induction path generalizing after P with
  | column name =>
      refine (Script.lexes_name name.property hafter h).mono ?_
      rintro tokens ⟨token, behind, rfl, hkind, hspelling, hP⟩
      rw [String.ofList_toList] at hspelling
      refine ⟨[token], behind, rfl, ⟨?_, ?_⟩, hP⟩
      · rw [expr, ← hspelling]
        exact (Script.Derives.column hkind).mono (Nat.le_of_ble_eq_true rfl)
      · exact (Script.converts_cons_of_identifier hkind).mpr Script.converts_nil
  | member record name ih =>
      -- A point ends a name, so that what is left of it and right of it are read apart.
      have hname := Script.lexes_mark (c := '.') rfl (Script.lexes_name name.property hafter h)
      have hdot : Script.Stops Script.continuesIdentifier ('.' :: (name.val.toList ++ after)) :=
        Script.stops_cons (by decide) _
      rw [spelling, List.append_assoc, List.cons_append]
      refine (ih hdot hname).mono ?_
      rintro tokens ⟨before, _, rfl, ⟨hderives, hconverts⟩, dot, _, rfl, hmark, hpoint, token,
        behind, rfl, hkind, hspelling, hP⟩
      rw [String.ofList_toList] at hspelling
      have hisMark : dot.isMark "." = true := Script.Token.isMark_iff.mpr ⟨hmark, hpoint⟩
      refine ⟨before ++ [dot, token], behind, by simp, ⟨?_, ?_⟩, hP⟩
      · rw [expr, ← hspelling]
        exact .member hderives hisMark hkind
      · rw [Script.converts_append, Script.converts_cons_of_mark hisMark,
          Script.converts_cons_of_identifier hkind]
        exact ⟨hconverts, Script.converts_nil⟩

theorem NamePath.prints (path : NamePath) :
    Script.Prints path.spelling (Writes Script.Level.dot path.expr) := by
  intro after P hafter hlexes
  exact path.lexes (Script.stops_of_separated (by decide) hafter) hlexes

theorem exists_joint {operator : Operator}
    (h : operator.isMode = true ∨ operator.isConnective = true) :
    ∃ joint : Script.Joint, joint.operator = operator ∧
      joint.spelling = scriptSpelling operator := by
  have hfound : Script.binaryOperator? (scriptSpelling operator) =
      some (Script.levelOf (scriptSpelling operator), operator) := by
    cases operator <;> first | rfl | simp [Operator.isMode, Operator.isConnective,
      Operator.isComparison] at h
  exact ⟨⟨_, operator, _, Script.binaryOperator?_eq_some_iff.mp hfound⟩, rfl, rfl⟩

theorem isConnective_connective {join : Operator} (hjoin : join.isConnective = true)
    (afterOr : Bool) (sign : Option Sign) : (connective join afterOr sign).isConnective = true := by
  cases afterOr <;> rcases sign with _ | _ | _ <;> first | exact hjoin | rfl

variable {left right operand : Script.Expr} {first second : List Char}

theorem prints_scriptPair {operator : Operator}
    (hoperator : operator.isMode = true ∨ operator.isConnective = true)
    (hfirst : Script.Prints first (Writes Script.Level.dot left))
    (hsecond : Script.Prints second (Writes Script.Level.primary right)) :
    Script.Prints (scriptPair operator first second)
      (Writes Script.Level.primary (.binary operator left right)) := by
  obtain ⟨joint, rfl, hspelling⟩ := exists_joint hoperator
  have hlevel : joint.level < Script.Level.sign := joint.joins.bounds.2
  have hleft : joint.level ≤ Script.Level.dot :=
    Nat.le_trans (Nat.le_of_lt hlevel) (Nat.le_of_ble_eq_true rfl)
  have hright : joint.level + 1 ≤ Script.Level.primary :=
    Nat.le_trans hlevel (Nat.le_of_ble_eq_true rfl)
  have hpair := Script.prints_binary joint
    (hfirst.mono fun _ hwritten => ⟨hwritten.1.mono hleft, hwritten.2⟩)
    (hsecond.mono fun _ hwritten => ⟨hwritten.1.mono hright, hwritten.2⟩)
  rw [scriptPair, ← hspelling]
  exact Script.prints_group hpair (Nat.le_of_lt joint.joins.bounds.1)

theorem prints_scriptNot (negated : Bool)
    (h : Script.Prints first (Writes Script.Level.primary operand)) :
    Script.Prints (scriptNot negated first)
      (Writes Script.Level.primary (negateIf negated operand)) := by
  cases negated with
  | false => exact h
  | true =>
      have hoperand : Script.Prints first (Writes Script.Level.sign operand) :=
        h.mono fun _ hwritten =>
          ⟨hwritten.1.mono (Nat.le_of_ble_eq_true rfl), hwritten.2⟩
      have hnot : Script.Prints ('!' :: ' ' :: first)
          (Writes Script.Level.sign (.not operand)) :=
        Script.prints_signed hoperand rfl fun _ _ => .not
      exact Script.prints_group hnot (Nat.le_of_ble_eq_true rfl)

theorem prints_dot_of_primary (h : Script.Prints first (Writes Script.Level.primary operand)) :
    Script.Prints first (Writes Script.Level.dot operand) :=
  h.mono fun _ hwritten => ⟨hwritten.1.mono (Nat.le_of_ble_eq_true rfl), hwritten.2⟩

mutual

theorem Primary.prints_script {join : Operator} (hjoin : join.isConnective = true) :
    (primary : Primary Comparison) → Script.Prints (primary.script join)
      (Writes Script.Level.primary (primary.expr join))
  | .term c => prints_scriptPair (Or.inl c.mode.isMode) c.path.prints c.value.literal.prints
  | .group sequence => sequence.prints_script hjoin

theorem Sequence.prints_script {join : Operator} (hjoin : join.isConnective = true) :
    (sequence : Sequence Comparison) → Script.Prints (sequence.script join)
      (Writes Script.Level.primary (sequence.expr join))
  | .first _ primary => prints_scriptNot _ (primary.prints_script hjoin)
  | .later before afterOr sign primary =>
    prints_scriptPair (Or.inr (isConnective_connective hjoin afterOr sign))
      (prints_dot_of_primary (before.prints_script hjoin))
      (prints_scriptNot _ (primary.prints_script hjoin))

end

/-- Clauses in a row as a query, with a space between any two parts. -/
def Sequence.asQuery (sequence : Sequence Comparison) : String :=
  String.ofList (sequence.spelling Comparison.spelling)

/-- Clauses in a row as a script, with a space between any two parts but at the dots of paths. -/
def Sequence.asScript (sequence : Sequence Comparison) (join : Operator) : String :=
  String.ofList (sequence.script join)

end RecordQuery.Query

namespace RecordQuery

open Query

variable {options scripts : ParseOptions}

/-- The grammar of queries and that of scripts agree.  A text with the tokens of clauses that
compare columns with values and a script of their expression become the same operations, whichever
way the two are written; and the clauses can be written both ways, with paths, texts and numbers
alike. -/
theorem parseText_translated (hgrammar : options.grammar = .query)
    (hscripts : scripts.grammar = .script) (hjoin : options.defaultJoin.isConnective = true)
    (sequence : Sequence Comparison) :
    let join := options.defaultJoin
    let operations := ((sequence.map Comparison.term).formula join).operations
    (∀ query tokens, tokenize query = .ok tokens →
      (sequence.map Comparison.term).Derives options.rules tokens →
      parseText options true query = ⟨operations, .ok sequence.count⟩) ∧
      (∀ script, Script.Converts (Script.tokenize script) →
        Script.Denotes script (sequence.expr join) →
        parseText scripts true script = ⟨operations, .ok 1⟩) ∧
      parseText options true sequence.asQuery = ⟨operations, .ok sequence.count⟩ ∧
      parseText scripts true (sequence.asScript join) = ⟨operations, .ok 1⟩ := by
  intro join operations
  have hquery : options.grammar ≠ .script := by
    rw [hgrammar]
    decide
  have hrules : options.rules = ⟨options, true⟩ := by
    rw [ParseOptions.rules, hgrammar]
    rfl
  have hreadQuery : ∀ query tokens, tokenize query = .ok tokens →
      (sequence.map Comparison.term).Derives options.rules tokens →
      parseText options true query = ⟨operations, .ok sequence.count⟩ := by
    intro query tokens htokens hderives
    rw [parseText_of_derives hquery htokens hderives, Sequence.count_map]
  have hreadScript : ∀ script, Script.Converts (Script.tokenize script) →
      Script.Denotes script (sequence.expr join) →
      parseText scripts true script = ⟨operations, .ok 1⟩ := by
    intro script hconverts hdenotes
    rw [parseText_of_denotes hscripts hconverts hdenotes, sequence.operations_expr]
  obtain ⟨tokens, htokens, hderives⟩ :=
    sequence.tokenize_spelling fun c => c.prints options
  -- What is written from the tree is one of the texts that the two rules speak of.
  obtain ⟨hdenotes, hconverts⟩ :=
    Script.denotes_of_prints (sequence.prints_script hjoin) (Nat.le_of_ble_eq_true rfl)
  rw [← hrules] at hderives
  exact ⟨hreadQuery, hreadScript, hreadQuery _ tokens htokens hderives,
    hreadScript _ hconverts hdenotes⟩

/-- A path, a negated group with a quote in a text, and clauses without a connective of their
own. -/
theorem parseText_translated_negated :
    let options : ParseOptions := {}
    let scripts : ParseOptions := { grammar := .script }
    let operations := (Formula.join .or (.term ⟨["author", "age"], .greaterEqual, .integer 5⟩)
      (.not (.join .and (.term ⟨["title"], .equal, .text "a\"b"⟩)
        (.term ⟨["n"], .notEqual, .integer 7⟩)))).operations
    parseText options true "author.age:>=5 OR - ( title:\"a\\\"b\" n:!7 )" =
        ⟨operations, .ok 2⟩ ∧
      parseText scripts true
          "( ( author.age >= 5 ) || ( ! ( ( title == \"a\\\"b\" ) && ( n != 7 ) ) ) )" =
        ⟨operations, .ok 1⟩ := by
  intro options scripts operations
  let author : Script.Identifier :=
    ⟨"author", ⟨_, _, rfl, by decide, List.all_eq_true.mp (by decide)⟩, by decide⟩
  let age : Script.Identifier :=
    ⟨"age", ⟨_, _, rfl, by decide, List.all_eq_true.mp (by decide)⟩, by decide⟩
  let title : Script.Identifier :=
    ⟨"title", ⟨_, _, rfl, by decide, List.all_eq_true.mp (by decide)⟩, by decide⟩
  let n : Script.Identifier := ⟨"n", ⟨_, _, rfl, by decide, by simp⟩, by decide⟩
  let sequence : Sequence Comparison :=
    .later
      (.first none (.term
        ⟨.member (.column author) age, ⟨.greaterEqual, rfl⟩, .integer 5 (by decide)⟩))
      true (some .minus)
      (.group (.later
        (.first none (.term ⟨.column title, ⟨.equal, rfl⟩, .text "a\"b"⟩)) false none
        (.term ⟨.column n, ⟨.notEqual, rfl⟩, .integer 7 (by decide)⟩)))
  have hquery : sequence.asQuery = "author.age:>=5 OR - ( title:\"a\\\"b\" n:!7 )" := by
    decide +kernel
  have hscript : sequence.asScript options.defaultJoin =
      "( ( author.age >= 5 ) || ( ! ( ( title == \"a\\\"b\" ) && ( n != 7 ) ) ) )" := by
    decide +kernel
  have hgrammar : options.grammar = .query := rfl
  have hscripts : scripts.grammar = .script := rfl
  obtain ⟨_, _, hleft, hright⟩ := parseText_translated hgrammar hscripts rfl sequence
  rw [hquery] at hleft
  rw [hscript] at hright
  exact ⟨hleft, hright⟩

end RecordQuery

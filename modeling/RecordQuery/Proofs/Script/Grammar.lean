import Mathlib.Data.List.Nodup
import RecordQuery.Proofs.Script.Expr
import RecordQuery.Script.Parser

/-!
# The grammar of scripts

Expressions have levels, and an expression of a level is one of each lower level too:

* `expression(n) := expression(n) operator(n) expression(n + 1)` for the levels `n` of the binary
  operators (`ladder`), so operators of one level group to the left;
* `expression(8) := ('-' | '!') expression(8)`;
* `expression(9) := expression(9) '.' identifier`;
* `expression(10) := literal | identifier | identifier '(' arguments ')' | '(' expression(1) ')'`,
  the arguments being any number of expressions of level 1 with commas between them.

`Derives` relates an expression to the tokens that it is written with.  Whether the numerals among
them can be read is a question of its own (`Converts`).
-/

namespace RecordQuery.Script

/-! ## Levels -/

/-- The level of literals, columns, calls and groups. -/
def Level.primary : Level := 10

/-- The binary operators by level, the loosest level first. -/
def ladder : List (List (String × Operator)) := [
  [("||", .or)],
  [("&&", .and), ("&!", .andNot)],
  [("==", .equal), ("!=", .notEqual), ("@", .contains), ("@^", .startsWith), ("@$", .endsWith),
    ("@~", .regexp)],
  [("<", .less), (">", .greater), ("<=", .lessEqual), (">=", .greaterEqual)],
  [("+", .plus), ("-", .minus)],
  [("*", .times), ("/", .divide), ("%", .modulo)]]

/-- Whether a spelling between two operands is an operator of a level. -/
def Joins (level : Level) (operator : Operator) (spelling : String) : Prop :=
  ∃ (step : Nat) (row : _), ladder[step]? = some row ∧ level = Level.lowest + 1 + step ∧
    (spelling, operator) ∈ row

theorem Joins.bounds {level : Level} {operator : Operator} {spelling : String}
    (h : Joins level operator spelling) : Level.lowest < level ∧ level < Level.sign := by
  obtain ⟨step, row, hrow, rfl, _⟩ := h
  have hstep : step < 6 := (List.getElem?_eq_some_iff.mp hrow).1
  change 1 < 1 + 1 + step ∧ 1 + 1 + step < 8
  omega

theorem lookup_eq_some_iff_mem {α β : Type} [BEq α] [LawfulBEq α] {table : List (α × β)}
    (hkeys : (table.map Prod.fst).Nodup) {key : α} {entry : β} :
    table.lookup key = some entry ↔ (key, entry) ∈ table := by
  refine ⟨fun h => ?_, fun h => ?_⟩
  · obtain ⟨before, after, hsplit, _⟩ := List.lookup_eq_some_iff.mp h
    simp [hsplit]
  · obtain ⟨before, after, hsplit⟩ := List.append_of_mem h
    rw [hsplit, List.map_append, List.map_cons, List.nodup_middle] at hkeys
    refine List.lookup_eq_some_iff.mpr ⟨before, after, hsplit, fun other hother => ?_⟩
    rw [bne_iff_ne]
    rintro rfl
    have hkey : other.1 ∈ before.map Prod.fst := List.mem_map.mpr ⟨other, hother, rfl⟩
    exact (List.nodup_cons.mp hkeys).1 (List.mem_append_left _ hkey)

/-- The reader finds an operator and its level exactly where the ladder has them. -/
theorem binaryOperator?_eq_some_iff {level : Level} {operator : Operator} {spelling : String} :
    binaryOperator? spelling = some (level, operator) ↔ Joins level operator spelling := by
  have htable : binaryOperators = ladder.zipIdx.flatMap fun (row, step) =>
      row.map fun (spelling, operator) => (spelling, Level.lowest + 1 + step, operator) := rfl
  have hkeys : (binaryOperators.map Prod.fst).Nodup := by decide
  unfold binaryOperator?
  rw [lookup_eq_some_iff_mem hkeys, htable, List.mem_flatMap]
  constructor
  · rintro ⟨⟨row, step⟩, hrow, hentry⟩
    obtain ⟨⟨_, _⟩, hmem, heq⟩ := List.mem_map.mp hentry
    cases heq
    exact ⟨step, row, List.mem_zipIdx_iff_getElem?.mp hrow, rfl, hmem⟩
  · rintro ⟨step, row, hrow, rfl, hmem⟩
    exact ⟨(row, step), List.mem_zipIdx_iff_getElem?.mpr hrow,
      List.mem_map.mpr ⟨(spelling, operator), hmem, rfl⟩⟩

/-! ## Literals -/

namespace Token

/-- Whether the token is a numeral. -/
def IsNumeral (token : Token) : Prop := token.kind = .integer ∨ token.kind = .float

/-- Whether the token is a literal. -/
def IsLiteral (token : Token) : Prop :=
  token.IsNumeral ∨ token.kind = .string ∨ token.kind = .keyword

/-- The value of a literal; nothing for a numeral that stands for no number and for other tokens. -/
def literal? (token : Token) : Option Value :=
  match token.kind with
  | .integer => (Decimal.readInt64 token.spelling.toList).map .integer
  | .float => (Decimal.readFloat token.spelling.toList).map .float
  | .string => some (.text token.spelling)
  | .keyword => some (keywordValue token.spelling)
  | _ => none

/-- The value of a literal.  Where it has none it does not matter, as no script with such a numeral
is read. -/
def literalValue (token : Token) : Value := token.literal?.getD .unknown

end Token

/-- Whether all numerals among tokens stand for numbers. -/
def Converts (tokens : List Token) : Prop :=
  ∀ token ∈ tokens, token.IsNumeral → token.literal?.isSome = true

@[simp] theorem converts_nil : Converts [] := fun _ hmem => absurd hmem List.not_mem_nil

@[simp] theorem converts_cons {token : Token} {tokens : List Token} :
    Converts (token :: tokens) ↔
      (token.IsNumeral → token.literal?.isSome = true) ∧ Converts tokens :=
  List.forall_mem_cons

@[simp] theorem converts_append {first second : List Token} :
    Converts (first ++ second) ↔ Converts first ∧ Converts second :=
  List.forall_mem_append

theorem converts_cons_of_kind {token : Token} {tokens : List Token} {kind : TokenKind}
    (h : token.kind = kind) (hinteger : kind ≠ .integer) (hfloat : kind ≠ .float) :
    Converts (token :: tokens) ↔ Converts tokens := by
  subst h
  rw [converts_cons, and_iff_right]
  rintro (hkind | hkind)
  · exact absurd hkind hinteger
  · exact absurd hkind hfloat

/-! ## Operators and marks -/

/-- Whether a token is an operator with a spelling. -/
def Token.IsOperator (token : Token) (spelling : String) : Prop :=
  token.kind = .operator ∧ token.spelling = spelling

theorem Token.isMark_iff {token : Token} {mark : String} :
    token.isMark mark = true ↔ token.kind = .punctuator ∧ token.spelling = mark := by
  simp [Token.isMark]

theorem Token.isMark_eq_false_of_kind {token : Token} {kind : TokenKind} (h : token.kind = kind)
    (hkind : kind ≠ .punctuator) (mark : String) : token.isMark mark = false := by
  refine Bool.eq_false_iff.mpr fun hmark => hkind ?_
  exact h.symm.trans (Token.isMark_iff.mp hmark).1

theorem Token.IsLiteral.isMark_eq_false {token : Token} (h : token.IsLiteral) (mark : String) :
    token.isMark mark = false := by
  rcases h with (hkind | hkind) | hkind | hkind <;>
    exact Token.isMark_eq_false_of_kind hkind (by decide) mark

theorem Token.isMark_eq_false_of_ne {token : Token} {mark other : String}
    (h : token.isMark mark = true) (hother : mark ≠ other) : token.isMark other = false := by
  refine Bool.eq_false_iff.mpr fun hmark => hother ?_
  exact (Token.isMark_iff.mp h).2.symm.trans (Token.isMark_iff.mp hmark).2

theorem converts_cons_of_operator {token : Token} {tokens : List Token} {spelling : String}
    (h : token.IsOperator spelling) : Converts (token :: tokens) ↔ Converts tokens :=
  converts_cons_of_kind h.1 (by simp) (by simp)

theorem converts_cons_of_identifier {token : Token} {tokens : List Token}
    (h : token.kind = .identifier) : Converts (token :: tokens) ↔ Converts tokens :=
  converts_cons_of_kind h (by simp) (by simp)

theorem converts_cons_of_mark {token : Token} {tokens : List Token} {mark : String}
    (h : token.isMark mark = true) : Converts (token :: tokens) ↔ Converts tokens :=
  converts_cons_of_kind (Token.isMark_iff.mp h).1 (by simp) (by simp)

/-! ## Derivations -/

mutual

/-- The tokens of an expression of a level. -/
inductive Derives : Level → Expr → List Token → Prop
  /-- What binds tighter is of a level too. -/
  | lift {level : Level} {e : Expr} {tokens : List Token} :
      Derives (level + 1) e tokens → Derives level e tokens
  | binary {level : Level} {operator : Operator} {spelling : String} {left right : Expr}
      {token : Token} {first second : List Token} :
      Joins level operator spelling → Derives level left first → token.IsOperator spelling →
      Derives (level + 1) right second →
      Derives level (.binary operator left right) (first ++ token :: second)
  | negate {operand : Expr} {token : Token} {tokens : List Token} :
      token.IsOperator "-" → Derives Level.sign operand tokens →
      Derives Level.sign (.negate operand) (token :: tokens)
  | not {operand : Expr} {token : Token} {tokens : List Token} :
      token.IsOperator "!" → Derives Level.sign operand tokens →
      Derives Level.sign (.not operand) (token :: tokens)
  | member {record : Expr} {dot name : Token} {tokens : List Token} :
      Derives Level.dot record tokens → dot.isMark "." = true → name.kind = .identifier →
      Derives Level.dot (.member record name.spelling) (tokens ++ [dot, name])
  | literal {token : Token} :
      token.IsLiteral → Derives Level.primary (.literal token.literalValue) [token]
  | column {token : Token} :
      token.kind = .identifier → Derives Level.primary (.column token.spelling) [token]
  | emptyCall {name opening closing : Token} :
      name.kind = .identifier → opening.isMark "(" = true → closing.isMark ")" = true →
      Derives Level.primary (.call name.spelling []) [name, opening, closing]
  | call {name opening closing : Token} {arguments : List Expr} {tokens : List Token} :
      name.kind = .identifier → opening.isMark "(" = true → DerivesAll arguments tokens →
      closing.isMark ")" = true →
      Derives Level.primary (.call name.spelling arguments)
        (name :: opening :: (tokens ++ [closing]))
  | group {e : Expr} {opening closing : Token} {tokens : List Token} :
      opening.isMark "(" = true → Derives Level.lowest e tokens → closing.isMark ")" = true →
      Derives Level.primary e (opening :: (tokens ++ [closing]))

/-- The tokens of one expression or more with commas between them. -/
inductive DerivesAll : List Expr → List Token → Prop
  | single {e : Expr} {tokens : List Token} :
      Derives Level.lowest e tokens → DerivesAll [e] tokens
  | cons {e : Expr} {later : List Expr} {comma : Token} {first second : List Token} :
      Derives Level.lowest e first → comma.isMark "," = true → DerivesAll later second →
      DerivesAll (e :: later) (first ++ comma :: second)

end

/-- What is of a level is of all lower ones. -/
theorem Derives.mono {level lower : Level} {e : Expr} {tokens : List Token}
    (h : Derives level e tokens) (hlower : lower ≤ level) : Derives lower e tokens := by
  induction hlower with
  | refl => exact h
  | step _ ih => exact ih h.lift

end RecordQuery.Script

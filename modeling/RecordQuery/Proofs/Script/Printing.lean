import RecordQuery.Proofs.Script.Spelling

/-!
# Printed scripts

A script tree is printed with a space between any two tokens and with parentheses around an operand
only where the operand binds less tightly than its place requires (`Tree.spelling`).  Cutting the
printed tree gives tokens that its expression derives (`Tree.prints`).
-/

namespace RecordQuery.Script

open Query (Separated)

/-! ## Trees -/

/-- A binary operator with its level and its spelling. -/
structure Joint where
  level : Level
  operator : Operator
  spelling : String
  joins : Joins level operator spelling

/-- A name of a column or a function. -/
abbrev Identifier := { name : String // IsName name }

/-- A literal as a script writes it; negative numbers are signs before literals. -/
inductive Literal where
  | integer (n : Int64) (nonneg : 0 ≤ n.toInt)
  | float (numeral : FloatNumeral)
  | text (s : String)
  | boolean (b : Bool)
  | null

/-- A script as a tree. -/
inductive Tree where
  | literal (literal : Literal)
  | column (name : Identifier)
  | member (record : Tree) (name : Identifier)
  | call (function : Identifier) (arguments : List Tree)
  | negate (operand : Tree)
  | not (operand : Tree)
  | binary (joint : Joint) (left right : Tree)

/-- The value of a literal. -/
def Literal.value : Literal → Value
  | integer n _ => .integer n
  | float numeral => .float ((Decimal.readFloat numeral.spelling).getD 0.0)
  | text s => .text s
  | boolean b => .boolean b
  | null => .unknown

mutual

/-- The expression of a tree. -/
def Tree.expr : Tree → Expr
  | .literal l => .literal l.value
  | .column name => .column name.val
  | .member record name => .member record.expr name.val
  | .call function arguments => .call function.val (exprsOf arguments)
  | .negate operand => .negate operand.expr
  | .not operand => .not operand.expr
  | .binary joint left right => .binary joint.operator left.expr right.expr

/-- The expressions of trees. -/
def exprsOf : List Tree → List Expr
  | [] => []
  | t :: later => t.expr :: exprsOf later

end

/-- How tightly a tree binds. -/
def Tree.level : Tree → Level
  | literal _ | column _ | call _ _ => Level.primary
  | member _ _ => Level.dot
  | negate _ | not _ => Level.sign
  | binary joint _ _ => joint.level

/-! ## Spellings -/

/-- A literal as it is printed. -/
def Literal.spelling : Literal → List Char
  | integer n _ => (toString n).toList
  | float numeral => numeral.spelling
  | text s => Query.quote s
  | boolean true => "true".toList
  | boolean false => "false".toList
  | null => "null".toList

/-- A spelling, in parentheses if need be. -/
def enclose (needed : Bool) (spelling : List Char) : List Char :=
  if needed then '(' :: ' ' :: (spelling ++ [' ', ')']) else spelling

mutual

/-- A tree as it is printed. -/
def Tree.spelling : Tree → List Char
  | .literal l => l.spelling
  | .column name => name.val.toList
  | .member record name =>
    enclose (record.level < Level.dot) record.spelling ++ ' ' :: '.' :: ' ' :: name.val.toList
  | .call function arguments => function.val.toList ++ ' ' :: '(' :: ' ' :: spellArguments arguments
  | .negate operand => '-' :: ' ' :: enclose (operand.level < Level.sign) operand.spelling
  | .not operand => '!' :: ' ' :: enclose (operand.level < Level.sign) operand.spelling
  | .binary joint left right =>
    enclose (left.level < joint.level) left.spelling ++
      ' ' :: (joint.spelling.toList ++
        ' ' :: enclose (right.level < joint.level + 1) right.spelling)

/-- The arguments of a call up to the closing parenthesis. -/
def spellArguments : List Tree → List Char
  | [] => [')']
  | [t] => t.spelling ++ [' ', ')']
  | t :: later => t.spelling ++ ' ' :: ',' :: ' ' :: spellArguments later

end

/-! ## Printed tokens -/

/-- Whether a spelling before a space or the end is cut into tokens with a property. -/
def Prints (spelling : List Char) (written : List Token → Prop) : Prop :=
  ∀ (after : List Char) (P : List Token → Prop), Separated after → Lexes after P →
    Lexes (spelling ++ after) fun tokens =>
      ∃ before behind, tokens = before ++ behind ∧ written before ∧ P behind

theorem Prints.mono {spelling : List Char} {written other : List Token → Prop}
    (h : Prints spelling written) (hproperty : ∀ tokens, written tokens → other tokens) :
    Prints spelling other := by
  intro after P hafter hlexes
  refine (h after P hafter hlexes).mono ?_
  rintro tokens ⟨before, behind, rfl, hwritten, hP⟩
  exact ⟨before, behind, rfl, hproperty before hwritten, hP⟩

/-- Spellings with a space between them are cut one after the other. -/
theorem Prints.append {first later : List Char} {one other : List Token → Prop}
    (hfirst : Prints first one) (hlater : Prints later other) :
    Prints (first ++ ' ' :: later) fun tokens =>
      ∃ before behind, tokens = before ++ behind ∧ one before ∧ other behind := by
  intro after P hafter hlexes
  have hbehind := lexes_space (hlater after P hafter hlexes)
  have hall := hfirst (' ' :: (later ++ after)) _ (Query.Separated.space _) hbehind
  rw [List.append_assoc, List.cons_append]
  refine hall.mono ?_
  rintro tokens ⟨before, rest, rfl, hone, between, behind, rfl, hother, hP⟩
  exact ⟨before ++ between, behind, by rw [List.append_assoc], ⟨before, between, rfl, hone, hother⟩,
    hP⟩

/-- Whether tokens are one token of a kind and a spelling. -/
def IsToken (kind : TokenKind) (spelling : List Char) (tokens : List Token) : Prop :=
  ∃ token, tokens = [token] ∧ token.kind = kind ∧ token.spelling = String.ofList spelling

theorem prints_token (source : List Char) {spelling : List Char} {kind : TokenKind}
    (h : ∀ (after : List Char) (P : List Token → Prop), Separated after → Lexes after P →
      Lexes (source ++ after) (Begins kind spelling P)) :
    Prints source (IsToken kind spelling) := by
  intro after P hafter hlexes
  refine (h after P hafter hlexes).mono ?_
  rintro tokens ⟨token, behind, rfl, hkind, hspelling, hP⟩
  exact ⟨[token], behind, rfl, ⟨token, rfl, hkind, hspelling⟩, hP⟩

theorem prints_mark {c : Char} (hmark : isPunctuator c = true) :
    Prints [c] fun tokens => ∃ token, tokens = [token] ∧
      token.isMark (String.ofList [c]) = true := by
  refine (prints_token [c] fun _ _ _ hlexes => lexes_mark hmark hlexes).mono ?_
  rintro tokens ⟨token, rfl, hkind, hspelling⟩
  exact ⟨token, rfl, Token.isMark_iff.mpr ⟨hkind, hspelling⟩⟩

theorem prints_operator {spelling : String} (hoperator : isOperator spelling = true) :
    Prints spelling.toList fun tokens => ∃ token, tokens = [token] ∧
      token.IsOperator spelling := by
  refine (prints_token spelling.toList fun _ _ hafter hlexes =>
    lexes_operator hoperator hafter hlexes).mono ?_
  rintro tokens ⟨token, rfl, hkind, hspelling⟩
  exact ⟨token, rfl, hkind, by rw [hspelling, String.ofList_toList]⟩

theorem prints_name (name : Identifier) :
    Prints name.val.toList fun tokens => ∃ token, tokens = [token] ∧
      token.kind = .identifier ∧ token.spelling = name.val := by
  refine (prints_token name.val.toList fun _ _ hafter hlexes =>
    lexes_name name.property (stops_of_separated (by decide) hafter) hlexes).mono ?_
  rintro tokens ⟨token, rfl, hkind, hspelling⟩
  exact ⟨token, rfl, hkind, by rw [hspelling, String.ofList_toList]⟩

theorem Joins.isOperator {level : Level} {operator : Operator} {spelling : String}
    (h : Joins level operator spelling) : isOperator spelling = true := by
  have hall : ∀ entry ∈ binaryOperators, Script.isOperator entry.1 = true := by decide
  obtain ⟨before, after, htable, _⟩ :=
    List.lookup_eq_some_iff.mp (binaryOperator?_eq_some_iff.mpr h)
  exact hall (spelling, level, operator) (by simp [htable])

/-! ## Tokens of trees -/

/-- Whether tokens are those of an expression of a level, with numerals that stand for numbers. -/
def Writes (level : Level) (e : Expr) (tokens : List Token) : Prop :=
  Derives level e tokens ∧ Converts tokens

/-- Whether tokens are those of arguments up to a closing parenthesis. -/
def WritesAll (arguments : List Expr) (tokens : List Token) : Prop :=
  ∃ inner closing, tokens = inner ++ [closing] ∧ closing.isMark ")" = true ∧
    (arguments = [] ∧ inner = [] ∨ DerivesAll arguments inner ∧ Converts inner)

theorem Literal.prints (l : Literal) :
    Prints l.spelling (Writes Level.primary (.literal l.value)) := by
  have hliteral {token : Token} (htoken : token.IsLiteral)
      (hvalue : token.literal? = some l.value) :
      Writes Level.primary (.literal l.value) [token] := by
    have hderives := Derives.literal htoken
    rw [Token.literalValue, hvalue] at hderives
    exact ⟨hderives, by simp [hvalue]⟩
  have hkeyword (word : String) (hkeyword : isKeyword word = true)
      (hvalue : keywordValue word = l.value) :
      Prints word.toList (Writes Level.primary (.literal l.value)) := by
    refine (prints_token word.toList fun _ _ hafter hlexes =>
      lexes_word (isWord_of_isKeyword hkeyword) (stops_of_separated (by decide) hafter)
        hlexes).mono ?_
    rintro tokens ⟨token, rfl, hkind, hspelling⟩
    rw [if_pos hkeyword] at hkind
    rw [String.ofList_toList] at hspelling
    exact hliteral (Or.inr (Or.inr hkind)) (by simp [Token.literal?, hkind, hspelling, hvalue])
  cases l with
  -- A negative number would be written with a sign, which is an operator.
  | integer n nonneg =>
      have hspelling : (toString n).toList = Nat.toDigits 10 n.toInt.natAbs := by
        have hwritten := Decimal.toList_toString n.toInt
        rwa [if_neg (Int.not_lt.mpr nonneg), List.nil_append] at hwritten
      have hdigits : IsDigits (toString n).toList := by
        rw [hspelling]
        exact ⟨Nat.toDigits_ne_nil, fun c hc => Decimal.isDigit_of_mem_toDigits hc⟩
      refine (prints_token (toString n).toList fun _ _ hafter hlexes =>
        lexes_integer hdigits hafter hlexes).mono ?_
      rintro tokens ⟨token, rfl, hkind, hspelling⟩
      rw [String.ofList_toList] at hspelling
      refine hliteral (Or.inl (Or.inl hkind)) ?_
      simp [Token.literal?, hkind, hspelling, Decimal.readInt64_toString, Literal.value]
  | float numeral =>
      refine (prints_token numeral.spelling fun _ _ hafter hlexes =>
        numeral.lexes hafter hlexes).mono ?_
      rintro tokens ⟨token, rfl, hkind, hspelling⟩
      obtain ⟨x, hx⟩ := numeral.exists_readFloat
      refine hliteral (Or.inl (Or.inr hkind)) ?_
      simp [Token.literal?, hkind, hspelling, hx, Literal.value]
  | text s =>
      refine (prints_token (Query.quote s) fun _ _ _ hlexes =>
        lexes_quote s hlexes).mono ?_
      rintro tokens ⟨token, rfl, hkind, hspelling⟩
      rw [String.ofList_toList] at hspelling
      exact hliteral (Or.inr (Or.inl hkind)) (by simp [Token.literal?, hkind, hspelling, value])
  | boolean b =>
      cases b with
      | true => exact hkeyword "true" (by decide) rfl
      | false => exact hkeyword "false" (by decide) rfl
  | null => exact hkeyword "null" (by decide) rfl

theorem Tree.level_bounds : (t : Tree) → Level.lowest ≤ t.level ∧ t.level ≤ Level.primary
  | .literal _ | .column _ | .member _ _ | .call _ _ | .negate _ | .not _ =>
    ⟨Nat.le_of_ble_eq_true rfl, Nat.le_of_ble_eq_true rfl⟩
  | .binary joint _ _ =>
    ⟨Nat.le_of_lt joint.joins.bounds.1, Nat.le_trans (Nat.le_of_lt joint.joins.bounds.2)
      (Nat.le_of_ble_eq_true rfl)⟩

/-- In parentheses an expression binds as tightly as can be. -/
theorem prints_group {own : Level} {e : Expr} {spelling : List Char}
    (h : Prints spelling (Writes own e)) (hown : Level.lowest ≤ own) :
    Prints (enclose true spelling) (Writes Level.primary e) := by
  have hgroup := (prints_mark (c := '(') rfl).append (h.append (prints_mark (c := ')') rfl))
  refine hgroup.mono ?_
  rintro tokens ⟨_, _, rfl, ⟨opening, rfl, hopening⟩, inner, _, rfl, ⟨hderives, hconverts⟩,
    closing, rfl, hclosing⟩
  refine ⟨.group hopening (hderives.mono hown) hclosing, ?_⟩
  rw [List.singleton_append, converts_cons_of_mark hopening, converts_append,
    converts_cons_of_mark hclosing]
  exact ⟨hconverts, converts_nil⟩

/-- In parentheses, or where none are needed, an expression is one of any level. -/
theorem prints_enclose {own level : Level} {e : Expr} {spelling : List Char}
    (h : Prints spelling (Writes own e)) (hown : Level.lowest ≤ own)
    (hlevel : level ≤ Level.primary) :
    Prints (enclose (own < level) spelling) (Writes level e) := by
  by_cases hneeded : own < level
  · rw [decide_eq_true hneeded]
    exact (prints_group h hown).mono fun _ hwritten => ⟨hwritten.1.mono hlevel, hwritten.2⟩
  · rw [enclose, if_neg (by simpa using hneeded)]
    exact h.mono fun _ hwritten => ⟨hwritten.1.mono (Nat.le_of_not_lt hneeded), hwritten.2⟩

theorem prints_operand {level : Level} {t : Tree} (h : Prints t.spelling (Writes t.level t.expr))
    (hlevel : level ≤ Level.primary) :
    Prints (enclose (t.level < level) t.spelling) (Writes level t.expr) :=
  prints_enclose h t.level_bounds.1 hlevel

theorem prints_member {record : Expr} {spelling : List Char}
    (h : Prints spelling (Writes Level.dot record)) (name : Identifier) :
    Prints (spelling ++ ' ' :: '.' :: ' ' :: name.val.toList)
      (Writes Level.dot (.member record name.val)) := by
  have hmember := h.append ((prints_mark (c := '.') rfl).append (prints_name name))
  refine hmember.mono ?_
  rintro tokens ⟨before, _, rfl, ⟨hderives, hconverts⟩, _, _, rfl, ⟨dot, rfl, hdot⟩,
    token, rfl, hkind, hspelling⟩
  rw [← hspelling]
  refine ⟨.member hderives hdot hkind, ?_⟩
  rw [converts_append, List.singleton_append, converts_cons_of_mark hdot,
    converts_cons_of_identifier hkind]
  exact ⟨hconverts, converts_nil⟩

theorem prints_call (function : Identifier) {arguments : List Expr} {spelling : List Char}
    (h : Prints spelling (WritesAll arguments)) :
    Prints (function.val.toList ++ ' ' :: '(' :: ' ' :: spelling)
      (Writes Level.primary (.call function.val arguments)) := by
  have hcall := (prints_name function).append ((prints_mark (c := '(') rfl).append h)
  refine hcall.mono ?_
  rintro tokens ⟨_, _, rfl, ⟨name, rfl, hkind, hspelling⟩, _, _, rfl, ⟨opening, rfl, hopening⟩,
    inner, closing, rfl, hclosing, hinner⟩
  rw [← hspelling, List.singleton_append, List.singleton_append]
  unfold Writes
  rw [converts_cons_of_identifier hkind, converts_cons_of_mark hopening, converts_append,
    converts_cons_of_mark hclosing, and_iff_left converts_nil]
  rcases hinner with ⟨rfl, rfl⟩ | ⟨hderives, hconverts⟩
  · exact ⟨.emptyCall hkind hopening hclosing, converts_nil⟩
  · exact ⟨.call hkind hopening hderives hclosing, hconverts⟩

theorem prints_argument {t : Tree} (h : Prints t.spelling (Writes t.level t.expr)) :
    Prints t.spelling (Writes Level.lowest t.expr) :=
  h.mono fun _ hwritten => ⟨hwritten.1.mono t.level_bounds.1, hwritten.2⟩

theorem prints_lastArgument {e : Expr} {spelling : List Char}
    (h : Prints spelling (Writes Level.lowest e)) :
    Prints (spelling ++ [' ', ')']) (WritesAll [e]) := by
  refine (h.append (prints_mark (c := ')') rfl)).mono ?_
  rintro tokens ⟨before, _, rfl, ⟨hderives, hconverts⟩, closing, rfl, hclosing⟩
  exact ⟨before, closing, rfl, hclosing, Or.inr ⟨.single hderives, hconverts⟩⟩

theorem prints_laterArguments {e : Expr} {later : List Expr} {spelling behind : List Char}
    (h : Prints spelling (Writes Level.lowest e)) (hlater : Prints behind (WritesAll later))
    (hnonempty : later ≠ []) :
    Prints (spelling ++ ' ' :: ',' :: ' ' :: behind) (WritesAll (e :: later)) := by
  refine (h.append ((prints_mark (c := ',') rfl).append hlater)).mono ?_
  rintro tokens ⟨before, _, rfl, ⟨hderives, hconverts⟩, _, _, rfl, ⟨comma, rfl, hcomma⟩,
    inner, closing, rfl, hclosing, hinner⟩
  obtain ⟨hall, hallConverts⟩ := hinner.resolve_left fun hnone => hnonempty hnone.1
  refine ⟨before ++ comma :: inner, closing, by simp, hclosing,
    Or.inr ⟨.cons hderives hcomma hall, ?_⟩⟩
  rw [converts_append, converts_cons_of_mark hcomma]
  exact ⟨hconverts, hallConverts⟩

/-- A sign before an operand; both signs are printed alike. -/
theorem prints_signed {sign : Char} {e signed : Expr} {spelling : List Char}
    (h : Prints spelling (Writes Level.sign e))
    (hoperator : isOperator (String.ofList [sign]) = true)
    (hrule : ∀ token tokens, token.IsOperator (String.ofList [sign]) →
      Derives Level.sign e tokens → Derives Level.sign signed (token :: tokens)) :
    Prints (sign :: ' ' :: spelling) (Writes Level.sign signed) := by
  have hsign := prints_operator hoperator
  rw [String.toList_ofList] at hsign
  refine (hsign.append h).mono ?_
  rintro tokens ⟨_, behind, rfl, ⟨token, rfl, htoken⟩, hderives, hconverts⟩
  rw [List.singleton_append]
  exact ⟨hrule token behind htoken hderives, (converts_cons_of_operator htoken).mpr hconverts⟩

theorem prints_binary (joint : Joint) {left right : Expr} {first second : List Char}
    (hfirst : Prints first (Writes joint.level left))
    (hsecond : Prints second (Writes (joint.level + 1) right)) :
    Prints (first ++ ' ' :: (joint.spelling.toList ++ ' ' :: second))
      (Writes joint.level (.binary joint.operator left right)) := by
  have hbinary := hfirst.append ((prints_operator joint.joins.isOperator).append hsecond)
  refine hbinary.mono ?_
  rintro tokens ⟨before, _, rfl, ⟨hleft, hleftConverts⟩, _, behind, rfl, ⟨token, rfl, htoken⟩,
    hright, hrightConverts⟩
  rw [List.singleton_append]
  refine ⟨.binary joint.joins hleft htoken hright, ?_⟩
  rw [converts_append, converts_cons_of_operator htoken]
  exact ⟨hleftConverts, hrightConverts⟩

mutual

/-- A printed tree is cut into tokens that its expression derives. -/
theorem Tree.prints : (t : Tree) → Prints t.spelling (Writes t.level t.expr)
  | .literal l => l.prints
  | .column name => by
    refine (prints_name name).mono ?_
    rintro tokens ⟨token, rfl, hkind, hspelling⟩
    rw [Tree.expr, ← hspelling]
    exact ⟨.column hkind, (converts_cons_of_identifier hkind).mpr converts_nil⟩
  | .member record name =>
    prints_member (prints_operand record.prints (Nat.le_of_ble_eq_true rfl)) name
  | .call function arguments => prints_call function (prints_spellArguments arguments)
  | .negate operand =>
    prints_signed (prints_operand operand.prints (Nat.le_of_ble_eq_true rfl)) rfl
      fun _ _ => .negate
  | .not operand =>
    prints_signed (prints_operand operand.prints (Nat.le_of_ble_eq_true rfl)) rfl
      fun _ _ => .not
  | .binary joint left right =>
    have hlevel : joint.level < Level.primary :=
      Nat.lt_trans joint.joins.bounds.2 (Nat.le_of_ble_eq_true rfl)
    prints_binary joint (prints_operand left.prints (Nat.le_of_lt hlevel))
      (prints_operand right.prints hlevel)

theorem prints_spellArguments : (arguments : List Tree) →
    Prints (spellArguments arguments) (WritesAll (exprsOf arguments))
  | [] => by
    refine (prints_mark (c := ')') rfl).mono ?_
    rintro tokens ⟨closing, rfl, hclosing⟩
    exact ⟨[], closing, rfl, hclosing, Or.inl ⟨rfl, rfl⟩⟩
  | [t] => prints_lastArgument (prints_argument t.prints)
  | t :: second :: later =>
    prints_laterArguments (prints_argument t.prints) (prints_spellArguments (second :: later))
      (by simp [exprsOf])

end

end RecordQuery.Script

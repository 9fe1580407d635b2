import RecordQuery.Proofs.Script.Grammar
import RecordQuery.Proofs.Script.Reading

/-!
# The reader accepts exactly the grammar

An expression that derives tokens is read off any row of tokens that begins with them and does not
go on with an operator that binds tighter (`Derives.reads`), and whatever is read is derived
(`sound`).  Each rule of the grammar has a lemma on `Reads`, which says where the reader
stands once it has taken the tokens of an expression; the fuel it has left covers the rest.
-/

namespace RecordQuery.Script

/-! ## Levels of tokens -/

theorem levelOf_of_joins {level : Level} {operator : Operator} {spelling : String}
    (h : Joins level operator spelling) : levelOf spelling = level := by
  have htable := binaryOperator?_eq_some_iff.mpr h
  have hdot : spelling ≠ "." := by
    rintro rfl
    have hnone : binaryOperator? "." = none := by decide
    cases hnone.symm.trans htable
  rw [levelOf, if_neg hdot, htable]

theorem Token.IsOperator.level_eq {token : Token} {level : Level} {operator : Operator}
    {spelling : String} (h : token.IsOperator spelling) (hjoins : Joins level operator spelling) :
    token.level = level := by
  rw [Token.level, h.1, h.2]
  exact levelOf_of_joins hjoins

theorem Token.level_of_dot {token : Token} (h : token.isMark "." = true) :
    token.level = Level.dot := by
  obtain ⟨hkind, hspelling⟩ := Token.isMark_iff.mp h
  simp [Token.level, hkind, hspelling]

theorem Token.level_of_mark {token : Token} {mark : String} (h : token.isMark mark = true)
    (hmark : mark ≠ ".") : token.level = Level.lowest := by
  obtain ⟨hkind, hspelling⟩ := Token.isMark_iff.mp h
  simp [Token.level, hkind, hspelling, hmark]

theorem Token.kind_of_level {token : Token} (h : Level.lowest < token.level)
    (hdot : ¬ token.isMark "." = true) : token.kind = .operator := by
  unfold Token.level at h
  split at h
  · assumption
  · rename_i hkind
    split at h
    · rename_i hspelling
      exact absurd (Token.isMark_iff.mpr ⟨hkind, hspelling⟩) hdot
    · exact absurd h (Nat.lt_irrefl _)
  · exact absurd h (Nat.lt_irrefl _)

theorem Token.level_le_dot (token : Token) : token.level ≤ Level.dot := by
  unfold Token.level levelOf
  split
  · split
    · exact Nat.le_refl _
    · split
      · rename_i level operator htable
        exact Nat.le_of_lt (Nat.lt_trans (binaryOperator?_eq_some_iff.mp htable).bounds.2
          (Nat.lt_succ_self _))
      · exact Nat.le_of_ble_eq_true rfl
  · split
    · exact Nat.le_refl _
    · exact Nat.le_of_ble_eq_true rfl
  · exact Nat.le_of_ble_eq_true rfl

/-- The level at which tokens continue an expression. -/
def nextLevel : List Token → Level
  | token :: _ => token.level
  | [] => Level.lowest

/-- Whether an expression of a level ends before tokens. -/
structure Ends (level : Level) (rest : List Token) : Prop where
  /-- No operator binds tighter. -/
  level : nextLevel rest ≤ level
  /-- No column becomes a call. -/
  not_call : startsWithMark "(" rest = false

theorem Ends.mono {level higher : Level} {rest : List Token} (h : Ends level rest)
    (hlevel : level ≤ higher) : Ends higher rest :=
  ⟨Nat.le_trans h.level hlevel, h.not_call⟩

/-- Before a mark that neither opens a call nor is a dot every expression ends. -/
theorem ends_mark {token : Token} {mark : String} (h : token.isMark mark = true)
    (hdot : mark ≠ ".") (hopening : mark ≠ "(") {level : Level} (hlevel : Level.lowest ≤ level)
    (rest : List Token) : Ends level (token :: rest) := by
  refine ⟨?_, ?_⟩
  · change token.level ≤ level
    rw [Token.level_of_mark h hdot]
    exact hlevel
  · exact Token.isMark_eq_false_of_ne h hopening

/-! ## What the reader makes of tokens -/

/-- Whether the reader takes all binary operators of a level and above behind an operand. -/
def Takes (level bound : Level) : Prop :=
  level ≤ Level.sign ∧
    ∀ tighter operator spelling, Joins tighter operator spelling → bound ≤ tighter →
      level < tighter

/-- Whether reading tokens leaves an expression of a level to be continued with what is behind
them. -/
def Reads (bound : Level) (e : Expr) (tokens : List Token) : Prop :=
  ∀ (level : Level) (rest : List Token) (fuel : Nat), Takes level bound → Ends bound rest →
    2 * (tokens ++ rest).length ≤ fuel →
    ∃ later, 2 * rest.length + 1 ≤ later ∧
      readExpr true fuel level (tokens ++ rest) = readOperators true later level e rest

/-- Whether reading tokens up to a closing parenthesis gives arguments. -/
def ReadsAll (arguments : List Expr) (tokens : List Token) : Prop :=
  ∀ (closing : Token) (rest : List Token) (fuel : Nat), closing.isMark ")" = true →
    2 * (tokens ++ closing :: rest).length + 1 ≤ fuel →
    readArguments true fuel (tokens ++ closing :: rest) = .ok (arguments, rest)

theorem readOperators_of_nextLevel {level : Level} {rest : List Token} {fuel : Nat} (e : Expr)
    (hfuel : 0 < fuel) (hrest : nextLevel rest ≤ level) :
    readOperators true fuel level e rest = .ok (e, rest) := by
  obtain ⟨fuel, rfl⟩ : ∃ inner, fuel = inner + 1 := ⟨fuel - 1, by omega⟩
  cases rest with
  | nil => simp only [readOperators]
  | cons token rest =>
      have hlevel : ¬ level < token.level := Nat.not_lt_of_le hrest
      simp only [readOperators, if_neg hlevel]

theorem readExpr_of_readOperand {level : Level} {e : Expr} {tokens rest : List Token} {fuel : Nat}
    (h : readOperand true fuel tokens = .ok (e, rest)) :
    readExpr true (fuel + 1) level tokens = readOperators true fuel level e rest := by
  simp only [readExpr, h]

variable {bound : Level} {e : Expr} {tokens : List Token}

theorem Reads.whole (h : Reads bound e tokens) {level : Level} {rest : List Token} {fuel : Nat}
    (htakes : Takes level bound) (hends : Ends bound rest) (hrest : nextLevel rest ≤ level)
    (hfuel : 2 * (tokens ++ rest).length ≤ fuel) :
    readExpr true fuel level (tokens ++ rest) = .ok (e, rest) := by
  obtain ⟨later, hlater, hread⟩ := h level rest fuel htakes hends hfuel
  rw [hread, readOperators_of_nextLevel e (by omega) hrest]

theorem Reads.lift (h : Reads (bound + 1) e tokens) : Reads bound e tokens := by
  intro level rest fuel htakes hends hfuel
  refine h level rest fuel ⟨htakes.1, fun tighter operator spelling hjoins hbound => ?_⟩
    (hends.mono (Nat.le_succ _)) hfuel
  exact htakes.2 tighter operator spelling hjoins (Nat.le_of_succ_le hbound)

theorem reads_of_readOperand (hnonempty : tokens ≠ [])
    (h : ∀ rest fuel, Ends bound rest → 2 * (tokens ++ rest).length ≤ fuel + 1 →
      readOperand true fuel (tokens ++ rest) = .ok (e, rest)) : Reads bound e tokens := by
  intro level rest fuel _ hends hfuel
  have hpositive := List.length_pos_iff.mpr hnonempty
  rw [List.length_append] at hfuel
  obtain ⟨fuel, rfl⟩ : ∃ inner, fuel = inner + 1 := ⟨fuel - 1, by omega⟩
  refine ⟨fuel, by omega, readExpr_of_readOperand (h rest fuel hends ?_)⟩
  rw [List.length_append]
  exact hfuel

/-! ### Literals, columns, calls and groups -/

theorem reads_literal {token : Token} (hliteral : token.IsLiteral)
    (hconverts : token.IsNumeral → token.literal?.isSome = true) :
    Reads bound (.literal token.literalValue) [token] := by
  refine reads_of_readOperand (by simp) fun rest fuel _ hfuel => ?_
  obtain ⟨fuel, rfl⟩ : ∃ inner, fuel = inner + 1 :=
    ⟨fuel - 1, by simp only [List.length_append, List.length_singleton] at hfuel; omega⟩
  rw [List.singleton_append, readOperand]
  rcases hliteral with hnumeral | hkind | hkind
  · obtain ⟨value, hvalue⟩ := Option.isSome_iff_exists.mp (hconverts hnumeral)
    rw [Token.literalValue, hvalue]
    unfold Token.literal? at hvalue
    rcases hnumeral with hkind | hkind
    · simp only [hkind] at hvalue ⊢
      obtain ⟨n, hn, rfl⟩ := Option.map_eq_some_iff.mp hvalue
      simp only [hn, Option.getD_some]
    · simp only [hkind] at hvalue ⊢
      obtain ⟨x, hx, rfl⟩ := Option.map_eq_some_iff.mp hvalue
      simp only [hx, Option.getD_some]
  · simp only [hkind, Token.literalValue, Token.literal?, Option.getD_some]
  · simp only [hkind, Token.literalValue, Token.literal?, Option.getD_some]

theorem reads_column {token : Token} (hkind : token.kind = .identifier) :
    Reads bound (.column token.spelling) [token] := by
  refine reads_of_readOperand (by simp) fun rest fuel hends hfuel => ?_
  obtain ⟨fuel, rfl⟩ : ∃ inner, fuel = inner + 1 :=
    ⟨fuel - 1, by simp only [List.length_append, List.length_singleton] at hfuel; omega⟩
  simp only [List.singleton_append, readOperand, hkind, hends.not_call, Bool.false_eq_true,
    if_false, if_true]

theorem takes_lowest : Takes Level.lowest Level.lowest :=
  ⟨Nat.le_of_ble_eq_true rfl, fun _ _ _ hjoins _ => hjoins.bounds.1⟩

theorem takes_sign : Takes Level.sign Level.sign :=
  ⟨Nat.le_refl _, fun _ _ _ hjoins hbound =>
    absurd hjoins.bounds.2 (Nat.not_lt_of_le hbound)⟩

theorem Reads.before_mark (h : Reads Level.lowest e tokens) {token : Token} {mark : String}
    (hmark : token.isMark mark = true) (hdot : mark ≠ ".") (hopening : mark ≠ "(")
    (rest : List Token) {fuel : Nat} (hfuel : 2 * (tokens ++ token :: rest).length ≤ fuel) :
    readExpr true fuel Level.lowest (tokens ++ token :: rest) = .ok (e, token :: rest) :=
  have hends := ends_mark hmark hdot hopening (Nat.le_refl _) rest
  h.whole takes_lowest hends hends.level hfuel

theorem Reads.group (h : Reads Level.lowest e tokens) {opening closing : Token}
    (hopening : opening.isMark "(" = true) (hclosing : closing.isMark ")" = true) :
    Reads bound e (opening :: (tokens ++ [closing])) := by
  refine reads_of_readOperand (by simp) fun rest fuel _ hfuel => ?_
  simp only [List.cons_append, List.append_assoc, List.length_cons, List.nil_append] at hfuel ⊢
  obtain ⟨fuel, rfl⟩ : ∃ inner, fuel = inner + 1 := ⟨fuel - 1, by omega⟩
  have hcovered : 2 * (tokens ++ closing :: rest).length ≤ fuel := by omega
  have hinner := h.before_mark hclosing (by decide) (by decide) rest hcovered
  obtain ⟨hkind, hspelling⟩ := Token.isMark_iff.mp hopening
  simp only [readOperand, hkind, hspelling, if_true, hinner, Script.closing, hclosing]

theorem reads_emptyCall {name opening closing : Token} (hname : name.kind = .identifier)
    (hopening : opening.isMark "(" = true) (hclosing : closing.isMark ")" = true) :
    Reads bound (.call name.spelling []) [name, opening, closing] := by
  refine reads_of_readOperand (by simp) fun rest fuel _ hfuel => ?_
  simp only [List.cons_append, List.nil_append, List.length_cons] at hfuel ⊢
  obtain ⟨fuel, rfl⟩ : ∃ inner, fuel = inner + 2 := ⟨fuel - 2, by omega⟩
  simp [readOperand, readCall, hname, startsWithMark, hopening, hclosing]

theorem ReadsAll.call {arguments : List Expr} (h : ReadsAll arguments tokens)
    {name opening closing : Token} (hname : name.kind = .identifier)
    (hopening : opening.isMark "(" = true) (hclosing : closing.isMark ")" = true)
    (hbegins : ∀ rest, startsWithMark ")" (tokens ++ rest) = false) :
    Reads bound (.call name.spelling arguments) (name :: opening :: (tokens ++ [closing])) := by
  refine reads_of_readOperand (by simp) fun rest fuel _ hfuel => ?_
  simp only [List.cons_append, List.append_assoc, List.length_cons, List.nil_append] at hfuel ⊢
  obtain ⟨fuel, rfl⟩ : ∃ inner, fuel = inner + 2 := ⟨fuel - 2, by omega⟩
  have harguments := h closing rest fuel hclosing (by omega)
  have hcall (behind : List Token) : startsWithMark "(" (opening :: behind) = true := hopening
  simp only [readOperand, readCall, hname, hcall, if_true, List.drop_succ_cons, List.drop_zero,
    hbegins (closing :: rest), Bool.false_eq_true, if_false, harguments]

/-! ### Arguments -/

theorem Reads.single (h : Reads Level.lowest e tokens) : ReadsAll [e] tokens := by
  intro closing rest fuel hclosing hfuel
  obtain ⟨fuel, rfl⟩ : ∃ inner, fuel = inner + 1 := ⟨fuel - 1, by omega⟩
  have hcovered : 2 * (tokens ++ closing :: rest).length ≤ fuel := by omega
  have hread := h.before_mark hclosing (by decide) (by decide) rest hcovered
  have hcomma : startsWithMark "," (closing :: rest) = false :=
    Token.isMark_eq_false_of_ne hclosing (by decide)
  simp [readArguments, hread, hcomma, Script.closing, hclosing]

theorem Reads.cons (h : Reads Level.lowest e tokens) {arguments : List Expr} {comma : Token}
    {second : List Token} (hcomma : comma.isMark "," = true)
    (hlater : ReadsAll arguments second) :
    ReadsAll (e :: arguments) (tokens ++ comma :: second) := by
  intro closing rest fuel hclosing hfuel
  simp only [List.append_assoc, List.cons_append, List.length_append, List.length_cons]
    at hfuel ⊢
  obtain ⟨fuel, rfl⟩ : ∃ inner, fuel = inner + 1 := ⟨fuel - 1, by omega⟩
  have hcovered : 2 * (tokens ++ comma :: (second ++ closing :: rest)).length ≤ fuel := by
    simp only [List.length_append, List.length_cons]
    omega
  have hread := h.before_mark hcomma (by decide) (by decide) (second ++ closing :: rest) hcovered
  have harguments := hlater closing rest fuel hclosing
    (by simp only [List.length_append, List.length_cons]; omega)
  simp [readArguments, hread, startsWithMark, hcomma, harguments]

/-! ### Operators -/

theorem Reads.negate (h : Reads Level.sign e tokens) {token : Token}
    (htoken : token.IsOperator "-") : Reads Level.sign (.negate e) (token :: tokens) := by
  refine reads_of_readOperand (by simp) fun rest fuel hends hfuel => ?_
  rw [List.cons_append, List.length_cons] at hfuel
  obtain ⟨fuel, rfl⟩ : ∃ inner, fuel = inner + 1 := ⟨fuel - 1, by omega⟩
  have hcovered : 2 * (tokens ++ rest).length ≤ fuel := by omega
  have hread := h.whole takes_sign hends hends.level hcovered
  simp only [List.cons_append, readOperand, htoken.1, htoken.2, if_true, hread]

theorem Reads.not (h : Reads Level.sign e tokens) {token : Token}
    (htoken : token.IsOperator "!") : Reads Level.sign (.not e) (token :: tokens) := by
  refine reads_of_readOperand (by simp) fun rest fuel hends hfuel => ?_
  rw [List.cons_append, List.length_cons] at hfuel
  obtain ⟨fuel, rfl⟩ : ∃ inner, fuel = inner + 1 := ⟨fuel - 1, by omega⟩
  have hcovered : 2 * (tokens ++ rest).length ≤ fuel := by omega
  have hread := h.whole takes_sign hends hends.level hcovered
  have hminus : ("!" : String) ≠ "-" := by decide
  simp only [List.cons_append, readOperand, htoken.1, htoken.2, if_neg hminus, if_true, hread]

theorem Reads.member (h : Reads Level.dot e tokens) {dot name : Token}
    (hdot : dot.isMark "." = true) (hname : name.kind = .identifier) :
    Reads Level.dot (.member e name.spelling) (tokens ++ [dot, name]) := by
  intro level rest fuel htakes _ hfuel
  rw [List.append_assoc, List.cons_append, List.singleton_append] at hfuel ⊢
  have hends : Ends Level.dot (dot :: name :: rest) :=
    ⟨dot.level_le_dot, Token.isMark_eq_false_of_ne hdot (by decide)⟩
  obtain ⟨later, hlater, hread⟩ := h level (dot :: name :: rest) fuel htakes hends hfuel
  simp only [List.length_cons] at hlater
  obtain ⟨later, rfl⟩ : ∃ inner, later = inner + 1 := ⟨later - 1, by omega⟩
  refine ⟨later, by omega, ?_⟩
  have hlevel : level < dot.level := by
    rw [Token.level_of_dot hdot]
    exact Nat.lt_of_le_of_lt htakes.1 (Nat.lt_succ_self _)
  rw [hread]
  simp only [readOperators, if_pos hlevel, hdot, if_true, hname]

theorem Reads.binary (h : Reads bound e tokens) {operator : Operator} {spelling : String}
    {right : Expr} {token : Token} {second : List Token} (hjoins : Joins bound operator spelling)
    (htoken : token.IsOperator spelling) (hright : Reads (bound + 1) right second) :
    Reads bound (.binary operator e right) (tokens ++ token :: second) := by
  intro level rest fuel htakes hends hfuel
  rw [List.append_assoc, List.cons_append] at hfuel ⊢
  have hnot (mark : String) : token.isMark mark = false :=
    Token.isMark_eq_false_of_kind htoken.1 (by decide) mark
  have hlevel := htoken.level_eq hjoins
  obtain ⟨later, hlater, hread⟩ := h level (token :: (second ++ rest)) fuel htakes
    ⟨Nat.le_of_eq hlevel, hnot "("⟩ hfuel
  rw [List.length_cons] at hlater
  obtain ⟨later, rfl⟩ : ∃ inner, later = inner + 1 := ⟨later - 1, by omega⟩
  -- The right operand ends where an operator of the level or below it follows.
  have hoperand : readExpr true later bound (second ++ rest) = .ok (right, rest) := by
    refine hright.whole ⟨Nat.le_of_lt hjoins.bounds.2, fun _ _ _ _ hbound => hbound⟩
      (hends.mono (Nat.le_succ _)) hends.level (by omega)
  have htaken : level < token.level := by
    rw [hlevel]
    exact htakes.2 _ _ _ hjoins (Nat.le_refl _)
  have htable : binaryOperator? token.spelling = some (bound, operator) := by
    rw [htoken.2]
    exact binaryOperator?_eq_some_iff.mpr hjoins
  refine ⟨later, by rw [List.length_append] at hlater; omega, ?_⟩
  rw [hread]
  simp only [readOperators, if_pos htaken, hnot, Bool.false_eq_true, if_false, htable, hoperand]

/-! ## Derived tokens are read -/

/-- An expression has tokens, the first of which is no closing parenthesis. -/
theorem Derives.begins : {level : Level} → {e : Expr} → {tokens : List Token} →
    Derives level e tokens → ∃ token behind, tokens = token :: behind ∧ token.isMark ")" = false
  | _, _, _, .lift h => h.begins
  | _, _, _, .binary _ hleft _ _ => by
    obtain ⟨token, behind, rfl, htoken⟩ := hleft.begins
    exact ⟨token, _, rfl, htoken⟩
  | _, _, _, .member hrecord _ _ => by
    obtain ⟨token, behind, rfl, htoken⟩ := hrecord.begins
    exact ⟨token, _, rfl, htoken⟩
  | _, _, _, .negate htoken _ | _, _, _, .not htoken _ =>
    ⟨_, _, rfl, Token.isMark_eq_false_of_kind htoken.1 (by decide) _⟩
  | _, _, _, .literal hliteral => ⟨_, _, rfl, hliteral.isMark_eq_false _⟩
  | _, _, _, .column hname | _, _, _, .emptyCall hname _ _ | _, _, _, .call hname _ _ _ =>
    ⟨_, _, rfl, Token.isMark_eq_false_of_kind hname (by decide) _⟩
  | _, _, _, .group hopening _ _ =>
    ⟨_, _, rfl, Token.isMark_eq_false_of_ne hopening (by decide)⟩

theorem DerivesAll.not_closing {arguments : List Expr} {tokens : List Token}
    (h : DerivesAll arguments tokens) (rest : List Token) :
    startsWithMark ")" (tokens ++ rest) = false := by
  cases h with
  | single hfirst =>
      obtain ⟨token, behind, rfl, htoken⟩ := hfirst.begins
      exact htoken
  | cons hfirst _ _ =>
      obtain ⟨token, behind, rfl, htoken⟩ := hfirst.begins
      exact htoken

mutual

/-- An expression is read off the tokens that it derives, if their numerals stand for numbers. -/
theorem Derives.reads : {level : Level} → {e : Expr} → {tokens : List Token} →
    Derives level e tokens → Converts tokens → Reads level e tokens
  | _, _, _, .lift h, hconverts => (h.reads hconverts).lift
  | _, _, _, .binary hjoins hleft htoken hright, hconverts => by
    rw [converts_append, converts_cons] at hconverts
    exact (hleft.reads hconverts.1).binary hjoins htoken (hright.reads hconverts.2.2)
  | _, _, _, .negate htoken hoperand, hconverts =>
    (hoperand.reads (converts_cons.mp hconverts).2).negate htoken
  | _, _, _, .not htoken hoperand, hconverts =>
    (hoperand.reads (converts_cons.mp hconverts).2).not htoken
  | _, _, _, .member hrecord hdot hname, hconverts =>
    (hrecord.reads (converts_append.mp hconverts).1).member hdot hname
  | _, _, _, .literal hliteral, hconverts => reads_literal hliteral (converts_cons.mp hconverts).1
  | _, _, _, .column hkind, _ => reads_column hkind
  | _, _, _, .emptyCall hname hopening hclosing, _ => reads_emptyCall hname hopening hclosing
  | _, _, _, .call hname hopening harguments hclosing, hconverts => by
    rw [converts_cons, converts_cons, converts_append] at hconverts
    exact (harguments.reads hconverts.2.2.1).call hname hopening hclosing harguments.not_closing
  | _, _, _, .group hopening hinner hclosing, hconverts => by
    rw [converts_cons, converts_append] at hconverts
    exact (hinner.reads hconverts.2.1).group hopening hclosing

theorem DerivesAll.reads : {arguments : List Expr} → {tokens : List Token} →
    DerivesAll arguments tokens → Converts tokens → ReadsAll arguments tokens
  | _, _, .single h, hconverts => (h.reads hconverts).single
  | _, _, .cons h hcomma hlater, hconverts => by
    rw [converts_append, converts_cons] at hconverts
    exact (h.reads hconverts.1).cons hcomma (hlater.reads hconverts.2.2)

end

/-! ## What is read is derived -/

/-- The level of the expressions that are read for operators above a level: a sign comes before
operands of its own level. -/
def operandLevel (level : Level) : Level := min (level + 1) Level.sign

/-- Whether what lies before a rest of tokens is derived by an expression of a level. -/
def Spans (level : Level) (e : Expr) (tokens rest : List Token) : Prop :=
  ∃ used, tokens = used ++ rest ∧ Derives level e used ∧ Converts used

/-- Whether what lies before a closing parenthesis is derived by arguments. -/
def SpansAll (arguments : List Expr) (tokens rest : List Token) : Prop :=
  ∃ used closing, tokens = used ++ closing :: rest ∧ DerivesAll arguments used ∧
    closing.isMark ")" = true ∧ Converts used

/-- What the readers answer with a bound on their depth. -/
structure Sound (record : Bool) (fuel : Nat) : Prop where
  /-- Expressions are read up to where no operator above the level follows. -/
  expr : ∀ level tokens e rest, Level.lowest ≤ level → level ≤ Level.sign →
    readExpr record fuel level tokens = .ok (e, rest) →
      nextLevel rest ≤ level ∧ Spans (operandLevel level) e tokens rest
  /-- Operands bind as tight as signs, and no operator behind them binds tighter than they do. -/
  operand : ∀ tokens e rest, readOperand record fuel tokens = .ok (e, rest) →
    ∃ level, Level.sign ≤ level ∧ nextLevel rest ≤ level ∧ Spans level e tokens rest
  /-- Calls have no arguments or some. -/
  call : ∀ function tokens e rest, readCall record fuel function tokens = .ok (e, rest) →
    (∃ closing, tokens = closing :: rest ∧ closing.isMark ")" = true ∧ e = .call function []) ∨
      ∃ arguments, SpansAll arguments tokens rest ∧ e = .call function arguments
  /-- Arguments are read up to a closing parenthesis. -/
  arguments : ∀ tokens arguments rest, readArguments record fuel tokens = .ok (arguments, rest) →
    SpansAll arguments tokens rest
  /-- Operators are read behind an expression of a level that fits the next one. -/
  operators : ∀ level bound left whole tokens e rest, Level.lowest ≤ level →
    level ≤ Level.sign → operandLevel level ≤ bound → nextLevel tokens ≤ bound →
    Spans bound left whole tokens → readOperators record fuel level left tokens = .ok (e, rest) →
      nextLevel rest ≤ level ∧ Spans (operandLevel level) e whole rest

variable {record : Bool} {rest : List Token} {level : Level} {fuel : Nat}

theorem closing_eq_ok {mark : String} {later : List Token} (h : closing mark rest = .ok later) :
    ∃ token, rest = token :: later ∧ token.isMark mark = true := by
  unfold closing at h
  split at h
  · cases h
  · split at h
    · rename_i hmark
      cases h
      exact ⟨_, rfl, hmark⟩
    · split at h <;> cases h

theorem startsWithMark_iff {mark : String} :
    startsWithMark mark tokens = true ↔
      ∃ token behind, tokens = token :: behind ∧ token.isMark mark = true := by
  cases tokens with
  | nil => simp [startsWithMark]
  | cons token behind => simp [startsWithMark]

theorem spans_literal {token : Token} {value : Value} (hliteral : token.IsLiteral)
    (hvalue : token.literal? = some value) :
    Spans Level.primary (.literal value) (token :: rest) rest := by
  have hderives := Derives.literal hliteral
  rw [Token.literalValue, hvalue] at hderives
  exact ⟨[token], rfl, hderives, by simp [hvalue]⟩

theorem spans_column {token : Token} (hkind : token.kind = .identifier) :
    Spans Level.primary (.column token.spelling) (token :: rest) rest :=
  ⟨[token], rfl, .column hkind,
    (converts_cons_of_identifier hkind).mpr converts_nil⟩

theorem spans_emptyCall {name opening closing : Token} (hname : name.kind = .identifier)
    (hopening : opening.isMark "(" = true) (hclosing : closing.isMark ")" = true) :
    Spans Level.primary (.call name.spelling []) (name :: opening :: closing :: rest) rest := by
  refine ⟨[name, opening, closing], rfl, .emptyCall hname hopening hclosing, ?_⟩
  rw [converts_cons_of_identifier hname, converts_cons_of_mark hopening,
    converts_cons_of_mark hclosing]
  exact converts_nil

theorem SpansAll.call {arguments : List Expr} (h : SpansAll arguments tokens rest)
    {name opening : Token} (hname : name.kind = .identifier)
    (hopening : opening.isMark "(" = true) :
    Spans Level.primary (.call name.spelling arguments) (name :: opening :: tokens) rest := by
  obtain ⟨used, closing, rfl, hderives, hclosing, hconverts⟩ := h
  refine ⟨name :: opening :: (used ++ [closing]), by simp,
    .call hname hopening hderives hclosing, ?_⟩
  rw [converts_cons_of_identifier hname, converts_cons_of_mark hopening,
    converts_append, converts_cons_of_mark hclosing]
  exact ⟨hconverts, converts_nil⟩

theorem Spans.group {opening closing : Token} (h : Spans Level.lowest e tokens (closing :: rest))
    (hopening : opening.isMark "(" = true) (hclosing : closing.isMark ")" = true) :
    Spans Level.primary e (opening :: tokens) rest := by
  obtain ⟨used, rfl, hderives, hconverts⟩ := h
  refine ⟨opening :: (used ++ [closing]), by simp, .group hopening hderives hclosing, ?_⟩
  rw [converts_cons_of_mark hopening, converts_append, converts_cons_of_mark hclosing]
  exact ⟨hconverts, converts_nil⟩

theorem Spans.negate (h : Spans Level.sign e tokens rest) {token : Token}
    (htoken : token.IsOperator "-") : Spans Level.sign (.negate e) (token :: tokens) rest := by
  obtain ⟨used, rfl, hderives, hconverts⟩ := h
  exact ⟨token :: used, rfl, .negate htoken hderives,
    (converts_cons_of_operator htoken).mpr hconverts⟩

theorem Spans.not (h : Spans Level.sign e tokens rest) {token : Token}
    (htoken : token.IsOperator "!") : Spans Level.sign (.not e) (token :: tokens) rest := by
  obtain ⟨used, rfl, hderives, hconverts⟩ := h
  exact ⟨token :: used, rfl, .not htoken hderives,
    (converts_cons_of_operator htoken).mpr hconverts⟩

theorem Spans.member {owner : Expr} {dot name : Token}
    (h : Spans Level.dot owner tokens (dot :: name :: rest)) (hdot : dot.isMark "." = true)
    (hname : name.kind = .identifier) :
    Spans Level.dot (.member owner name.spelling) tokens rest := by
  obtain ⟨used, rfl, hderives, hconverts⟩ := h
  refine ⟨used ++ [dot, name], by simp, .member hderives hdot hname, ?_⟩
  rw [converts_append, converts_cons_of_mark hdot, converts_cons_of_identifier hname]
  exact ⟨hconverts, converts_nil⟩

theorem Spans.binary {left right : Expr} {token : Token} {between : List Token}
    {operator : Operator} {spelling : String} (h : Spans level left tokens (token :: between))
    (hjoins : Joins level operator spelling) (htoken : token.IsOperator spelling)
    (hright : Spans (level + 1) right between rest) :
    Spans level (.binary operator left right) tokens rest := by
  obtain ⟨first, rfl, hleftDerives, hleftConverts⟩ := h
  obtain ⟨second, rfl, hrightDerives, hrightConverts⟩ := hright
  refine ⟨first ++ token :: second, by simp, .binary hjoins hleftDerives htoken hrightDerives, ?_⟩
  rw [converts_append, converts_cons_of_operator htoken]
  exact ⟨hleftConverts, hrightConverts⟩

theorem nextLevel_le_dot (tokens : List Token) : nextLevel tokens ≤ Level.dot := by
  cases tokens with
  | nil => exact Nat.le_of_ble_eq_true rfl
  | cons token _ => exact token.level_le_dot

theorem nextLevel_le_primary (tokens : List Token) : nextLevel tokens ≤ Level.primary :=
  Nat.le_succ_of_le (nextLevel_le_dot tokens)

theorem operandLevel_le (level : Level) : operandLevel level ≤ Level.sign := Nat.min_le_right _ _

theorem Spans.mono (h : Spans level e tokens rest) {lower : Level} (hlower : lower ≤ level) :
    Spans lower e tokens rest := by
  obtain ⟨used, htokens, hderives, hconverts⟩ := h
  exact ⟨used, htokens, hderives.mono hlower, hconverts⟩

theorem sound_zero : Sound record 0 where
  expr _ _ _ _ _ _ h := by cases h
  operand _ _ _ h := by simp [readOperand] at h
  call _ _ _ _ h := by cases h
  arguments _ _ _ h := by cases h
  operators _ _ _ _ _ _ _ _ _ _ _ _ h := by simp [readOperators] at h

namespace Sound

theorem expr_succ (h : Sound record fuel) (hlowest : Level.lowest ≤ level)
    (hsign : level ≤ Level.sign)
    (hread : readExpr record (fuel + 1) level tokens = .ok (e, rest)) :
    nextLevel rest ≤ level ∧ Spans (operandLevel level) e tokens rest := by
  simp only [readExpr] at hread
  split at hread
  · cases hread
  · rename_i left between hleft
    obtain ⟨bound, hbound, hnext, hspans⟩ := h.operand _ _ _ hleft
    exact h.operators level bound left tokens between e rest hlowest hsign
      (Nat.le_trans (operandLevel_le level) hbound) hnext hspans hread

theorem sign (h : Sound record fuel) {operand : Expr}
    (hread : readExpr record fuel Level.sign tokens = .ok (operand, rest)) :
    nextLevel rest ≤ Level.sign ∧ Spans Level.sign operand tokens rest :=
  h.expr _ _ _ _ (Nat.le_of_ble_eq_true rfl) (Nat.le_refl _) hread

theorem lowest (h : Sound record fuel)
    (hread : readExpr record fuel Level.lowest tokens = .ok (e, rest)) :
    Spans Level.lowest e tokens rest :=
  (h.expr _ _ _ _ (Nat.le_refl _) (Nat.le_of_ble_eq_true rfl) hread).2.mono
    (Nat.le_of_ble_eq_true rfl)

theorem operand_succ (h : Sound record fuel)
    (hread : readOperand record (fuel + 1) tokens = .ok (e, rest)) :
    ∃ level, Level.sign ≤ level ∧ nextLevel rest ≤ level ∧ Spans level e tokens rest := by
  have hprimary (hspans : Spans Level.primary e tokens rest) :
      ∃ level, Level.sign ≤ level ∧ nextLevel rest ≤ level ∧ Spans level e tokens rest :=
    ⟨_, Nat.le_of_ble_eq_true rfl, nextLevel_le_primary rest, hspans⟩
  cases tokens with
  | nil => simp [readOperand] at hread
  | cons token behind =>
      simp only [readOperand] at hread
      split at hread
      · rename_i hkind
        split at hread <;> cases hread
        rename_i n hn
        exact hprimary (spans_literal (Or.inl (Or.inl hkind)) (by simp [Token.literal?, hkind, hn]))
      · rename_i hkind
        split at hread <;> cases hread
        rename_i x hx
        exact hprimary (spans_literal (Or.inl (Or.inr hkind)) (by simp [Token.literal?, hkind, hx]))
      · rename_i hkind
        cases hread
        exact hprimary (spans_literal (Or.inr (Or.inl hkind)) (by simp [Token.literal?, hkind]))
      · rename_i hkind
        cases hread
        exact hprimary (spans_literal (Or.inr (Or.inr hkind)) (by simp [Token.literal?, hkind]))
      · rename_i hkind
        split at hread
        · rename_i hopening
          obtain ⟨opening, inner, rfl, hopening⟩ := startsWithMark_iff.mp hopening
          rcases h.call _ _ _ _ hread with ⟨closing, hinner, hclosing, rfl⟩ |
            ⟨arguments, harguments, rfl⟩
          · obtain rfl : inner = closing :: rest := hinner
            exact hprimary (spans_emptyCall hkind hopening hclosing)
          · exact hprimary (harguments.call hkind hopening)
        · split at hread <;> cases hread
          exact hprimary (spans_column hkind)
      · rename_i hkind
        split at hread
        · -- A sign takes in the members behind its operand, so that the level is that of a sign.
          rename_i hminus
          split at hread <;> cases hread
          rename_i operand hoperand
          obtain ⟨hnext, hspans⟩ := h.sign hoperand
          exact ⟨_, Nat.le_refl _, hnext, hspans.negate ⟨hkind, hminus⟩⟩
        · split at hread
          · rename_i hnot
            split at hread <;> cases hread
            rename_i operand hoperand
            obtain ⟨hnext, hspans⟩ := h.sign hoperand
            exact ⟨_, Nat.le_refl _, hnext, hspans.not ⟨hkind, hnot⟩⟩
          · cases hread
      · rename_i hkind
        split at hread
        · rename_i hspelling
          split at hread
          · cases hread
          · rename_i inner between hinner
            split at hread <;> cases hread
            rename_i hbehind
            obtain ⟨closing, rfl, hclosing⟩ := closing_eq_ok hbehind
            exact hprimary ((h.lowest hinner).group (Token.isMark_iff.mpr ⟨hkind, hspelling⟩)
              hclosing)
        · cases hread
      · cases hread

theorem call_succ (h : Sound record fuel) {function : String}
    (hread : readCall record (fuel + 1) function tokens = .ok (e, rest)) :
    (∃ closing, tokens = closing :: rest ∧ closing.isMark ")" = true ∧ e = .call function []) ∨
      ∃ arguments, SpansAll arguments tokens rest ∧ e = .call function arguments := by
  simp only [readCall] at hread
  split at hread
  · rename_i hclosing
    obtain ⟨closing, behind, rfl, hclosing⟩ := startsWithMark_iff.mp hclosing
    cases hread
    exact Or.inl ⟨closing, rfl, hclosing, rfl⟩
  · split at hread
    · cases hread
    · rename_i arguments behind harguments
      cases hread
      exact Or.inr ⟨arguments, h.arguments _ _ _ harguments, rfl⟩

theorem arguments_succ (h : Sound record fuel) {arguments : List Expr}
    (hread : readArguments record (fuel + 1) tokens = .ok (arguments, rest)) :
    SpansAll arguments tokens rest := by
  simp only [readArguments] at hread
  split at hread
  · cases hread
  · rename_i argument between hargument
    obtain ⟨used, rfl, hderives, hconverts⟩ := h.lowest hargument
    split at hread
    · rename_i hcomma
      obtain ⟨comma, behind, rfl, hcomma⟩ := startsWithMark_iff.mp hcomma
      split at hread
      · cases hread
      · rename_i later last hlater
        cases hread
        obtain ⟨second, closing, hbehind, hsecond, hclosing, hsecondConverts⟩ :=
          h.arguments _ _ _ hlater
        obtain rfl : behind = second ++ closing :: rest := hbehind
        refine ⟨used ++ comma :: second, closing, by simp, .cons hderives hcomma hsecond,
          hclosing, ?_⟩
        rw [converts_append, converts_cons_of_mark hcomma]
        exact ⟨hconverts, hsecondConverts⟩
    · split at hread
      · cases hread
      · rename_i hbehind
        cases hread
        obtain ⟨closing, rfl, hclosing⟩ := closing_eq_ok hbehind
        exact ⟨used, closing, rfl, .single hderives, hclosing, hconverts⟩

theorem operators_succ (h : Sound record fuel) {bound : Level} {left : Expr} {whole : List Token}
    (hlowest : Level.lowest ≤ level) (hsign : level ≤ Level.sign)
    (hoperand : operandLevel level ≤ bound) (hnext : nextLevel tokens ≤ bound)
    (hleft : Spans bound left whole tokens)
    (hread : readOperators record (fuel + 1) level left tokens = .ok (e, rest)) :
    nextLevel rest ≤ level ∧ Spans (operandLevel level) e whole rest := by
  cases tokens with
  | nil =>
      simp only [readOperators, Except.ok.injEq, Prod.mk.injEq] at hread
      obtain ⟨rfl, rfl⟩ := hread
      exact ⟨hlowest, hleft.mono hoperand⟩
  | cons token behind =>
      simp only [readOperators] at hread
      split at hread
      · rename_i htaken
        split at hread
        · rename_i hdot
          split at hread
          · cases hread
          · rename_i name later
            split at hread
            · rename_i hname
              have hlevel : Level.dot ≤ bound := by
                rw [← Token.level_of_dot hdot]
                exact hnext
              exact h.operators level Level.dot _ _ later e rest hlowest hsign
                (Nat.le_succ_of_le (operandLevel_le level)) (nextLevel_le_dot later)
                ((hleft.mono hlevel).member hdot hname) hread
            · cases hread
        · rename_i hmark
          split at hread
          · cases hread
          · rename_i tighter operator htable
            split at hread
            · cases hread
            · rename_i right between hright
              have hjoins := binaryOperator?_eq_some_iff.mp htable
              have htoken : token.IsOperator token.spelling :=
                ⟨Token.kind_of_level (Nat.lt_of_le_of_lt hlowest htaken) hmark, rfl⟩
              have hlevel : token.level = tighter := htoken.level_eq hjoins
              rw [hlevel] at htaken
              -- The operator follows `left`, which binds at least as tightly as what comes next.
              have hbound : tighter ≤ bound := by
                rw [← hlevel]
                exact hnext
              obtain ⟨hlower, hupper⟩ := hjoins.bounds
              obtain ⟨hafter, hspans⟩ :=
                h.expr tighter _ _ _ (Nat.le_of_lt hlower) (Nat.le_of_lt hupper) hright
              have htighter : operandLevel tighter = tighter + 1 := Nat.min_eq_left hupper
              rw [htighter] at hspans
              exact h.operators level tighter _ _ between e rest hlowest hsign
                (Nat.le_trans (Nat.min_le_left _ _) htaken) hafter
                ((hleft.mono hbound).binary hjoins htoken hspans) hread
      · rename_i hstop
        cases hread
        exact ⟨Nat.le_of_not_lt hstop, hleft.mono hoperand⟩

end Sound

/-- Whatever a reader answers is derived from the tokens it takes. -/
theorem sound (record : Bool) (fuel : Nat) : Sound record fuel := by
  induction fuel with
  | zero => exact sound_zero
  | succ fuel ih =>
      exact
        { expr := fun _ _ _ _ hlowest hsign hread => ih.expr_succ hlowest hsign hread
          operand := fun _ _ _ hread => ih.operand_succ hread
          call := fun _ _ _ _ hread => ih.call_succ hread
          arguments := fun _ _ _ hread => ih.arguments_succ hread
          operators := fun _ _ _ _ _ _ _ hlowest hsign hoperand hnext hleft hread =>
            ih.operators_succ hlowest hsign hoperand hnext hleft hread }

/-! ## Whole scripts -/

/-- Whether a token is neither a piece that is no token nor the end of the text. -/
def Token.IsProper (token : Token) : Prop := token.fault? = none ∧ token.isFinish = false

theorem Token.isProper_of_kind {token : Token} {kind : TokenKind} (h : token.kind = kind)
    (hbad : ∀ fault, kind ≠ .bad fault) (hfinish : kind ≠ .finish) : token.IsProper := by
  subst h
  refine ⟨?_, by simpa [Token.isFinish] using hfinish⟩
  unfold Token.fault?
  split
  · rename_i fault hkind
    exact absurd hkind (hbad fault)
  · rfl

theorem Token.isProper_of_mark {token : Token} {mark : String} (h : token.isMark mark = true) :
    token.IsProper :=
  Token.isProper_of_kind (Token.isMark_iff.mp h).1 (by simp) (by simp)

theorem Token.IsLiteral.isProper {token : Token} (h : token.IsLiteral) : token.IsProper := by
  rcases h with (hkind | hkind) | hkind | hkind <;>
    exact Token.isProper_of_kind hkind (by simp) (by simp)

mutual

/-- Only proper tokens are derived. -/
theorem Derives.isProper : {level : Level} → {e : Expr} → {tokens : List Token} →
    Derives level e tokens → ∀ token ∈ tokens, token.IsProper
  | _, _, _, .lift h => h.isProper
  | _, _, _, .binary _ hleft htoken hright => by
    rw [List.forall_mem_append, List.forall_mem_cons]
    exact ⟨hleft.isProper, Token.isProper_of_kind htoken.1 (by simp) (by simp), hright.isProper⟩
  | _, _, _, .negate htoken hoperand => by
    rw [List.forall_mem_cons]
    exact ⟨Token.isProper_of_kind htoken.1 (by simp) (by simp), hoperand.isProper⟩
  | _, _, _, .not htoken hoperand => by
    rw [List.forall_mem_cons]
    exact ⟨Token.isProper_of_kind htoken.1 (by simp) (by simp), hoperand.isProper⟩
  | _, _, _, .member hrecord hdot hname => by
    rw [List.forall_mem_append, List.forall_mem_cons, List.forall_mem_singleton]
    exact ⟨hrecord.isProper, Token.isProper_of_mark hdot,
      Token.isProper_of_kind hname (by simp) (by simp)⟩
  | _, _, _, .literal hliteral => List.forall_mem_singleton.mpr hliteral.isProper
  | _, _, _, .column hkind =>
    List.forall_mem_singleton.mpr (Token.isProper_of_kind hkind (by simp) (by simp))
  | _, _, _, .emptyCall hname hopening hclosing => by
    rw [List.forall_mem_cons, List.forall_mem_cons, List.forall_mem_singleton]
    exact ⟨Token.isProper_of_kind hname (by simp) (by simp), Token.isProper_of_mark hopening,
      Token.isProper_of_mark hclosing⟩
  | _, _, _, .call hname hopening harguments hclosing => by
    rw [List.forall_mem_cons, List.forall_mem_cons, List.forall_mem_append,
      List.forall_mem_singleton]
    exact ⟨Token.isProper_of_kind hname (by simp) (by simp), Token.isProper_of_mark hopening,
      harguments.isProper, Token.isProper_of_mark hclosing⟩
  | _, _, _, .group hopening hinner hclosing => by
    rw [List.forall_mem_cons, List.forall_mem_append, List.forall_mem_singleton]
    exact ⟨Token.isProper_of_mark hopening, hinner.isProper, Token.isProper_of_mark hclosing⟩

theorem DerivesAll.isProper : {arguments : List Expr} → {tokens : List Token} →
    DerivesAll arguments tokens → ∀ token ∈ tokens, token.IsProper
  | _, _, .single h => h.isProper
  | _, _, .cons h hcomma hlater => by
    rw [List.forall_mem_append, List.forall_mem_cons]
    exact ⟨h.isProper, Token.isProper_of_mark hcomma, hlater.isProper⟩

end

variable {finish : Token}

/-- Tokens that an expression derives are read as this expression. -/
theorem ofTokens_of_derives (h : Derives Level.lowest e tokens) (hconverts : Converts tokens)
    (hfinish : finish.isFinish = true) : ofTokens true (tokens ++ [finish]) = .ok e := by
  have hkind : finish.kind = .finish := by simpa [Token.isFinish] using hfinish
  have hends : Ends Level.lowest [finish] :=
    ⟨by simp [nextLevel, Token.level, hkind],
      Token.isMark_eq_false_of_kind hkind (by decide) "("⟩
  have hread := (h.reads hconverts).whole takes_lowest hends hends.level
    (Nat.le_add_right (2 * (tokens ++ [finish]).length) 2)
  have hproper := h.isProper
  obtain ⟨first, behind, rfl, _⟩ := h.begins
  have hfirst : first.isFinish = false := (hproper first (List.mem_cons_self ..)).2
  unfold ofTokens
  simp only [List.cons_append] at hread ⊢
  rw [hfirst, hread]
  simp [hfinish]

/-- Tokens that are read as an expression are derived by it, and their numerals stand for
numbers. -/
theorem derives_of_ofTokens (hfinish : finish.isFinish = true)
    (hinner : ∀ token ∈ tokens, token.isFinish = false)
    (h : ofTokens true (tokens ++ [finish]) = .ok e) :
    Derives Level.lowest e tokens ∧ Converts tokens := by
  obtain ⟨rest, hread, hstop⟩ : ∃ rest,
      readExpr true (2 * (tokens ++ [finish]).length + 2) Level.lowest (tokens ++ [finish]) =
        .ok (e, rest) ∧ ∀ token behind, rest = token :: behind → token.isFinish = true := by
    unfold ofTokens at h
    split at h
    · cases h
    · split at h
      · cases h
      · split at h
        · cases h
        · rename_i expr rest hread
          split at h
          · cases h
            exact ⟨[], hread, fun _ _ hnil => by cases hnil⟩
          · split at h <;> cases h
            rename_i token behind hlast
            refine ⟨token :: behind, hread, fun other later heq => ?_⟩
            rw [← (List.cons.inj heq).1]
            exact hlast
  obtain ⟨used, htokens, hderives, hconverts⟩ := (sound true _).lowest hread
  -- Both rows of tokens are what lies before the first token that marks the end.
  have hbefore {row : List Token} (hrow : ∀ token ∈ row, token.isFinish = false)
      {behind : List Token} (hbehind : ∀ token later, behind = token :: later →
        token.isFinish = true) :
      (row ++ behind).takeWhile (fun token => !token.isFinish) = row := by
    rw [List.takeWhile_append_of_pos (by simpa using hrow)]
    cases behind with
    | nil => simp
    | cons token later => simp [hbehind token later rfl]
  have hused : used = tokens := by
    rw [← hbefore (fun token hmem => (hderives.isProper token hmem).2) hstop, ← htokens,
      hbefore hinner fun token later heq => (List.cons.inj heq).1 ▸ hfinish]
  exact hused ▸ ⟨hderives, hconverts⟩

end RecordQuery.Script

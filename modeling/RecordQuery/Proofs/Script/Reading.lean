import RecordQuery.Parse
import RecordQuery.Proofs.Script.Expr

/-!
# Reading scripts into expressions

The readers that run write operations as they go (`emitExpr` and so on).  The same scripts can be
read into expressions first (`readExpr` and so on), which is where the grammar is recognised.  Both
readings fail alike, and where they succeed the operations that are written are those of the
expression, behind the ones there were (`emits`).  So a script becomes the operations of its
expression (`emit_eq`).
-/

namespace RecordQuery.Script

/-! ## Expressions from tokens -/

/-- What a reader answers: an expression and the tokens behind it. -/
abbrev Reading := Except ParseError (Expr × List Token)

mutual

/-- An expression whose operators bind tighter than a level.  The first argument bounds the depth
of the reading. -/
def readExpr (record : Bool) : Nat → Level → List Token → Reading
  | 0, _, _ => .error unfinished
  | fuel + 1, level, tokens =>
    match readOperand record fuel tokens with
    | .error error => .error error
    | .ok (left, rest) => readOperators record fuel level left rest

/-- An operand: a literal, a column, a call, a sign with its operand, or a group. -/
def readOperand (record : Bool) : Nat → List Token → Reading
  | 0, _ => .error unfinished
  | _ + 1, [] => .error unfinished
  | fuel + 1, token :: rest =>
    match token.kind with
    | .integer =>
      match Decimal.readInt64 token.spelling.toList with
      | some n => .ok (.literal (.integer n), rest)
      | none => .error (failAt token .integerOutOfRange)
    | .float =>
      match Decimal.readFloat token.spelling.toList with
      | some x => .ok (.literal (.float x), rest)
      | none => .error (failAt token .invalidFloat)
    | .string => .ok (.literal (.text token.spelling), rest)
    | .keyword => .ok (.literal (keywordValue token.spelling), rest)
    | .identifier =>
      if startsWithMark "(" rest then readCall record fuel token.spelling (rest.drop 1)
      else if record then .ok (.column token.spelling, rest)
      else .error (failAt token .columnNeedsRecord)
    | .operator =>
      if token.spelling = "-" then
        match readExpr record fuel Level.sign rest with
        | .error error => .error error
        | .ok (operand, rest) => .ok (.negate operand, rest)
      else if token.spelling = "!" then
        match readExpr record fuel Level.sign rest with
        | .error error => .error error
        | .ok (operand, rest) => .ok (.not operand, rest)
      else .error (unexpected token)
    | .punctuator =>
      if token.spelling = "(" then
        match readExpr record fuel Level.lowest rest with
        | .error error => .error error
        | .ok (inner, rest) =>
          match closing ")" rest with
          | .error error => .error error
          | .ok rest => .ok (inner, rest)
      else .error (unexpected token)
    | _ => .error (unexpected token)

/-- The call of a function, from behind its opening parenthesis. -/
def readCall (record : Bool) : Nat → String → List Token → Reading
  | 0, _, _ => .error unfinished
  | fuel + 1, function, tokens =>
    if startsWithMark ")" tokens then .ok (.call function [], tokens.drop 1)
    else
      match readArguments record fuel tokens with
      | .error error => .error error
      | .ok (arguments, rest) => .ok (.call function arguments, rest)

/-- The arguments of a call up to its closing parenthesis. -/
def readArguments (record : Bool) :
    Nat → List Token → Except ParseError (List Expr × List Token)
  | 0, _ => .error unfinished
  | fuel + 1, tokens =>
    match readExpr record fuel Level.lowest tokens with
    | .error error => .error error
    | .ok (argument, rest) =>
      if startsWithMark "," rest then
        match readArguments record fuel (rest.drop 1) with
        | .error error => .error error
        | .ok (arguments, rest) => .ok (argument :: arguments, rest)
      else
        match closing ")" rest with
        | .error error => .error error
        | .ok rest => .ok ([argument], rest)

/-- The operators behind an operand that bind tighter than a level, with their right operands. -/
def readOperators (record : Bool) : Nat → Level → Expr → List Token → Reading
  | 0, _, _, _ => .error unfinished
  | _ + 1, _, left, [] => .ok (left, [])
  | fuel + 1, level, left, token :: rest =>
    if level < token.level then
      if token.isMark "." then
        match rest with
        | [] => .error unfinished
        | name :: rest =>
          if name.kind = .identifier then
            readOperators record fuel level (.member left name.spelling) rest
          else .error (unexpected name)
      else
        match binaryOperator? token.spelling with
        | none => .error (unexpected token)
        | some (tighter, operator) =>
          match readExpr record fuel tighter rest with
          | .error error => .error error
          | .ok (right, rest) =>
            readOperators record fuel level (.binary operator left right) rest
    else .ok (left, token :: rest)

end

/-- The expression that tokens stand for, all of them up to the one that marks the end. -/
def ofTokens (record : Bool) (tokens : List Token) : Except ParseError Expr :=
  match tokens with
  | [] => .error unfinished
  | first :: _ =>
    if first.isFinish then .error { fault := .emptyScript, position := first.position }
    else
      -- Every call reads a token or hands the tokens to a call that does.
      match readExpr record (2 * tokens.length + 2) Level.lowest tokens with
      | .error error => .error error
      | .ok (expr, rest) =>
        match rest with
        | [] => .ok expr
        | token :: _ => if token.isFinish then .ok expr else .error (unexpected token)

/-- The expression of a script; `record` says whether there is a record to read columns of. -/
def parse (record : Bool) (script : String) : Except ParseError Expr :=
  ofTokens record (tokenize script)

/-! ## The operations that are written -/

theorem push_eq_append (ops : Array Operation) (operation : Operation) :
    ops.push operation = ops ++ [operation] :=
  Array.ext' (by simp)

theorem append_append (ops : Array Operation) (first second : List Operation) :
    ops ++ first ++ second = ops ++ (first ++ second) :=
  Array.ext' (by simp)

/-- What is written for a reading, behind some operations. -/
def written (ops : Array Operation) (reading : Reading) : Emission :=
  reading.map fun (e, rest) => (ops ++ e.operations, rest)

/-- What is written for arguments, behind some operations, where `count` arguments went before. -/
def writtenAll (count : Nat) (ops : Array Operation)
    (reading : Except ParseError (List Expr × List Token)) :
    Except ParseError (Nat × Array Operation × List Token) :=
  reading.map fun (arguments, rest) =>
    (count + arguments.length, ops ++ operationsOfAll arguments, rest)

/-- Whether the readers of a depth write the operations of the expressions they stand for. -/
structure Emits (record : Bool) (fuel : Nat) : Prop where
  expr : ∀ level ops tokens,
    emitExpr record fuel level ops tokens = written ops (readExpr record fuel level tokens)
  operand : ∀ ops tokens,
    emitOperand record fuel ops tokens = written ops (readOperand record fuel tokens)
  call : ∀ function ops tokens,
    emitCall record fuel function ops tokens = written ops (readCall record fuel function tokens)
  arguments : ∀ count ops tokens, emitArguments record fuel count ops tokens =
    writtenAll count ops (readArguments record fuel tokens)
  /-- The left operand of an operator is written already. -/
  operators : ∀ level ops left tokens,
    emitOperators record fuel level (ops ++ Expr.operations left) tokens =
      written ops (readOperators record fuel level left tokens)

variable {record : Bool} {fuel : Nat}

theorem Emits.expr_succ (h : Emits record fuel) (level : Level) (ops : Array Operation)
    (tokens : List Token) :
    emitExpr record (fuel + 1) level ops tokens =
      written ops (readExpr record (fuel + 1) level tokens) := by
  rw [emitExpr, readExpr, h.operand]
  cases readOperand record fuel tokens with
  | error error => rfl
  | ok answer => exact h.operators level ops answer.1 answer.2

/-- An operator that is written behind its last operand. -/
theorem written_unary (h : Emits record fuel) (make : Expr → Expr) (operation : Operation)
    (hmake : ∀ e, (make e).operations = e.operations ++ [operation]) (level : Level)
    (ops : Array Operation) (tokens : List Token) :
    (match emitExpr record fuel level ops tokens with
      | .error error => .error error
      | .ok (ops, rest) => .ok (ops.push operation, rest)) =
      written ops (match readExpr record fuel level tokens with
        | .error error => .error error
        | .ok (operand, rest) => .ok (make operand, rest)) := by
  rw [h.expr]
  cases readExpr record fuel level tokens with
  | error error => rfl
  | ok answer => simp only [written, Except.map, hmake, push_eq_append, append_append]

theorem Emits.operand_succ (h : Emits record fuel) (ops : Array Operation) (tokens : List Token) :
    emitOperand record (fuel + 1) ops tokens =
      written ops (readOperand record (fuel + 1) tokens) := by
  cases tokens with
  | nil => rfl
  | cons token rest =>
      rw [emitOperand, readOperand]
      cases token.kind with
      | integer =>
          cases Decimal.readInt64 token.spelling.toList with
          | none => rfl
          | some n => exact congrArg (fun ops => Except.ok (ops, rest)) (push_eq_append ops _)
      | float =>
          cases Decimal.readFloat token.spelling.toList with
          | none => rfl
          | some x => exact congrArg (fun ops => Except.ok (ops, rest)) (push_eq_append ops _)
      | string => exact congrArg (fun ops => Except.ok (ops, rest)) (push_eq_append ops _)
      | keyword => exact congrArg (fun ops => Except.ok (ops, rest)) (push_eq_append ops _)
      | identifier =>
          simp only
          split
          · exact h.call token.spelling ops (rest.drop 1)
          · split <;> rfl
      | operator =>
          simp only
          split
          · exact written_unary h .negate _ (fun _ => rfl) Level.sign ops rest
          · split
            · exact written_unary h .not _ (fun _ => rfl) Level.sign ops rest
            · rfl
      | punctuator =>
          simp only
          split
          · rw [h.expr]
            cases readExpr record fuel Level.lowest rest with
            | error error => rfl
            | ok answer =>
                simp only [written, Except.map]
                cases closing ")" answer.2 <;> rfl
          · rfl
      | bad fault => rfl
      | finish => rfl

theorem Emits.call_succ (h : Emits record fuel) (function : String) (ops : Array Operation)
    (tokens : List Token) :
    emitCall record (fuel + 1) function ops tokens =
      written ops (readCall record (fuel + 1) function tokens) := by
  rw [emitCall, readCall]
  split
  · simp only [written, Except.map, Expr.operations, operationsOfAll, push_eq_append, append_append]
    rfl
  · rw [h.arguments]
    cases readArguments record fuel tokens with
    | error error => rfl
    | ok answer =>
        simp only [writtenAll, written, Except.map, Expr.operations, push_eq_append, append_append,
          Nat.zero_add]
        rfl

theorem Emits.arguments_succ (h : Emits record fuel) (count : Nat) (ops : Array Operation)
    (tokens : List Token) :
    emitArguments record (fuel + 1) count ops tokens =
      writtenAll count ops (readArguments record (fuel + 1) tokens) := by
  rw [emitArguments, readArguments, h.expr]
  cases readExpr record fuel Level.lowest tokens with
  | error error => rfl
  | ok answer =>
      obtain ⟨argument, rest⟩ := answer
      simp only [written, Except.map]
      split
      · rw [h.arguments]
        cases readArguments record fuel (rest.drop 1) with
        | error error => rfl
        | ok later =>
            simp only [writtenAll, Except.map, operationsOfAll, append_append, List.length_cons,
              Nat.add_assoc, Nat.add_comm 1]
      · cases closing ")" rest with
        | error error => rfl
        | ok rest =>
            simp only [writtenAll, Except.map, operationsOfAll, List.append_nil,
              List.length_singleton]

theorem Emits.operators_succ (h : Emits record fuel) (level : Level) (ops : Array Operation)
    (left : Expr) (tokens : List Token) :
    emitOperators record (fuel + 1) level (ops ++ left.operations) tokens =
      written ops (readOperators record (fuel + 1) level left tokens) := by
  cases tokens with
  | nil => rfl
  | cons token rest =>
      unfold emitOperators readOperators
      split
      · split
        · cases rest with
          | nil => rfl
          | cons name rest =>
              simp only
              split
              · -- The left operand is written already: the member step follows it, for the next
                -- operator.
                have hmember := h.operators level ops (.member left name.spelling) rest
                rwa [Expr.operations, ← append_append] at hmember
              · rfl
        · cases binaryOperator? token.spelling with
          | none => rfl
          | some entry =>
              obtain ⟨tighter, operator⟩ := entry
              simp only [h.expr]
              cases readExpr record fuel tighter rest with
              | error error => rfl
              | ok answer =>
                  obtain ⟨right, rest⟩ := answer
                  have hbinary := h.operators level ops (.binary operator left right) rest
                  rw [Expr.operations, ← List.append_assoc] at hbinary
                  simpa only [written, Except.map, push_eq_append, append_append] using hbinary
      · rfl

/-- The readers of every depth write the operations of the expressions they stand for. -/
theorem emits (record : Bool) (fuel : Nat) : Emits record fuel := by
  induction fuel with
  | zero =>
      exact ⟨fun _ _ _ => rfl, fun _ _ => rfl, fun _ _ _ => rfl, fun _ _ _ => rfl,
        fun _ _ _ _ => rfl⟩
  | succ fuel ih =>
      exact ⟨ih.expr_succ, ih.operand_succ, ih.call_succ, ih.arguments_succ, ih.operators_succ⟩

theorem emitTokens_eq (record : Bool) (tokens : List Token) :
    emitTokens record tokens = (ofTokens record tokens).map fun e => e.operations.toArray := by
  unfold emitTokens ofTokens
  cases tokens with
  | nil => rfl
  | cons first later =>
      simp only
      split
      · rfl
      · rw [(emits record _).expr]
        cases readExpr record (2 * (first :: later).length + 2) Level.lowest (first :: later) with
        | error error => rfl
        | ok answer =>
            obtain ⟨e, rest⟩ := answer
            have hempty : (#[] : Array Operation) ++ e.operations = e.operations.toArray :=
              Array.ext' (by simp)
            simp only [written, Except.map, hempty]
            cases rest with
            | nil => rfl
            | cons token rest =>
                simp only
                split <;> rfl

/-- A script becomes the operations of its expression, and fails where there is none. -/
theorem emit_eq (record : Bool) (script : String) :
    emit record script = (parse record script).map fun e => e.operations.toArray :=
  emitTokens_eq record (tokenize script)

/-- What the expression of a script gives. -/
def parsed : Except ParseError Expr → Parsed
  | .ok e => ⟨e.operations, .ok 1⟩
  | .error error => ⟨[], .error error⟩

theorem committed_emit (record : Bool) (script : String) :
    committed (emit record script) = parsed (parse record script) := by
  rw [emit_eq]
  cases parse record script <;> rfl

end RecordQuery.Script

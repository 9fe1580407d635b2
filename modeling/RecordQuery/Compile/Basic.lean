import RecordQuery.Compile.Operator
import RecordQuery.Snippet.Basic

/-!
# Compiling expressions

The operations of an expression are compiled one after the other.  They have to leave exactly one
value; its domain and the keywords of its searches belong to the result.
-/

namespace RecordQuery

/-- A compiled expression. -/
structure Compiled where
  program : Program
  /-- The domain of the program's value. -/
  range : Domain
  /-- The constants that positive searches look for, each once, in the order of their use. -/
  keywords : List String

namespace Compile

variable [Regexp.Matcher]

/-- Compiles one operation. -/
def Draft.add (draft : Draft) (scope : Scope) (index : Nat) (operation : Operation) :
    Except Error Draft :=
  let apply (draft : Draft) : Except Error Draft :=
    if operation.operator.acceptsArity operation.arity then
      draft.apply scope index operation.operator operation.arity.toNat
    else .error (.invalidArity index operation.operator operation.arity)
  match operation.operand with
  | none =>
    if operation.operator = .push then .error (.compile index .pushNeedsOperand)
    else apply draft
  | some operand =>
    match draft.pushOperand scope index operand with
    | .error error => .error error
    | .ok draft =>
      if operation.operator = .push then
        if operation.arity = 1 then .ok draft
        else .error (.invalidArity index .push operation.arity)
      else apply draft

/-- Compiles operations, the first of which has an index. -/
def Draft.addAll (draft : Draft) (scope : Scope) (index : Nat) :
    List Operation → Except Error Draft
  | [] => .ok draft
  | operation :: later =>
    match draft.add scope index operation with
    | .error error => .error error
    | .ok draft => draft.addAll scope (index + 1) later

/-- The compiled expression of a final draft; `last` is the index of the last operation. -/
def Draft.conclude (draft : Draft) (last : Nat) : Except Error Compiled :=
  match draft.slots with
  | [slot] =>
    (slot.requireValue last).map fun _ =>
      ⟨.ofOps draft.ops.toList, slot.domain, Snippet.distinct slot.keywords⟩
  | slots => .error (.unbalancedStack last slots.length)

end Compile

/-- Compiles the operations of an expression. -/
def compile [Regexp.Matcher] (source : Source) (vars : Variables) (operations : List Operation) :
    Except Error Compiled :=
  if operations.isEmpty then .error .emptyExpression
  else
    match Compile.Draft.start.addAll ⟨source, vars⟩ 0 operations with
    | .error error => .error error
    | .ok draft => draft.conclude (operations.length - 1)

end RecordQuery

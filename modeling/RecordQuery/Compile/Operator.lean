import RecordQuery.Compile.Column
import RecordQuery.Compile.Combination

/-!
# Compiling operators

Every operator takes the slots of its operands and makes the slot of its result.  Operations on
constants alone are computed.
-/

namespace RecordQuery.Compile

/-- Compiles `POP`.  A constant takes its step with it, and objects have none. -/
def Draft.discard (draft : Draft) (slot : Slot) : Draft :=
  match slot.content with
  | .table _ | .function _ | .column _ false => draft
  | _ => if slot.isConstant then draft.truncate slot.start else draft.emit .pop

/-! ## Calls and connectives -/

variable [Regexp.Matcher]

/-- Compiles the call of a target with arguments. -/
def Draft.call (draft : Draft) (scope : Scope) (index : Nat) (target : Slot)
    (arguments : List Slot) : Except Error Draft :=
  match target.content with
  | .function function =>
    match function.signature.checkCount arguments.length with
    | .error fault => .error (.compile index (.arity fault))
    | .ok () =>
      if maxCount < arguments.length then
        .error (.compile index (.tooManyArguments function.name))
      else
        match Slot.requireValues index arguments with
        | .error error => .error error
        | .ok () =>
          .ok ((draft.emit (.call function arguments.length)).pushResult scope.source
            (.ofDomain target.domain target.start)
            (arguments.all Slot.isConstant && function.isDeterministic))
  | _ => .error (.compile index (.notCallable target.describe))

/-- The keywords of the operands that a connective does not negate. -/
def connectedKeywords : Connective → List Slot → List String
  | .andNot, operands => (operands.take 1).flatMap (·.keywords)
  | _, operands => operands.flatMap (·.keywords)

/-- Compiles a connective of operands. -/
def Draft.connect (draft : Draft) (scope : Scope) (index : Nat) (operator : Operator)
    (connective : Connective) (operands : List Slot) : Except Error Draft :=
  match Slot.requireValues index operands with
  | .error error => .error error
  | .ok () =>
    if maxCount < operands.length then
      .error (.compile index (.tooManyOperands operator))
    else
      let start := (operands.head?.map (·.start)).getD draft.ops.size
      .ok ((draft.emit (.connect connective operands.length)).pushResult scope.source
        { Slot.ofDomain (.scalar .boolean) start with
          keywords := connectedKeywords connective operands }
        (operands.all Slot.isConstant))

/-! ## Signs -/

/-- Compiles `NOT`. -/
def Draft.invert (draft : Draft) (scope : Scope) (index : Nat) (operand : Slot) :
    Except Error Draft :=
  match operand.requireValue index with
  | .error error => .error error
  | .ok () =>
    .ok ((draft.emit .not).pushResult scope.source
      (.ofDomain (.scalar .boolean) operand.start) operand.isConstant)

/-- Refuses a domain without numbers. -/
def requireNumber (index : Nat) (domain : Domain) : Except Error Unit :=
  match domain.dataType? with
  | none | some .null => .ok ()
  | some type =>
    if type.isNumeric then .ok () else .error (.compile index (.cannotNegate domain))

/-- Compiles `NEGATE`. -/
def Draft.negate (draft : Draft) (scope : Scope) (index : Nat) (operand : Slot) :
    Except Error Draft :=
  match operand.requireValue index with
  | .error error => .error error
  | .ok () =>
    match requireNumber index operand.domain with
    | .error error => .error error
    | .ok () =>
      .ok ((draft.emit .negate).pushResult scope.source
        (.ofDomain operand.domain operand.start) operand.isConstant)

/-! ## Operators -/

/-- Compiles an operator of operands, which are the topmost slots and no longer in the draft. -/
def Draft.applyTo (draft : Draft) (scope : Scope) (index : Nat) (operator : Operator)
    (operands : List Slot) : Except Error Draft :=
  match operator, operands with
  | .pop, [slot] => .ok (draft.discard slot)
  | .getValue, [record, name] => draft.readColumn scope index record name
  | .not, [operand] => draft.invert scope index operand
  | .negate, [operand] => draft.negate scope index operand
  | .call, arguments =>
    match draft.slots with
    | target :: below => { draft with slots := below }.call scope index target arguments
    | [] => .error (.compile index (.notCallable "value"))
  | _, operands =>
    match operator.connective?, operator.binary?, operands with
    | some connective, _, operands =>
      draft.connect scope index operator connective operands
    | _, some operation, [left, right] =>
      draft.combine scope index operator operation left right
    | _, _, _ => .error (.compile index .pushNeedsOperand)

/-- The number of slots that an operator needs: a call takes its function besides its arguments. -/
def neededSlots (operator : Operator) (arity : Nat) : Nat :=
  if operator = .call then arity + 1 else arity

/-- Compiles an operator with an accepted arity. -/
def Draft.apply (draft : Draft) (scope : Scope) (index : Nat) (operator : Operator)
    (arity : Nat) : Except Error Draft :=
  let needed := neededSlots operator arity
  if (draft.slots.take needed).length < needed then
    .error (.stackUnderflow index operator needed draft.slots.length)
  else
    match takeTop draft.slots arity [] with
    | some (operands, below) =>
      { draft with slots := below }.applyTo scope index operator operands
    | none => .error (.stackUnderflow index operator needed draft.slots.length)

end RecordQuery.Compile

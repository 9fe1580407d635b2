import RecordQuery.Compile.Operand

/-!
# Compiling operations on two values

Both operands have to be values.  Beside records a constant integer becomes a reference to one, and
a constant pattern becomes part of its step.
-/

namespace RecordQuery.Compile

/-- Makes a constant integer a reference to a record of a table. -/
def Draft.asRecordOf (draft : Draft) (index : Nat) (table : TableId) (slot : Slot) :
    Except Error (Draft × Slot) :=
  match slot.constant with
  | some (.integer n) =>
    match (Value.integer n).coerce (.table table) with
    | .error fault => .error (.compile index (.coercion fault))
    | .ok record =>
      .ok ({ draft with ops := draft.ops.setIfInBounds slot.start (.load record) },
        { slot with constant := some record, domain := .table table })
  | _ => .ok (draft, slot)

/-- Makes a constant integer a reference to a record where it is compared with records. -/
def Draft.besideRecord (draft : Draft) (index : Nat) (domain : Domain) (slot : Slot) :
    Except Error (Draft × Slot) :=
  match domain with
  | .table table => draft.asRecordOf index table slot
  | _ => .ok (draft, slot)

/-- The operands of a comparison, each integer constant beside records made a record. -/
def Draft.comparedOperands (draft : Draft) (index : Nat) (left right : Slot) :
    Except Error (Draft × Slot × Slot) :=
  match draft.besideRecord index left.domain right with
  | .error error => .error error
  | .ok (draft, right) =>
    match draft.besideRecord index right.domain left with
    | .error error => .error error
    | .ok (draft, left) => .ok (draft, left, right)

/-- The domain of the result of an arithmetic operator. -/
def arithmeticRange (operator : Operator) (left right : Domain) : Domain :=
  match left.dataType?, right.dataType? with
  | some .integer, some .integer => .scalar .integer
  | some .text, some .text => if operator = .plus then .scalar .text else .any
  | some a, some b => if a.isNumeric && b.isNumeric then .scalar .float else .any
  | _, _ => .any

/-- The keywords of a search for the constant on its right, after those of its left operand; none
for other operations. -/
def searchedKeywords (operator : Operator) (left right : Slot) : List String :=
  match right.constant with
  | some (.text keyword) =>
    if operator.isTextSearch && !keyword.isEmpty then left.keywords ++ [keyword] else []
  | _ => []

/-- The draft with the step of an operation.  A constant pattern beside a value that is no constant
becomes part of the step. -/
def Draft.emitBinary [Regexp.Matcher] (draft : Draft) (index : Nat) (operation : Binary)
    (left right : Slot) : Except Error Draft :=
  match operation, right.constant with
  | .regexp, some (.text pattern) =>
    match Regexp.ofText? pattern with
    | none => .error (.compile index .invalidPattern)
    | some regexp =>
      if left.isConstant then .ok (draft.emit (.binary .regexp))
      else .ok ((draft.truncate right.start).emit (.matchesRegexp regexp))
  | _, _ => .ok (draft.emit (.binary operation))

/-- Compiles an operation on two values. -/
def Draft.combine [Regexp.Matcher] (draft : Draft) (scope : Scope) (index : Nat)
    (operator : Operator) (operation : Binary) (left right : Slot) : Except Error Draft :=
  match Slot.requireValues index [right, left] with
  | .error error => .error error
  | .ok () =>
    match (if operator.isComparison then draft.comparedOperands index left right
      else .ok (draft, left, right)) with
    | .error error => .error error
    | .ok (draft, left, right) =>
      match draft.emitBinary index operation left right with
      | .error error => .error error
      | .ok draft =>
        let domain :=
          if operator.isArithmetic then arithmeticRange operator left.domain right.domain
          else .scalar .boolean
        .ok (draft.pushResult scope.source
          { Slot.ofDomain domain left.start with
            keywords := searchedKeywords operator left right }
          (left.isConstant && right.isConstant))

end RecordQuery.Compile

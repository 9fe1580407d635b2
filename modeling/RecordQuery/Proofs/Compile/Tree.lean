import RecordQuery.Compile.Basic
import RecordQuery.Proofs.Program.Evaluation

/-!
# Expressions as trees

A list of operations in postfix order denotes a tree (`Tree.ofOperations?`), and a tree has a plain
evaluation (`Tree.eval`): operands from left to right, all of them, every operator applied to the
values of its operands.  Nothing is computed ahead of the evaluation and no two steps are joined.

Two rules of the language look at what is known of an operand before the evaluation, its `Static`
part: the name of a column is resolved as soon as the table of the record is known, and in a
comparison with records a constant integer stands for a reference to a record.
-/

namespace RecordQuery

open Compile (Scope)

/-- The operator of an operation on two values. -/
def Binary.operator : Binary → Operator
  | contains => .contains
  | startsWith => .startsWith
  | endsWith => .endsWith
  | regexp => .regexp
  | equal => .equal
  | notEqual => .notEqual
  | less => .less
  | greater => .greater
  | lessEqual => .lessEqual
  | greaterEqual => .greaterEqual
  | plus => .plus
  | minus => .minus
  | times => .times
  | divide => .divide
  | modulo => .modulo

theorem Binary.operator_of_binary? {operator : Operator} {operation : Binary}
    (h : operator.binary? = some operation) : operation.operator = operator := by
  cases operator <;> cases h <;> rfl

/-- An expression. -/
inductive Tree where
  | constant (cell : Cell)
  | variableAt (position : Nat)
  /-- A column of the record in variable 0. -/
  | column (column : ColumnRef)
  /-- A column, given as an object, of a record. -/
  | member (record : Tree) (column : ColumnRef)
  /-- A column, given by its name, of a record. -/
  | getValue (record name : Tree)
  | call (function : ScalarFunction) (arguments : List Tree)
  | connect (connective : Connective) (operands : List Tree)
  | not (operand : Tree)
  | negate (operand : Tree)
  | binary (operation : Binary) (left right : Tree)

/-! ## The tree of a list of operations -/

/-- What an operand on the stack of the reader is: a tree, or an object that only some operators
take. -/
inductive Item where
  | tree (tree : Tree)
  | column (column : ColumnRef)
  | table (table : TableRef)
  | function (function : ScalarFunction)

namespace Item

/-- The tree of an operand that stands for a value. -/
def tree? : Item → Option Tree
  | tree t => some t
  | column c => some (.column c)
  | table _ | function _ => none

/-- The item of an object. -/
def ofObject : ObjectRef → Item
  | .table t => table t
  | .column c => column c
  | .function f => function f

/-- The item of an operand. -/
def ofOperand? (source : Source) : Operand → Option Item
  | .variableAt position => some (tree (.variableAt position))
  | .constant cell => some (tree (.constant cell))
  | .object object => some (ofObject object)
  | .name name => (source.resolve name).toOption.map ofObject

end Item

/-- The tree of an operator and its operands; a call has its function before the arguments. -/
def Tree.combine? (operator : Operator) (operands : List Item) : Option Tree :=
  match operator, operands with
  | .getValue, [record, .column c] => record.tree?.map fun r => .member r c
  | .getValue, [record, name] =>
    match record.tree?, name.tree? with
    | some r, some n => some (.getValue r n)
    | _, _ => none
  | .call, .function f :: arguments => (arguments.mapM Item.tree?).map (.call f)
  | .not, [operand] => operand.tree?.map .not
  | .negate, [operand] => operand.tree?.map .negate
  | operator, operands =>
    match operator.connective?, operator.binary?, operands with
    | some connective, _, operands => (operands.mapM Item.tree?).map (.connect connective)
    | _, some operation, [left, right] =>
      match left.tree?, right.tree? with
      | some l, some r => some (.binary operation l r)
      | _, _ => none
    | _, _, _ => none

/-- The items after an operation, the top first: its operand is pushed, and an operator takes its
operands off the top. -/
def Item.afterOperation? (source : Source) (items : List Item) (operation : Operation) :
    Option (List Item) := do
  let items ←
    match operation.operand with
    | none => some items
    | some operand => (Item.ofOperand? source operand).map fun item => item :: items
  if operation.operator = .push then return items
  let needed := Compile.neededSlots operation.operator operation.arity.toNat
  if items.length < needed then none
  let tree ← Tree.combine? operation.operator (items.take needed).reverse
  return .tree tree :: items.drop needed

/-- The tree of a list of operations in postfix order. -/
def Tree.ofOperations? (source : Source) (operations : List Operation) : Option Tree :=
  match operations.foldlM (Item.afterOperation? source) [] with
  | some [item] => item.tree?
  | _ => none

/-! ## What is known before the evaluation -/

/-- What is known of a tree before it is evaluated. -/
structure Static where
  /-- The domain of its value. -/
  domain : Domain
  /-- Its value, if it is made of constants and has one. -/
  constant : Option Value

namespace Static

/-- What is known of a result of a declared domain; the value of a constant says more than the
domain of everything. -/
def ofResult (declared : Domain) : Option Value → Static
  | none => ⟨declared, none⟩
  | some value =>
    ⟨if declared = .any then .scalar value.dataType else declared, some value⟩

/-- The reference that a constant integer stands for beside records. -/
def referenceBeside? (domain : Domain) (static : Static) : Option Value :=
  match domain, static.constant with
  | .table table, some (.integer n) => ((Value.integer n).coerce (.table table)).toOption
  | _, _ => none

/-- What is known of an operand that is compared with one of a domain. -/
def beside (domain : Domain) (static : Static) : Static :=
  match static.referenceBeside? domain with
  | some record => ⟨domain, some record⟩
  | none => static

/-- The operands of an operation on two values as it takes them: in a comparison, a constant integer
beside records is the reference to one.  The right operand is looked at first. -/
def compared (operation : Binary) (left right : Static) : Static × Static :=
  if operation.operator.isComparison then
    let right := right.beside left.domain
    (left.beside right.domain, right)
  else (left, right)

/-- The values of the operands as an operation takes them. -/
def comparedValues (operation : Binary) (left right : Static) (l r : Value) : Value × Value :=
  if operation.operator.isComparison then
    ((left.referenceBeside? (right.beside left.domain).domain).getD l,
      (right.referenceBeside? left.domain).getD r)
  else (l, r)

/-- The domain of the result of an operation on two values. -/
def rangeOf (operation : Binary) (left right : Static) : Domain :=
  if operation.operator.isArithmetic then
    Compile.arithmeticRange operation.operator left.domain right.domain
  else .scalar .boolean

/-- The column that a name stands for, if that is known. -/
def columnOf? (source : Source) (record name : Static) : Option ColumnRef :=
  match record.domain, name.constant with
  | .table table, some (.text columnName) => (source.column table columnName).toOption
  | _, _ => none

end Static

variable [Regexp.Matcher]

mutual

/-- What is known of a tree before it is evaluated. -/
def Tree.static (scope : Scope) : Tree → Static
  | .constant cell => ⟨Compile.constantDomain cell, some cell.value⟩
  | .variableAt position => ⟨(scope.vars.domain? position).getD .any, none⟩
  | .column c => ⟨c.range, none⟩
  | .member _ c => ⟨c.range, none⟩
  | .getValue record name =>
    match (record.static scope).columnOf? scope.source (name.static scope) with
    | some c => ⟨c.range, none⟩
    | none => ⟨.any, none⟩
  | .call f arguments =>
    .ofResult f.range
      (if f.isDeterministic then
        (staticConstants scope arguments).bind fun values => (f.evaluate values).toOption
      else none)
  | .connect connective operands =>
    .ofResult (.scalar .boolean)
      ((staticConstants scope operands).map fun values => .boolean (connective.holds values))
  | .not operand =>
    .ofResult (.scalar .boolean)
      ((operand.static scope).constant.map fun value => .boolean !value.isTruthy)
  | .negate operand =>
    .ofResult (operand.static scope).domain
      ((operand.static scope).constant.bind fun value => value.negate.toOption)
  | .binary operation left right =>
    let (l, r) := Static.compared operation (left.static scope) (right.static scope)
    .ofResult (l.rangeOf operation r)
      (l.constant.bind fun x => r.constant.bind fun y => (operation.apply x y).toOption)

/-- The values of trees that are all constants. -/
def staticConstants (scope : Scope) : List Tree → Option (List Value)
  | [] => some []
  | tree :: later =>
    (tree.static scope).constant.bind fun value =>
      (staticConstants scope later).map fun values => value :: values

end

/-! ## Plain evaluation -/

mutual

/-- The evaluation of a tree. -/
def Tree.eval (scope : Scope) (env : Environment) : Tree → Evaluation Value
  | .constant cell => .pure cell.value
  | .variableAt position => .ofExcept (env.variable position)
  | .column c =>
    (Evaluation.ofExcept (env.variable 0)).bind fun record => .readColumn env.source record c
  | .member record c =>
    (record.eval scope env).bind fun r => .readColumn env.source r c
  | .getValue record name =>
    match (record.static scope).columnOf? scope.source (name.static scope) with
    | some c => (record.eval scope env).bind fun r => .readColumn env.source r c
    | none =>
      (record.eval scope env).bind fun r =>
        (name.eval scope env).bind fun n => .readNamed env.source r n
  | .call f arguments =>
    (evalAll scope env arguments).bind fun values => .ofExcept (f.evaluate values)
  | .connect connective operands =>
    (evalAll scope env operands).bind fun values => .pure (.boolean (connective.holds values))
  | .not operand =>
    (operand.eval scope env).bind fun value => .pure (.boolean !value.isTruthy)
  | .negate operand => (operand.eval scope env).bind fun value => .ofExcept value.negate
  | .binary operation left right =>
    (left.eval scope env).bind fun l =>
      (right.eval scope env).bind fun r =>
        let (x, y) :=
          Static.comparedValues operation (left.static scope) (right.static scope) l r
        .ofExcept (operation.apply x y)

/-- The evaluations of trees one after the other. -/
def evalAll (scope : Scope) (env : Environment) : List Tree → Evaluation (List Value)
  | [] => .pure []
  | tree :: later =>
    (tree.eval scope env).bind fun value =>
      (evalAll scope env later).map fun values => value :: values

end

end RecordQuery

import RecordQuery.Expression.Execution

/-!
# Conditions

Conditions on the records of a table, made of comparisons of columns with values and of queries, and
the expressions built from them.
-/

namespace RecordQuery

/-- A condition on a record. -/
inductive Condition where
  /-- An operator applied to a column and a value. -/
  | comparison (operator : Operator) (column : String) (value : Value)
  /-- A text that the expression parses. -/
  | query (text : String) (options : ParseOptions)
  /-- All members hold. -/
  | all (members : List Condition)
  /-- Some member holds. -/
  | any (members : List Condition)

namespace Condition

/-- Whether the condition is a set without members, which adds nothing to an expression. -/
def isEmpty : Condition → Bool
  | all members | any members => members.isEmpty
  | _ => false

/-- Both conditions; a set of conditions that all hold takes the second one in. -/
def and : Condition → Condition → Condition
  | all members, other => all (members ++ [other])
  | left, other => all [left, other]

/-- One of the conditions; a set of which some hold takes the second one in. -/
def or : Condition → Condition → Condition
  | any members, other => any (members ++ [other])
  | left, other => any [left, other]

/-- The operations that apply an operator to a column and a value. -/
def comparisonOperations (operator : Operator) (column : String) (value : Value) :
    List Operation :=
  Operation.readPath [column] ++ [.pushValue value, .apply operator 2]

/-- Adds what joins the members of a set; an empty set adds nothing. -/
def joinMembers (operator : Operator) (count : Nat) (e : Expression) : Except Error Expression :=
  if count = 0 then .ok e else e.appendOperation operator count

mutual

/-- Adds a condition to an expression. -/
def addTo : Condition → Expression → Except Error Expression
  | comparison operator column value, e =>
    e.appendAll (comparisonOperations operator column value)
  | query text options, e =>
    match e.parse text options with
    | (_, .error error) => .error error
    | (e, .ok ()) => .ok e
  | all members, e =>
    match addMembersTo members e with
    | .error error => .error error
    | .ok e => joinMembers .and members.length e
  | any members, e =>
    match addMembersTo members e with
    | .error error => .error error
    | .ok e => joinMembers .or members.length e

/-- Adds conditions one after the other. -/
def addMembersTo : List Condition → Expression → Except Error Expression
  | [], e => .ok e
  | member :: later, e =>
    match member.addTo e with
    | .error error => .error error
    | .ok e => addMembersTo later e

end

/-- The operations of a condition that always holds. -/
def alwaysOperations : List Operation :=
  [.pushValue (.integer 1), .pushValue (.integer 1), .apply .or 2]

/-- The compiled expression on the records of a table for a condition; without one, or for an empty
set, it always holds. -/
def toExpression [Regexp.Matcher] (source : Source) (name : Option String) (table : TableId)
    (condition : Option Condition) : Except Error Expression :=
  match (Expression.empty name).defineVariable none (.table table) with
  | .error error => .error error
  | .ok e =>
    let built :=
      match condition with
      | some condition =>
        if condition.isEmpty then e.appendAll alwaysOperations else condition.addTo e
      | none => e.appendAll alwaysOperations
    match built with
    | .error error => .error error
    | .ok e => e.compile source

/-- A query together with a condition, either of which may be missing. -/
def combine : Option Condition → Option Condition → Option Condition
  | some first, some second => some (first.and second)
  | some first, none => some first
  | none, second => second

end Condition

/-! ## Builders -/

/-- Builds expressions on the records of a table. -/
structure RecordBuilder where
  table : TableId
  /-- The name of the expressions. -/
  name : Option String := none
  /-- The query that every expression contains. -/
  query : Option Condition := none

/-- Builds comparisons of a column and expressions on the records of its table. -/
structure ColumnBuilder where
  column : ColumnRef
  /-- The name of the expressions. -/
  name : Option String := none
  /-- The query that every expression contains. -/
  query : Option Condition := none

namespace ColumnBuilder

/-- The name of the column in its table: what follows the last dot of its full name. -/
def localName (builder : ColumnBuilder) : String := Text.afterLastDot builder.column.name

/-- A value to compare the column with: beside records an integer names a record. -/
def comparand (builder : ColumnBuilder) (value : Value) : Value :=
  match builder.column.range, value with
  | .table table, .integer n =>
    match (Value.integer n).toRecordOf table with
    | .ok record => record
    | .error _ => .integer n
  | _, value => value

/-- The comparison of the column with a value. -/
def compare (builder : ColumnBuilder) (operator : Operator) (value : Value) : Condition :=
  .comparison operator builder.localName (builder.comparand value)

/-- The query that looks for bare terms in the column. -/
def matchQuery (builder : ColumnBuilder) (text : String) : Condition :=
  .query text { defaultColumn := some builder.localName }

/-- The builder whose expressions contain a query on the column. -/
def withQuery (builder : ColumnBuilder) (text : String) : ColumnBuilder :=
  { builder with query := some (builder.matchQuery text) }

/-- The compiled expression of a condition. -/
def build [Regexp.Matcher] (builder : ColumnBuilder) (source : Source)
    (condition : Option Condition) : Except Error Expression :=
  Condition.toExpression source builder.name builder.column.table
    (Condition.combine builder.query condition)

end ColumnBuilder

namespace RecordBuilder

/-- The builder for a column of the table. -/
def column (builder : RecordBuilder) (source : Source) (name : String) :
    Except Error ColumnBuilder :=
  match source.column builder.table name with
  | .ok column => .ok { column := column }
  | .error status =>
    let table := (source.tableName? builder.table).getD builder.table.describe
    .error (.invalidArgument (.unknownColumn name table status.message))

/-- The query that looks for bare terms in an optional column. -/
def matchQuery (text : String) (column : Option String) : Condition :=
  .query text { defaultColumn := column }

/-- The builder whose expressions contain a query. -/
def withQuery (builder : RecordBuilder) (text : String) (options : ParseOptions) :
    RecordBuilder :=
  { builder with query := some (.query text options) }

/-- The compiled expression of a condition. -/
def build [Regexp.Matcher] (builder : RecordBuilder) (source : Source)
    (condition : Option Condition) : Except Error Expression :=
  Condition.toExpression source builder.name builder.table
    (Condition.combine builder.query condition)

end RecordBuilder

end RecordQuery

import RecordQuery.Condition
import RecordQuery.Proofs.Compile.Context

/-!
# What conditions mean

A condition has a meaning on a record that is defined along its structure (`Condition.meaning`): a
comparison applies its operator to the value of the column and to its constant, a query means what
it answers as an expression of its own, and a set is the conjunction or disjunction of the truths of
its members, all of which are evaluated.

How the members of a set are nested is of no account: a set means the same when the members of its
own kind give way to their members (`Condition.meaning_flattened`), and this is all that `and` and
`or` may differ in from a set of two (`Condition.flattened_and`, `Condition.flattened_or`).
-/

namespace RecordQuery

/-- What the program of an expression answers when it is run with arguments, whether or not this can
be kept as the result. -/
def Expression.answer [Regexp.Matcher] (e : Expression) (source : Source) (arguments : List Value) :
    Except Error Value :=
  match e.compiled with
  | none => .error (.invalidState .execute e.stage)
  | some compiled =>
    match bindArguments e.vars arguments with
    | .error error => .error error
    | .ok vars => (Machine.run ⟨source, some vars⟩ compiled.program).result

/-- An expression without operations whose variable 0 is for records of a table. -/
def Expression.onRecords (name : Option String) (table : TableId) : Expression :=
  { empty name with vars := Variables.empty.define none (.table table) }

namespace Condition

/-! ## Meanings -/

/-- What an operator answers for the value of a column and a constant.  In a comparison with a
column of records a constant integer names a record, and `GET_VALUE` looks for the column that the
constant names in the table of these records, if they are all of one. -/
def applied [Regexp.Matcher] (source : Source) (operator : Operator) (column : ColumnRef)
    (held constant : Value) : Except Error Value :=
  match operator.connective?, operator.binary? with
  | some connective, _ => .ok (.boolean (connective.holds [held, constant]))
  | none, some operation =>
    operation.apply held
      (if operator.isComparison then ({ column := column } : ColumnBuilder).comparand constant
        else constant)
  | none, none =>
    match (⟨column.range, none⟩ : Static).columnOf? source ⟨.any, some constant⟩ with
    | some next => (Machine.readColumn source held next).map Prod.fst
    | none => (Evaluation.readNamed source held constant).answer

mutual

/-- What a condition means on a record. -/
def meaning [Regexp.Matcher] (source : Source) (record : RecordRef) : Condition → Except Error Value
  | comparison operator name constant =>
    match source.column record.table name with
    | .error status => .error (.store .runtime status)
    | .ok column =>
      (Machine.readColumn source (.record record) column).bind fun (held, _) =>
        applied source operator column held constant
  | query text options =>
    match (Expression.onRecords none record.table).parse text options with
    | (_, .error error) => .error error
    | (parsed, .ok ()) =>
      (parsed.compile source).bind fun e => e.answer source [.record record]
  | all members =>
    (meanings source record members).map fun values => .boolean (values.all Value.isTruthy)
  | any members =>
    (meanings source record members).map fun values => .boolean (values.any Value.isTruthy)

/-- What conditions mean on a record, all of them in order. -/
def meanings [Regexp.Matcher] (source : Source) (record : RecordRef) :
    List Condition → Except Error (List Value)
  | [] => .ok []
  | member :: later =>
    (member.meaning source record).bind fun value =>
      (meanings source record later).map fun values => value :: values

end

/-! ## Nested members -/

mutual

/-- A condition in whose sets all members of the same kind have given way to their members. -/
def flattened : Condition → Condition
  | comparison operator name constant => comparison operator name constant
  | query text options => query text options
  | all members => all (conjuncts members)
  | any members => any (disjuncts members)

/-- Members of which all hold, without sets of that kind among them. -/
def conjuncts : List Condition → List Condition
  | [] => []
  | member :: later =>
    (match member.flattened with
      | all inner => inner
      | other => [other]) ++ conjuncts later

/-- Members of which some hold, without sets of that kind among them. -/
def disjuncts : List Condition → List Condition
  | [] => []
  | member :: later =>
    (match member.flattened with
      | any inner => inner
      | other => [other]) ++ disjuncts later

end

section Nesting

variable [Regexp.Matcher] {source : Source} {record : RecordRef}

theorem meanings_append (first later : List Condition) :
    meanings source record (first ++ later) =
      (meanings source record first).bind fun values =>
        (meanings source record later).map fun others => values ++ others := by
  induction first with
  | nil =>
      simp only [List.nil_append, meanings, Except.bind]
      cases meanings source record later <;> rfl
  | cons member first ih =>
      simp only [List.cons_append, meanings, ih]
      cases member.meaning source record with
      | error error => rfl
      | ok value =>
          cases meanings source record first with
          | error error => rfl
          | ok values => cases meanings source record later <;> rfl

/-- Whether the truth of values in a row is made of the truths of parts of the row. -/
structure Gathers (holds : List Value → Bool) (join : Bool → Bool → Bool) : Prop where
  /-- The truth of one value. -/
  single : ∀ value, holds [value] = value.isTruthy
  /-- The truth of two rows. -/
  append : ∀ values others, holds (values ++ others) = join (holds values) (holds others)

omit [Regexp.Matcher] in
theorem gathers_all : Gathers (·.all Value.isTruthy) Bool.and :=
  ⟨fun _ => by simp, fun _ _ => List.all_append⟩

omit [Regexp.Matcher] in
theorem gathers_any : Gathers (·.any Value.isTruthy) Bool.or :=
  ⟨fun _ => by simp, fun _ _ => List.any_append⟩

section Gathering

variable {holds : List Value → Bool} {join : Bool → Bool → Bool}

theorem Gathers.truth_append (h : Gathers holds join) (first later : List Condition) :
    (meanings source record (first ++ later)).map holds =
      ((meanings source record first).map holds).bind fun truth =>
        ((meanings source record later).map holds).map (join truth) := by
  rw [meanings_append]
  cases meanings source record first with
  | error error => rfl
  | ok values =>
      cases meanings source record later with
      | error error => rfl
      | ok others => exact congrArg Except.ok (h.append values others)

theorem Gathers.truth_single (h : Gathers holds join) (member : Condition) :
    (meanings source record [member]).map holds =
      (member.meaning source record).map Value.isTruthy := by
  simp only [meanings]
  cases member.meaning source record with
  | error error => rfl
  | ok value => exact congrArg Except.ok (h.single value)

/-- Members may give way to conditions with the same truth. -/
theorem Gathers.truth_cons (h : Gathers holds join) {member : Condition}
    {inner later flat : List Condition}
    (hmember : (meanings source record inner).map holds =
      (member.meaning source record).map Value.isTruthy)
    (hlater : (meanings source record flat).map holds = (meanings source record later).map holds) :
    (meanings source record (inner ++ flat)).map holds =
      (meanings source record (member :: later)).map holds := by
  have hfirst : (meanings source record inner).map holds =
      (meanings source record [member]).map holds := hmember.trans (h.truth_single member).symm
  calc (meanings source record (inner ++ flat)).map holds
      = ((meanings source record inner).map holds).bind fun truth =>
          ((meanings source record flat).map holds).map (join truth) := h.truth_append inner flat
    _ = ((meanings source record [member]).map holds).bind fun truth =>
          ((meanings source record later).map holds).map (join truth) := by rw [hfirst, hlater]
    _ = (meanings source record ([member] ++ later)).map holds :=
        (h.truth_append [member] later).symm

/-- The truth of a set is the truth that its members have together. -/
theorem truth_set (members : List Condition) :
    ((meanings source record members).map fun values => Value.boolean (holds values)).map
        Value.isTruthy =
      (meanings source record members).map holds := by
  cases meanings source record members <;> rfl

theorem map_boolean (members : List Condition) :
    ((meanings source record members).map holds).map Value.boolean =
      (meanings source record members).map fun values => .boolean (holds values) := by
  cases meanings source record members <;> rfl

end Gathering

mutual

/-- A condition means the same when nested members have given way to their members. -/
theorem meaning_flattened :
    (condition : Condition) → condition.flattened.meaning source record =
      condition.meaning source record
  | comparison _ _ _ => rfl
  | query _ _ => rfl
  | all members => by
    simp only [flattened, meaning]
    rw [← map_boolean, truth_conjuncts members, map_boolean]
  | any members => by
    simp only [flattened, meaning]
    rw [← map_boolean, truth_disjuncts members, map_boolean]

/-- Members hold together just when those that they have given way to do. -/
theorem truth_conjuncts :
    (members : List Condition) →
      (meanings source record (conjuncts members)).map (·.all Value.isTruthy) =
        (meanings source record members).map (·.all Value.isTruthy)
  | [] => rfl
  | member :: later => by
    have hmember := meaning_flattened member
    refine gathers_all.truth_cons ?_ (truth_conjuncts later)
    rw [← hmember]
    split
    · rename_i inner hinner
      rw [hinner]
      exact (truth_set inner).symm
    · exact gathers_all.truth_single _

theorem truth_disjuncts :
    (members : List Condition) →
      (meanings source record (disjuncts members)).map (·.any Value.isTruthy) =
        (meanings source record members).map (·.any Value.isTruthy)
  | [] => rfl
  | member :: later => by
    have hmember := meaning_flattened member
    refine gathers_any.truth_cons ?_ (truth_disjuncts later)
    rw [← hmember]
    split
    · rename_i inner hinner
      rw [hinner]
      exact (truth_set inner).symm
    · exact gathers_any.truth_single _

end

/-- Conditions that only differ in how members are nested mean the same. -/
theorem meaning_congr {condition other : Condition} (h : condition.flattened = other.flattened) :
    condition.meaning source record = other.meaning source record := by
  rw [← meaning_flattened condition, h, meaning_flattened other]

end Nesting

/-! ## Joining two conditions -/

theorem conjuncts_append (first later : List Condition) :
    conjuncts (first ++ later) = conjuncts first ++ conjuncts later := by
  induction first with
  | nil => rfl
  | cons member first ih => simp [conjuncts, ih]

theorem disjuncts_append (first later : List Condition) :
    disjuncts (first ++ later) = disjuncts first ++ disjuncts later := by
  induction first with
  | nil => rfl
  | cons member first ih => simp [disjuncts, ih]

/-- Whether the first one takes the second one in or not, both differ from a set of the two only in
how members are nested. -/
theorem flattened_and (first second : Condition) :
    (first.and second).flattened = (all [first, second]).flattened := by
  cases first with
  | all members => simp [Condition.and, flattened, conjuncts, conjuncts_append]
  | _ => rfl

theorem flattened_or (first second : Condition) :
    (first.or second).flattened = (any [first, second]).flattened := by
  cases first with
  | any members => simp [Condition.or, flattened, disjuncts, disjuncts_append]
  | _ => rfl

/-- A set among the members of one of its kind may give way to its members. -/
theorem flattened_all_nested (before inner after : List Condition) :
    (all (before ++ all inner :: after)).flattened =
      (all (before ++ (inner ++ after))).flattened := by
  simp [flattened, conjuncts, conjuncts_append]

theorem flattened_any_nested (before inner after : List Condition) :
    (any (before ++ any inner :: after)).flattened =
      (any (before ++ (inner ++ after))).flattened := by
  simp [flattened, disjuncts, disjuncts_append]

end Condition

end RecordQuery

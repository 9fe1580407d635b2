import RecordQuery.MemoryStore.Source
import RecordQuery.Proofs.Expression.Lifecycle
import RecordQuery.Proofs.Value.Fitting
import RecordQuery.Proofs.Value.Order
import RecordQuery.Regexp.Standard

/-!
# The stored result

An execution answers the value of a run and stores it as the result of the expression, converted
into the domain of the program.  A conversion into a scalar domain leaves a value that equals the
former one (`Value.equals_of_toScalarOf`), and a conversion into the domain of a table leaves a
reference as it is, but makes one of a null and of an integer (`Value.toRecordOf_eq`).  So the stored
result equals the answer, unless the program gives references and the answer is none
(`Expression.execute_resultStored`).
-/

namespace RecordQuery

namespace Value

variable {value fitted : Value}

/-- A scalar is equal to the value it was converted from. -/
theorem equals_of_toScalarOf {type : DataType} (h : value.toScalarOf type = .ok fitted) :
    fitted.equals value = true := by
  cases value with
  | null _ =>
      cases h
      rfl
  | integer n =>
      cases type with
      | float =>
          cases h
          exact beq_floatOfInt64_iff.mpr rfl
      | integer | null =>
          cases h
          exact equals_self _
      | boolean | text | record => cases h
  | boolean _ | float _ | text _ | record _ =>
      cases type <;> cases h <;> exact equals_self _

/-- A reference to a record of the table stays what it is; a null becomes the reference to no record,
and an integer the reference it numbers. -/
theorem toRecordOf_eq {table : TableId} (h : value.toRecordOf table = .ok fitted) :
    (∃ r, value = record r ∧ fitted = record r) ∨
      (value.isNull = true ∧ fitted = record (.nil table)) ∨
      ∃ n, value = integer n ∧ fitted = record ⟨table, n.toInt.toNat⟩ := by
  cases value with
  | null type =>
      cases h
      exact Or.inr (Or.inl ⟨rfl, rfl⟩)
  | record r =>
      simp only [toRecordOf] at h
      split at h
      · cases h
        exact Or.inl ⟨r, rfl, rfl⟩
      · cases h
  | integer n =>
      simp only [toRecordOf] at h
      split at h
      · cases h
        exact Or.inr (Or.inr ⟨n, rfl, rfl⟩)
      · cases h
  | boolean _ | float _ | text _ => cases h

/-- A converted value equals the former one, unless it is a reference and the former one is none. -/
theorem equals_of_coerce {domain : Domain} (h : value.coerce domain = .ok fitted) :
    (fitted.equals value = true ↔
        ∀ table, domain = .table table → value.record?.isSome = true) ∧
      ∀ table, domain = .table table → value.record? = none →
        (value.isNull = true ∧ fitted = record (.nil table)) ∨
          ∃ n, value = integer n ∧ fitted = record ⟨table, n.toInt.toNat⟩ := by
  cases domain with
  | any =>
      cases h
      simp [equals_self]
  | scalar type => simp [equals_of_toScalarOf h]
  | table table =>
      rcases toRecordOf_eq h with ⟨r, rfl, rfl⟩ | ⟨hnull, rfl⟩ | ⟨n, rfl, rfl⟩
      · simp [equals_self, record?]
      · cases value with
        | null type => simp [equals, record?, isNull]
        | _ => cases hnull
      · simp [equals, record?]

end Value

theorem Cell.coerce_of_set {cell later : Cell} {value : Value} (h : cell.set value = .ok later) :
    value.coerce cell.domain = .ok later.value := by
  obtain ⟨fitted, hcoerce, rfl⟩ := exists_of_map_eq_ok h
  exact hcoerce

namespace Expression

variable {e later : Expression} {source : Source} {arguments : List Value} {value : Value}

/-- An execution that answers a value stores it, converted into the domain of the program. -/
theorem Coherent.coerce_of_execute [Regexp.Matcher] (h : e.Coherent)
    (hexecute : e.execute source arguments = (later, .ok value)) :
    ∃ range, later.range? = some range ∧ value.coerce range = .ok later.result.value := by
  have hexecutes := h.executes source arguments
  rw [hexecute] at hexecutes
  cases hexecutes with
  | @run ready _ vars compiled outcome _ hcompile hbind hmade hrun hconcludes =>
      have hready := (h.compile hcompile).1
      cases hconcludes with
      | kept hvalue hfailure hset =>
          refine ⟨compiled.range, by rw [range?, hmade]; rfl, ?_⟩
          have hdomain : ready.result.domain = compiled.range := by
            rw [hready.result_domain, range?, hmade]
            rfl
          rw [← hdomain]
          exact Cell.coerce_of_set hset

/-- After an execution that answers a value, the result of the expression is that value converted
into the domain of the program, and equals it, unless the program gives references to records of a
table and the value is none.  Then the value is a null, and the result is the reference to no record
of the table, or an integer, and the result is the reference that it numbers. -/
theorem execute_resultStored [Regexp.Matcher] {name : Option String} {before : List Call}
    (hexecute : ((empty name).performAll before).execute source arguments = (later, .ok value)) :
    ∃ range, later.range? = some range ∧ value.coerce range = .ok later.result.value ∧
      (later.result.value.equals value = true ↔
        ∀ table, range = .table table → value.record?.isSome = true) ∧
      ∀ table, range = .table table → value.record? = none →
        (value.isNull = true ∧ later.result.value = .record (.nil table)) ∨
          ∃ n, value = .integer n ∧ later.result.value = .record ⟨table, n.toInt.toNat⟩ := by
  have hcoherent := ((coherent_empty name).keeps_performAll before).coherent
  obtain ⟨range, hrange, hstored⟩ := hcoherent.coerce_of_execute hexecute
  exact ⟨range, hrange, hstored, Value.equals_of_coerce hstored⟩

/-- The friend of a record that has none is the reference to no record, which is stored as it is. -/
theorem execute_resultStored_friend :
    let people : MemoryStore :=
      ⟨[⟨"People", none, [⟨"friend", .table ⟨1⟩⟩], [⟨.unknown, [.record (.nil ⟨1⟩)]⟩]⟩], .empty⟩
    let e := (empty none).performAll
      [.defineVariable none (.table ⟨1⟩), .appendObject (.variableAt 0) .push 1,
        .appendConstant (.text "friend") .push 1, .appendOperation .getValue 2]
    ∃ later, e.execute (people.source none) [.record ⟨⟨1⟩, 1⟩] =
        (later, .ok (.record (.nil ⟨1⟩))) ∧
      later.result.value.equals (.record (.nil ⟨1⟩)) = true := by
  intro people e
  have hanswer : (e.execute (people.source none) [.record ⟨⟨1⟩, 1⟩]).2 =
      .ok (.record (.nil ⟨1⟩)) := by decide +kernel
  obtain ⟨_, _, _, hequal, _⟩ := execute_resultStored (Prod.ext rfl hanswer)
  exact ⟨_, Prod.ext rfl hanswer, hequal.mpr fun _ _ => rfl⟩

/-- Its friend is a null, which is stored as the reference to no record; and an integer that is read
as a reference is stored as the one that it numbers. -/
theorem result_ne_answer :
    let people : MemoryStore :=
      ⟨[⟨"People", none, [⟨"friend", .table ⟨1⟩⟩, ⟨"age", .scalar .integer⟩],
        [⟨.unknown, [.record (.nil ⟨1⟩), .integer 7]⟩]⟩], .empty⟩
    let read (names : List Call) := (empty none).performAll
      ([.defineVariable none (.table ⟨1⟩), .appendObject (.variableAt 0) .push 1] ++ names)
    let friendOfFriend := read
      [.appendConstant (.text "friend") .push 1, .appendOperation .getValue 2,
        .appendConstant (.text "friend") .push 1, .appendOperation .getValue 2]
    let ageAsRecord := read
      [.appendObject (.object (.column ⟨⟨1⟩, .stored 1, "age", .table ⟨1⟩⟩)) .push 1,
        .appendOperation .getValue 2]
    let answers (e : Expression) (value result : Value) : Prop :=
      (e.execute (people.source none) [.record ⟨⟨1⟩, 1⟩]).2 = .ok value ∧
        (e.execute (people.source none) [.record ⟨⟨1⟩, 1⟩]).1.result.value = result ∧
        result.equals value = false
    answers friendOfFriend (.null .record) (.record (.nil ⟨1⟩)) ∧
      answers ageAsRecord (.integer 7) (.record ⟨⟨1⟩, 7⟩) := by
  decide +kernel

end Expression

end RecordQuery

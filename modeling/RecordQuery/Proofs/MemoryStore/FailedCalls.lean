import RecordQuery.Proofs.Except
import RecordQuery.Proofs.MemoryStore.Events

/-!
# What failed calls leave

A call that fails leaves the store as it was, unless it is an insertion that has added its record
before one of the values fails: this record stays, with the values before the failing one, as if
only these had been inserted (`perform_of_failed`).

Nothing else of such a store can be told from the one before (`SameBut`): adding a record and each
of its values changes the row of the record alone, and all other answers of a store are made of the
names of its tables, their columns and the other rows (`sameBut_setTable`).
-/

namespace RecordQuery

/-! ## Tables that differ in one row -/

/-- Whether two tables differ in no more than the row in one place. -/
structure Table.SameBut (table later : Table) (position : Nat) : Prop where
  name : later.name = table.name
  keyType : later.keyType = table.keyType
  columns : later.columns = table.columns
  rows : ∀ other, other ≠ position → later.rows[other]? = table.rows[other]?

theorem Table.sameBut_addRow (table : Table) (key : Value) :
    table.SameBut (table.addRow key) table.rows.length where
  name := rfl
  keyType := rfl
  columns := rfl
  rows other hother := by
    rcases Nat.lt_or_gt_of_ne hother with hbefore | hbehind
    · exact List.getElem?_append_left hbefore
    · rw [Table.addRow, List.getElem?_eq_none (by simp; omega), List.getElem?_eq_none (by omega)]

theorem Table.sameBut_setCell (table : Table) (position index : Nat) (value : Value) :
    table.SameBut (table.setCell position index value) position where
  name := rfl
  keyType := rfl
  columns := rfl
  rows other hother := by
    simp [Table.setCell, Ne.symm hother]

/-- The row of a record, if there is one, is told by its number alone. -/
theorem Table.rowIndex?_bind (table : Table) (id : Nat) :
    ((table.rowIndex? id).bind fun index => table.rows[index]?) =
      if 0 < id then table.rows[id - 1]? else none := by
  unfold rowIndex?
  by_cases hpos : 0 < id
  · by_cases hbound : id ≤ table.rows.length
    · rw [if_pos ⟨hpos, hbound⟩, if_pos hpos, Option.bind_some]
    · rw [if_neg (fun h => hbound h.2), if_pos hpos, List.getElem?_eq_none (by omega)]
      rfl
  · rw [if_neg (fun h => hpos h.1), if_neg hpos]
    rfl

namespace MemoryStore

variable {store between later : MemoryStore} {id : TableId} {table laterTable : Table}
  {record : RecordRef} {position : Nat}

/-! ## Stores that differ in one record -/

/-- Whether a store answers as another one does, to all but questions for the values of one
record. -/
structure SameBut (store later : MemoryStore) (record : RecordRef) : Prop where
  /-- Names find the same tables. -/
  tableId : ∀ name, later.tableId? name = store.tableId? name
  /-- Tables have the same names. -/
  tableName : ∀ id, (later.table? id).map (·.name) = (store.table? id).map (·.name)
  /-- Tables have the same columns. -/
  column : ∀ id name, later.column id name = store.column id name
  /-- Names find the same objects. -/
  resolve : ∀ name, later.resolve name = store.resolve name
  /-- Other records, and references to none, have the same values. -/
  value : ∀ other column, other ≠ record → later.value other column = store.value other column

theorem SameBut.trans (h : store.SameBut between record) (hlater : between.SameBut later record) :
    store.SameBut later record where
  tableId name := (hlater.tableId name).trans (h.tableId name)
  tableName id := (hlater.tableName id).trans (h.tableName id)
  column id name := (hlater.column id name).trans (h.column id name)
  resolve name := (hlater.resolve name).trans (h.resolve name)
  value other column hother :=
    (hlater.value other column hother).trans (h.value other column hother)

theorem tableId?_congr (h : later.tables.map (·.name) = store.tables.map (·.name))
    (name : String) : later.tableId? name = store.tableId? name := by
  have hnames (tables : List Table) :
      tables.findIdx? (fun table => table.name == name) =
        (tables.map (·.name)).findIdx? (· == name) := by
    rw [List.findIdx?_map]
    rfl
  rw [tableId?, tableId?, hnames, hnames, h]

theorem localColumn_congr (h : table.SameBut laterTable position) (name : String) :
    localColumn laterTable name = localColumn table name := by
  simp only [localColumn, Table.columnIndex?, h.name, h.keyType, h.columns]

theorem rangeOf_congr (h : table.SameBut laterTable position) (column : ColumnId) :
    rangeOf laterTable column = rangeOf table column := by
  cases column <;> simp only [rangeOf, h.keyType, h.columns]

/-- A table with another row in the place of a record makes a difference to this record alone. -/
theorem sameBut_setTable (hrecord : 0 < record.id) (htable : store.table? record.table = some table)
    (hsame : table.SameBut laterTable (record.id - 1)) :
    store.SameBut (store.setTable record.table laterTable) record := by
  have hget (other : TableId) : (store.setTable record.table laterTable).table? other =
      if other = record.table then some laterTable else store.table? other :=
    table?_setTable htable other
  have htableId := tableId?_congr (names_setTable htable hsame.name)
  have hcolumn (id : TableId) (name : String) :
      (store.setTable record.table laterTable).column id name = store.column id name := by
    simp only [MemoryStore.column, findTable, hget]
    by_cases hid : id = record.table
    · simp only [hid, htable, if_true, localColumn_congr hsame, hsame.name]
    · simp only [if_neg hid]
  refine ⟨htableId, ?_, hcolumn, ?_, ?_⟩
  · intro id
    rw [hget]
    by_cases hid : id = record.table
    · rw [if_pos hid, hid, htable, Option.map_some, Option.map_some, hsame.name]
    · rw [if_neg hid]
  · intro name
    simp only [MemoryStore.resolve, htableId, hcolumn]
    rfl
  · intro other column hother
    simp only [MemoryStore.value, findTable, hget]
    by_cases hid : other.table = record.table
    · have hrow : ((laterTable.rowIndex? other.id).bind fun index => laterTable.rows[index]?) =
          (table.rowIndex? other.id).bind fun index => table.rows[index]? := by
        rw [Table.rowIndex?_bind, Table.rowIndex?_bind]
        by_cases hpos : 0 < other.id
        · -- Records of one table that differ have their rows in different places.
          have hids : other.id ≠ record.id := by
            intro hsameId
            cases other
            cases record
            subst hid hsameId
            exact hother rfl
          rw [if_pos hpos, if_pos hpos, hsame.rows _ (by omega)]
        · rw [if_neg hpos, if_neg hpos]
      simp only [hid, htable, if_true, rangeOf_congr hsame, hrow, hsame.name]
    · simp only [if_neg hid]

/-! ## What the parts of an insertion do -/

theorem records_eq (htable : store.table? id = some table) :
    store.records id = (List.range table.rows.length).map fun index => ⟨id, index + 1⟩ := by
  simp only [records, htable]

theorem records_setTable (htable : store.table? id = some table) (other : TableId) :
    (store.setTable id laterTable).records other =
      if other = id then (List.range laterTable.rows.length).map fun index => ⟨id, index + 1⟩
      else store.records other := by
  simp only [records, table?_setTable htable]
  by_cases hother : other = id
  · simp only [hother, if_true]
  · simp only [if_neg hother]

/-- Whether a store answers as another one does but for one record that is there besides. -/
structure HasBesides (store later : MemoryStore) (record : RecordRef) : Prop where
  /-- The record is none of those there were. -/
  new : record ∉ store.records record.table
  /-- The record comes after those there were in its table. -/
  records : ∀ id, later.records id = store.records id ++ if id = record.table then [record] else []
  /-- All other answers are the same. -/
  same : store.SameBut later record

theorem hasBesides_addRecord {key : Option Value}
    (hadd : store.addRecord id key = .ok (record, later)) : store.HasBesides later record := by
  obtain ⟨table, checked, htable, _, rfl, rfl⟩ := addRecord_eq_ok hadd
  have hpos : 0 < (RecordRef.mk id (table.rows.length + 1)).id := Nat.succ_pos _
  have hsame : store.SameBut (store.setTable id (table.addRow checked))
      ⟨id, table.rows.length + 1⟩ :=
    sameBut_setTable hpos htable (table.sameBut_addRow checked)
  refine ⟨?_, ?_, hsame⟩
  · rw [records_eq htable]
    simp
  · intro other
    rw [records_setTable htable]
    by_cases hother : other = id
    · rw [if_pos hother, if_pos hother, hother, records_eq htable, Table.addRow, List.length_append,
        List.length_singleton, List.range_succ, List.map_append]
      rfl
    · rw [if_neg hother, if_neg hother, List.append_nil]

theorem HasBesides.setValue (h : store.HasBesides between record) {column : String} {value : Value}
    (hset : between.setValue record column value = .ok later) : store.HasBesides later record := by
  obtain ⟨table, index, found, fitted, htable, _, _, ⟨hpos, _⟩, _, rfl⟩ := setValue_eq_ok hset
  refine ⟨h.new, ?_, h.same.trans (sameBut_setTable hpos htable (table.sameBut_setCell ..))⟩
  intro other
  rw [← h.records other, records_setTable htable]
  by_cases hother : other = record.table
  · rw [if_pos hother, hother, records_eq htable, Table.setCell, List.length_modify]
  · rw [if_neg hother]

theorem HasBesides.setValues (h : store.HasBesides between record)
    (values : List (String × Value)) :
    store.HasBesides (between.setValues record values).1 record := by
  induction values generalizing between with
  | nil => exact h
  | cons entry values ih =>
      obtain ⟨column, value⟩ := entry
      rw [MemoryStore.setValues]
      split
      · exact h
      · rename_i next hset
        exact ih (h.setValue hset)

/-- Values that fail are some that are set and then one that is not. -/
theorem setValues_of_failed {values : List (String × Value)} {error : Error}
    (h : (store.setValues record values).2 = .error error) :
    ∃ before column value after, values = before ++ (column, value) :: after ∧
      store.setValues record before = ((store.setValues record values).1, .ok ()) ∧
      (store.setValues record values).1.setValue record column value = .error error := by
  induction values generalizing store with
  | nil => cases h
  | cons entry values ih =>
      obtain ⟨column, value⟩ := entry
      rw [MemoryStore.setValues] at h ⊢
      cases hset : store.setValue record column value with
      | error failure =>
          rw [hset] at h
          obtain rfl : failure = error := Except.error.inj h
          exact ⟨[], column, value, values, rfl, rfl, hset⟩
      | ok next =>
          rw [hset] at h
          obtain ⟨before, failing, failingValue, after, rfl, hbefore, hfails⟩ := ih h
          refine ⟨(column, value) :: before, failing, failingValue, after, rfl, ?_, hfails⟩
          simp only [MemoryStore.setValues, hset, hbefore]

/-! ## Failed calls -/

/-- Whether a call succeeds, without what it answers besides. -/
def Call.outcome (store : MemoryStore) : Call → Except Error Unit
  | .createTable name keyType => (store.createTable name keyType).map fun _ => ()
  | .addColumn id name range => (store.addColumn id name range).map fun _ => ()
  | .addRecord id key => (store.addRecord id key).map fun _ => ()
  | .setValue record column value => (store.setValue record column value).map fun _ => ()
  | .insert id key values => (store.insert id key values).2.map fun _ => ()

/-- An insertion that fails behind its record leaves what the values before the failing one make of
the record. -/
theorem insert_of_failed {key : Option Value} {values : List (String × Value)} {error : Error}
    {added : MemoryStore} (hadd : store.addRecord id key = .ok (record, added))
    (h : (store.insert id key values).2 = .error error) :
    ∃ before column value after, values = before ++ (column, value) :: after ∧
      store.insert id key before = ((store.insert id key values).1, .ok record) ∧
      (store.insert id key values).1.setValue record column value = .error error := by
  simp only [MemoryStore.insert, hadd] at h ⊢
  have hfailed := eq_error_of_map_eq_error h
  obtain ⟨before, column, value, after, hvalues, hbefore, hfails⟩ := setValues_of_failed hfailed
  exact ⟨before, column, value, after, hvalues, by rw [hbefore]; rfl, hfails⟩

/-- A call that fails leaves the store as it was, unless it is an insertion whose record is accepted
and one of whose values is not: then the store is the one after the insertion of the values before
this one, which differs from the one there was in having the record besides. -/
theorem perform_of_failed {call : Call} {error : Error} (h : call.outcome store = .error error) :
    (store.perform call = store ∧ ∀ id key values, call = .insert id key values →
      ∃ refused, store.addRecord id key = .error refused) ∨
    ∃ id key before column value after record,
      call = .insert id key (before ++ (column, value) :: after) ∧
      store.insert id key before = (store.perform call, .ok record) ∧
      (store.perform call).setValue record column value = .error error ∧
      store.HasBesides (store.perform call) record := by
  -- The four other calls have checked everything before they change anything.
  have hkept {α : Type} {answer : Except Error (α × MemoryStore)}
      (hanswer : answer.map (fun _ => ()) = .error error) : store.orKept answer = store := by
    rw [eq_error_of_map_eq_error hanswer]
    rfl
  cases call with
  | createTable name keyType => exact Or.inl ⟨hkept h, fun _ _ _ hcall => by cases hcall⟩
  | addColumn id name range => exact Or.inl ⟨hkept h, fun _ _ _ hcall => by cases hcall⟩
  | addRecord id key => exact Or.inl ⟨hkept h, fun _ _ _ hcall => by cases hcall⟩
  | setValue record column value =>
      have hfails : store.setValue record column value = .error error := eq_error_of_map_eq_error h
      exact Or.inl ⟨by simp only [perform, hfails], fun _ _ _ hcall => by cases hcall⟩
  | insert id key values =>
      have hfailed : (store.insert id key values).2 = .error error := eq_error_of_map_eq_error h
      cases hadd : store.addRecord id key with
      | error refused =>
          refine Or.inl ⟨by simp only [perform, MemoryStore.insert, hadd], ?_⟩
          intro _ _ _ hcall
          cases hcall
          exact ⟨refused, hadd⟩
      | ok answer =>
          obtain ⟨record, added⟩ := answer
          obtain ⟨before, column, value, after, rfl, hbefore, hfails⟩ :=
            insert_of_failed hadd hfailed
          have hbesides : store.HasBesides (store.insert id key before).1 record := by
            simp only [MemoryStore.insert, hadd]
            exact (hasBesides_addRecord hadd).setValues before
          rw [hbefore] at hbesides
          exact Or.inr ⟨id, key, before, column, value, after, record, rfl, hbefore, hfails,
            hbesides⟩

/-- Of three values the second one does not fit its column: the record stays, with the first value,
and is the only record of its table. -/
theorem perform_of_failed_secondValue :
    let store := (empty ⟨[]⟩).performAll
      [.createTable "People" none, .addColumn ⟨1⟩ "age" (.scalar .integer),
        .addColumn ⟨1⟩ "name" (.scalar .text)]
    let call := Call.insert ⟨1⟩ none [("age", .integer 7), ("name", .integer 7), ("age", .integer 8)]
    call.outcome store = .error (.domainMismatch (.scalar .text) .integer) ∧
      store.HasBesides (store.perform call) ⟨⟨1⟩, 1⟩ ∧
      (store.perform call).value ⟨⟨1⟩, 1⟩ (.stored 0) = .ok (.integer 7) := by
  intro store call
  have hfails : call.outcome store = .error (.domainMismatch (.scalar .text) .integer) := by
    decide +kernel
  refine ⟨hfails, ?_, by decide +kernel⟩
  have hbefore : store.records ⟨1⟩ = [] := by decide +kernel
  have hbehind : (store.perform call).records ⟨1⟩ = [⟨⟨1⟩, 1⟩] := by decide +kernel
  rcases perform_of_failed hfails with ⟨hsame, _⟩ | ⟨_, _, _, _, _, _, record, _, _, _, hbesides⟩
  · rw [hsame, hbefore] at hbehind
    cases hbehind
  · have hrecords := hbesides.records ⟨1⟩
    rw [hbefore, hbehind, List.nil_append] at hrecords
    split at hrecords
    · rwa [List.singleton_inj.mp hrecords]
    · cases hrecords

/-- It is not so that a failed call can never be told from one that was not made. -/
theorem records_of_failed_insert :
    ¬ ∀ (calls : List Call) (call : Call) (error : Error),
      call.outcome ((empty ⟨[]⟩).performAll calls) = .error error →
      ∀ id, (((empty ⟨[]⟩).performAll calls).perform call).records id =
        ((empty ⟨[]⟩).performAll calls).records id := by
  intro hnothing
  have hsame := hnothing
    [.createTable "People" none, .addColumn ⟨1⟩ "age" (.scalar .integer)]
    (.insert ⟨1⟩ none [("age", .text "seven")])
    (.domainMismatch (.scalar .integer) .text) (by decide +kernel) ⟨1⟩
  exact absurd hsame (by decide +kernel)

end MemoryStore

end RecordQuery

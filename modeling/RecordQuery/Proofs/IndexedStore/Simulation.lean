import RecordQuery.MemoryStore.Source
import RecordQuery.Proofs.IndexedStore.Alignment
import RecordQuery.Proofs.MemoryStore.Events

/-!
# A store with name indexes is a store of rows

A table with vectors and an index stands for a plain table, whose rows carry their keys and whose
names are searched for (`IndexedTable.plain`), and so does a store (`IndexedStore.plain`).

While a store is aligned, every call on it answers as the call on the plain store does, with stores
that stand for each other, and goes nowhere out of bounds (`IndexedStore.Aligned.setValue_plain` and
so on).  So after any calls the store stands for the plain store after the same calls
(`IndexedStore.Aligned.plain_performAll`), and readers cannot tell the two apart
(`IndexedStore.source_performAll`).  What is proved of plain stores is therefore proved of these.
-/

namespace RecordQuery

/-! ## Tables -/

namespace IndexedTable

variable {table : IndexedTable} {row : Nat}

/-- The table with each key in the row of its record, and without the index. -/
def plain (table : IndexedTable) : Table :=
  ⟨table.name, table.keyType, table.columns, table.keys.zipWith Row.mk table.rows⟩

theorem Aligned.length_plain (h : table.Aligned) :
    table.plain.rows.length = table.rows.length := by
  rw [plain, List.length_zipWith, ← h.lengths, Nat.min_self]

/-- The index finds the column that a search finds. -/
theorem Aligned.columnIndex?_plain (h : table.Aligned) (name : String) :
    table.plain.columnIndex? name = table.columnIndex.find? name := by
  cases hfound : table.plain.columnIndex? name with
  | none =>
      -- No column has the name.
      refine (Option.eq_none_iff_forall_ne_some.mpr fun number hnumber => ?_).symm
      obtain ⟨column, hcolumn, hname⟩ := h.exists_column hnumber
      have hother := List.findIdx?_eq_none_iff.mp hfound column (List.mem_of_getElem? hcolumn)
      exact absurd hname (beq_eq_false_iff_ne.mp hother)
  | some number =>
      obtain ⟨hbound, hname, _⟩ := List.findIdx?_eq_some_iff_getElem.mp hfound
      refine ((h.index name number).mpr ?_).symm
      exact Option.map_eq_some_iff.mpr
        ⟨_, List.getElem?_eq_getElem hbound, beq_iff_eq.mp hname⟩

theorem Aligned.rowIndex?_plain (h : table.Aligned) (id : Nat) :
    table.plain.rowIndex? id = table.rowIndex? id := by
  rw [Table.rowIndex?, h.length_plain]
  cases id with
  | zero => rfl
  | succ index =>
      simp only [rowIndex?, Nat.succ_pos, true_and, Nat.succ_le_iff, Nat.add_sub_cancel]

theorem plain_addColumn (table : IndexedTable) (column : Column) :
    (table.addColumn column).plain = table.plain.addColumn column := by
  simp only [plain, addColumn, Table.addColumn, List.zipWith_map_right, List.map_zipWith]

theorem Aligned.plain_addRow (h : table.Aligned) (key : Value) :
    (table.addRow key).plain = table.plain.addRow key := by
  simp only [plain, IndexedTable.addRow, Table.addRow, List.zipWith_append h.lengths.symm,
    List.zipWith_cons_cons, List.zipWith_nil_left]

theorem plain_withCell (table : IndexedTable) (row column : Nat) (value : Value) :
    (table.withCell row column value).plain = table.plain.setCell row column value := by
  simp only [plain, withCell, Table.setCell, Table.mk.injEq, true_and]
  refine List.ext_getElem? fun place => ?_
  rw [List.getElem?_modify, List.getElem?_zipWith, List.getElem?_zipWith, List.getElem?_modify]
  cases table.keys[place]? with
  | none => rfl
  | some key =>
      cases table.rows[place]? with
      | none => rfl
      | some values =>
          by_cases hplace : row = place
          · simp only [if_pos hplace, Option.map_eq_map, Option.map_some]
          · simp only [if_neg hplace, Option.map_eq_map, Option.map_some]

/-- What stands for a column in the row of a record that is there is in bounds. -/
theorem Aligned.cellAt_eq (h : table.Aligned) (hrow : row < table.rows.length)
    {column : ColumnId} {range : Domain} (hrange : table.rangeOf column = .ok range) :
    ∃ found, table.plain.rows[row]? = some found ∧
      table.cellAt row column = .ok (MemoryStore.cellOf found column) := by
  have hkey : row < table.keys.length := h.lengths ▸ hrow
  refine ⟨⟨table.keys[row], table.rows[row]⟩, ?_, ?_⟩
  · rw [plain, List.getElem?_zipWith, List.getElem?_eq_getElem hkey, List.getElem?_eq_getElem hrow]
  · cases column with
    | stored index =>
        have hcolumn : index < table.columns.length := by
          refine Nat.lt_of_not_le fun hbeyond => ?_
          rw [rangeOf, List.getElem?_eq_none hbeyond] at hrange
          cases hrange
        have hwidth : index < table.rows[row].length := (h.width_eq hrow).symm ▸ hcolumn
        simp only [cellAt, elementAt, MemoryStore.cellOf, List.getElem?_eq_getElem hrow,
          List.getD_eq_getElem?_getD, List.getElem?_eq_getElem hwidth, Option.getD_some]
    | recordId | recordKey =>
        simp only [cellAt, elementAt, MemoryStore.cellOf, List.getElem?_eq_getElem hkey]

theorem Aligned.localColumn_plain (h : table.Aligned) (name : String) :
    (MemoryStore.localColumn table.plain name).mapError .reported = table.localColumn name := by
  rw [MemoryStore.localColumn, localColumn]
  split
  · rfl
  · split
    · have hkey : table.plain.keyType = table.keyType := rfl
      rw [hkey]
      cases table.keyType <;> rfl
    · rw [h.columnIndex?_plain]
      cases hindex : table.columnIndex.find? name with
      | none => rfl
      | some index =>
          obtain ⟨column, hcolumn, _⟩ := h.exists_column hindex
          have hplain : table.plain.columns[index]? = some column := hcolumn
          simp only [elementAt, hcolumn, hplain, Option.map_some, Option.getD_some]
          rfl

end IndexedTable

/-! ## Stores -/

namespace IndexedStore

open MemoryStore (Call)

variable {store later : IndexedStore} {id : TableId} {table : IndexedTable}

/-- The store with plain tables, and without the index. -/
def plain (store : IndexedStore) : MemoryStore :=
  ⟨store.tables.map IndexedTable.plain, store.functions⟩

theorem plain_empty (functions : Registry) : (empty functions).plain = .empty functions := rfl

theorem table?_plain (store : IndexedStore) (id : TableId) :
    store.plain.table? id = (store.table? id).map IndexedTable.plain := by
  rw [MemoryStore.table?, table?, plain, List.getElem?_map]
  split <;> rfl

theorem requireTable_plain (store : IndexedStore) (id : TableId) :
    store.plain.requireTable id = (store.requireTable id).map IndexedTable.plain := by
  rw [MemoryStore.requireTable, requireTable, table?_plain]
  cases store.table? id <;> rfl

theorem plain_setTable (store : IndexedStore) (id : TableId) (table : IndexedTable) :
    (store.setTable id table).plain = store.plain.setTable id table.plain := by
  simp only [plain, setTable, MemoryStore.setTable, List.map_set]

/-- The index finds the table that a search finds. -/
theorem Aligned.tableId?_plain (h : store.Aligned) (name : String) :
    store.plain.tableId? name = store.tableId? name := by
  unfold MemoryStore.tableId? tableId?
  cases hfound : store.plain.tables.findIdx? fun table => table.name == name with
  | none =>
      refine (Option.eq_none_iff_forall_ne_some.mpr fun id hid => ?_).symm
      obtain ⟨table, htable, hname⟩ := Option.map_eq_some_iff.mp ((h.index name id).mp hid)
      have hplain : store.plain.table? id = some table.plain := by rw [table?_plain, htable]; rfl
      have hother := List.findIdx?_eq_none_iff.mp hfound _ (MemoryStore.mem_of_table? hplain)
      exact absurd hname (beq_eq_false_iff_ne.mp hother)
  | some index =>
      obtain ⟨hbound, hname, _⟩ := List.findIdx?_eq_some_iff_getElem.mp hfound
      have hplain : store.plain.table? ⟨index + 1⟩ = some store.plain.tables[index] :=
        List.getElem?_eq_getElem hbound
      rw [table?_plain] at hplain
      obtain ⟨table, htable, hsame⟩ := Option.map_eq_some_iff.mp hplain
      refine ((h.index name ⟨index + 1⟩).mpr (Option.map_eq_some_iff.mpr ⟨table, htable, ?_⟩)).symm
      show table.plain.name = name
      rw [hsame]
      exact beq_iff_eq.mp hname

/-! ### What the calls answer -/

theorem Aligned.createTable_plain (h : store.Aligned) (name : String)
    (keyType : Option DataType) :
    store.plain.createTable name keyType =
      (store.createTable name keyType).map fun (id, later) => (id, later.plain) := by
  rw [MemoryStore.createTable, IndexedStore.createTable, h.tableId?_plain, tableId?]
  split
  · rfl
  · simp only [Except.map, plain, List.map_append, List.map_cons, List.map_nil, List.length_append,
      List.length_map, List.length_singleton, IndexedTable.plain, List.zipWith_nil_left]

theorem Aligned.addColumn_plain (h : store.Aligned) (id : TableId) (name : String)
    (range : Domain) :
    store.plain.addColumn id name range =
      (store.addColumn id name range).map fun (column, later) => (column, later.plain) := by
  rw [MemoryStore.addColumn, IndexedStore.addColumn, requireTable_plain]
  split
  · rfl
  · cases hrequired : store.requireTable id with
    | error error => rfl
    | ok table =>
        have haligned := h.aligned_of_table? (table?_of_requireTable hrequired)
        simp only [Except.map, haligned.columnIndex?_plain]
        split
        · rfl
        · simp only [plain_setTable, IndexedTable.plain_addColumn]
          rfl

theorem Aligned.addRecord_plain (h : store.Aligned) (id : TableId) (key : Option Value) :
    store.plain.addRecord id key =
      (store.addRecord id key).map fun (record, later) => (record, later.plain) := by
  rw [MemoryStore.addRecord, IndexedStore.addRecord, requireTable_plain]
  cases hrequired : store.requireTable id with
  | error error => rfl
  | ok table =>
      have haligned := h.aligned_of_table? (table?_of_requireTable hrequired)
      have hcheck : table.plain.checkKey key = table.checkKey key := rfl
      simp only [Except.map, hcheck]
      cases table.checkKey key with
      | error error => rfl
      | ok checked =>
          simp only [plain_setTable, haligned.plain_addRow, haligned.length_plain]
          simp only [IndexedTable.addRow, List.length_append, List.length_singleton]

/-- Setting a value goes nowhere out of bounds. -/
theorem Aligned.setValue_plain (h : store.Aligned) (record : RecordRef) (column : String)
    (value : Value) :
    (store.plain.setValue record column value).mapError .reported =
      (store.setValue record column value).map plain := by
  rw [MemoryStore.setValue, IndexedStore.setValue, requireTable_plain]
  cases hrequired : store.requireTable record.table with
  | error error => rfl
  | ok table =>
      have haligned := h.aligned_of_table? (table?_of_requireTable hrequired)
      simp only [Except.map, haligned.columnIndex?_plain, haligned.rowIndex?_plain]
      cases hindex : table.columnIndex.find? column with
      | none => rfl
      | some index =>
          obtain ⟨found, hfound, _⟩ := haligned.exists_column hindex
          have hplain : table.plain.columns[index]? = some found := hfound
          have hcolumn := (List.getElem?_eq_some_iff.mp hfound).1
          simp only [elementAt, hfound, hplain, Option.map_some, Option.getD_some]
          cases hrow : table.rowIndex? record.id with
          | none => rfl
          | some row =>
              have hbound := (IndexedTable.lt_of_rowIndex? hrow).1
              cases hfitted : value.coerce found.range with
              | error fault => rfl
              | ok fitted =>
                  simp only [haligned.setCell_eq hbound hcolumn, Except.mapError, plain_setTable,
                    IndexedTable.plain_withCell]

/-- Where setting a value fails it reports an error, the one that the plain store reports. -/
theorem Aligned.setValue_error (h : store.Aligned) {record : RecordRef} {column : String}
    {value : Value} {failure : Failure Error}
    (hset : store.setValue record column value = .error failure) :
    ∃ error, failure = .reported error ∧
      store.plain.setValue record column value = .error error := by
  have hplain := h.setValue_plain record column value
  rw [hset] at hplain
  obtain ⟨error, hanswer, hfailure⟩ := exists_of_mapError_eq_error hplain
  exact ⟨error, hfailure.symm, hanswer⟩

theorem Aligned.setValue_ok (h : store.Aligned) {record : RecordRef} {column : String}
    {value : Value} (hset : store.setValue record column value = .ok later) :
    store.plain.setValue record column value = .ok later.plain := by
  have hplain := h.setValue_plain record column value
  rw [hset] at hplain
  exact eq_ok_of_mapError_eq_ok hplain

theorem Aligned.setValues_plain (h : store.Aligned) (record : RecordRef)
    (values : List (String × Value)) :
    (store.setValues record values).1.plain = (store.plain.setValues record values).1 ∧
      (store.setValues record values).2 =
        (store.plain.setValues record values).2.mapError .reported := by
  induction values generalizing store with
  | nil => exact ⟨rfl, rfl⟩
  | cons entry values ih =>
      obtain ⟨column, value⟩ := entry
      rw [IndexedStore.setValues, MemoryStore.setValues]
      cases hset : store.setValue record column value with
      | error failure =>
          obtain ⟨error, rfl, hplain⟩ := h.setValue_error hset
          rw [hplain]
          exact ⟨rfl, rfl⟩
      | ok between =>
          rw [h.setValue_ok hset]
          exact ih (h.setValue hset)

theorem Aligned.insert_plain (h : store.Aligned) (id : TableId) (key : Option Value)
    (values : List (String × Value)) :
    (store.insert id key values).1.plain = (store.plain.insert id key values).1 ∧
      (store.insert id key values).2 =
        (store.plain.insert id key values).2.mapError .reported := by
  rw [IndexedStore.insert, MemoryStore.insert, h.addRecord_plain]
  cases hadd : store.addRecord id key with
  | error error => exact ⟨rfl, rfl⟩
  | ok answer =>
      obtain ⟨record, added⟩ := answer
      obtain ⟨hstore, houtcome⟩ := (h.addRecord hadd).setValues_plain record values
      refine ⟨hstore, ?_⟩
      show (added.setValues record values).2.map _ = _
      rw [houtcome]
      simp only [Except.map]
      cases (added.plain.setValues record values).2 <;> rfl

/-! ### What calls leave -/

/-- The store that a computation answers besides other things or, where it fails, the one there
was. -/
def orKept {α : Type} (store : IndexedStore) : Except Error (α × IndexedStore) → IndexedStore
  | .ok (_, later) => later
  | .error _ => store

/-- The store after a call, whether it fails or not. -/
def perform (store : IndexedStore) : Call → IndexedStore
  | .createTable name keyType => store.orKept (store.createTable name keyType)
  | .addColumn id name range => store.orKept (store.addColumn id name range)
  | .addRecord id key => store.orKept (store.addRecord id key)
  | .setValue record column value =>
    match store.setValue record column value with
    | .ok later => later
    | .error _ => store
  | .insert id key values => (store.insert id key values).1

/-- The store after calls one after the other. -/
def performAll (store : IndexedStore) (calls : List Call) : IndexedStore :=
  calls.foldl perform store

theorem Aligned.perform (h : store.Aligned) (call : Call) : (store.perform call).Aligned := by
  cases call with
  | createTable name keyType =>
      rw [IndexedStore.perform]
      cases hcreate : store.createTable name keyType with
      | error error => exact h
      | ok answer => exact h.createTable hcreate
  | addColumn id name range =>
      rw [IndexedStore.perform]
      cases hadd : store.addColumn id name range with
      | error error => exact h
      | ok answer => exact h.addColumn hadd
  | addRecord id key =>
      rw [IndexedStore.perform]
      cases hadd : store.addRecord id key with
      | error error => exact h
      | ok answer => exact h.addRecord hadd
  | setValue record column value =>
      rw [IndexedStore.perform]
      cases hset : store.setValue record column value with
      | error failure => exact h
      | ok later => exact h.setValue hset
  | insert id key values => exact h.insert id key values

theorem Aligned.performAll (h : store.Aligned) (calls : List Call) :
    (store.performAll calls).Aligned := by
  induction calls generalizing store with
  | nil => exact h
  | cons call calls ih => exact ih (h.perform call)

theorem plain_orKept {α : Type} (store : IndexedStore)
    (answer : Except Error (α × IndexedStore)) :
    (store.orKept answer).plain =
      store.plain.orKept (answer.map fun (found, later) => (found, later.plain)) := by
  cases answer <;> rfl

theorem Aligned.plain_perform (h : store.Aligned) (call : Call) :
    (store.perform call).plain = store.plain.perform call := by
  cases call with
  | createTable name keyType =>
      rw [IndexedStore.perform, MemoryStore.perform, plain_orKept, h.createTable_plain]
  | addColumn id name range =>
      rw [IndexedStore.perform, MemoryStore.perform, plain_orKept, h.addColumn_plain]
  | addRecord id key =>
      rw [IndexedStore.perform, MemoryStore.perform, plain_orKept, h.addRecord_plain]
  | setValue record column value =>
      rw [IndexedStore.perform, MemoryStore.perform]
      cases hset : store.setValue record column value with
      | error failure =>
          obtain ⟨error, _, hplain⟩ := h.setValue_error hset
          rw [hplain]
      | ok later => rw [h.setValue_ok hset]
  | insert id key values => exact (h.insert_plain id key values).1

/-- After the same calls the store stands for the plain store. -/
theorem Aligned.plain_performAll (h : store.Aligned) (calls : List Call) :
    (store.performAll calls).plain = store.plain.performAll calls := by
  induction calls generalizing store with
  | nil => rfl
  | cons call calls ih =>
      calc ((store.perform call).performAll calls).plain
          = (store.perform call).plain.performAll calls := ih (h.perform call)
        _ = (store.plain.perform call).performAll calls := by rw [h.plain_perform]

/-! ### What readers find -/

theorem findTable_plain (store : IndexedStore) (id : TableId) :
    store.plain.findTable id = (store.findTable id).map IndexedTable.plain := by
  rw [MemoryStore.findTable, findTable, table?_plain]
  cases store.table? id <;> rfl

theorem Aligned.aligned_of_findTable (h : store.Aligned) (hfound : store.findTable id = .ok table) :
    table.Aligned := by
  unfold findTable at hfound
  split at hfound
  · rename_i htable
    cases hfound
    exact h.aligned_of_table? htable
  · cases hfound

theorem Aligned.records_plain (h : store.Aligned) (id : TableId) :
    store.plain.records id = store.records id := by
  rw [MemoryStore.records, records, table?_plain]
  cases htable : store.table? id with
  | none => rfl
  | some table => simp only [Option.map_some, (h.aligned_of_table? htable).length_plain]

/-- Looking for a column goes nowhere out of bounds. -/
theorem Aligned.column_plain (h : store.Aligned) (id : TableId) (name : String) :
    (store.plain.column id name).mapError .reported = store.column id name := by
  rw [MemoryStore.column, column, findTable_plain]
  cases hfound : store.findTable id with
  | error status => rfl
  | ok table =>
      simp only [Except.map, ← (h.aligned_of_findTable hfound).localColumn_plain]
      cases MemoryStore.localColumn table.plain name <;> rfl

theorem Aligned.resolve_plain (h : store.Aligned) (name : String) :
    (store.plain.resolve name).mapError .reported = store.resolve name := by
  rw [MemoryStore.resolve, resolve]
  cases Text.splitFirst '.' name.toList with
  | some parts =>
      simp only [h.tableId?_plain, ← h.column_plain]
      cases store.tableId? (String.ofList parts.1) with
      | none => rfl
      | some id =>
          simp only
          cases store.plain.column id (String.ofList parts.2) <;> rfl
  | none =>
      simp only [h.tableId?_plain]
      cases htable : store.tableId? name with
      | some id =>
          obtain ⟨table, hfound, hname⟩ := Option.map_eq_some_iff.mp ((h.index name id).mp htable)
          have hread : store.findTable id = .ok table := by rw [findTable, hfound]
          simp only [hread, hname]
          rfl
      | none =>
          have hfunctions : store.plain.functions = store.functions := rfl
          simp only [hfunctions]
          cases store.functions.find? name <;> rfl

/-- Reading a value goes nowhere out of bounds. -/
theorem Aligned.value_plain (h : store.Aligned) (record : RecordRef) (column : ColumnId) :
    (store.plain.value record column).mapError .reported = store.value record column := by
  rw [MemoryStore.value, value, findTable_plain]
  cases hfound : store.findTable record.table with
  | error status => rfl
  | ok table =>
      have haligned := h.aligned_of_findTable hfound
      have hranges : MemoryStore.rangeOf table.plain column = table.rangeOf column := by
        cases column <;> rfl
      simp only [Except.map, hranges, haligned.rowIndex?_plain]
      by_cases hid : column = .recordId
      · rw [if_pos hid, if_pos hid]
        rfl
      · rw [if_neg hid, if_neg hid]
        cases hrange : table.rangeOf column with
        | error status => rfl
        | ok range =>
            simp only
            split
            · rfl
            · cases hrow : table.rowIndex? record.id with
              | none => rfl
              | some row =>
                  obtain ⟨found, hfound, hcell⟩ :=
                    haligned.cellAt_eq (IndexedTable.lt_of_rowIndex? hrow).1 hrange
                  simp only [Option.bind_some, hfound, hcell]
                  rfl

/-- Readers of the store cannot tell it from the plain store. -/
theorem Aligned.source_plain (h : store.Aligned) (lastStatus : Option Status) :
    store.source lastStatus = store.plain.source lastStatus := by
  have hstatus {α : Type} (answer : Except Status α) :
      (answer.mapError Failure.reported).mapError Failure.toStatus = answer := by
    cases answer <;> rfl
  simp only [source, MemoryStore.source, ← h.resolve_plain, ← h.column_plain, ← h.value_plain,
    hstatus, table?_plain, Option.map_map]
  rfl

/-- Whatever calls are made on an empty store, its readers find what they find in the plain store
after the same calls. -/
theorem source_performAll (functions : Registry) (calls : List Call) (lastStatus : Option Status) :
    ((empty functions).performAll calls).source lastStatus =
      ((MemoryStore.empty functions).performAll calls).source lastStatus := by
  have hempty := aligned_empty functions
  calc ((empty functions).performAll calls).source lastStatus
      = ((empty functions).performAll calls).plain.source lastStatus :=
        (hempty.performAll calls).source_plain lastStatus
    _ = ((empty functions).plain.performAll calls).source lastStatus := by
        rw [hempty.plain_performAll]
    _ = ((MemoryStore.empty functions).performAll calls).source lastStatus := by rw [plain_empty]

end IndexedStore

end RecordQuery

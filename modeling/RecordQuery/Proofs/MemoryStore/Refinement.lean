import RecordQuery.Proofs.MemoryStore.Events
import RecordQuery.Proofs.MemoryStore.Typing

/-!
# A store in memory is a map from cells to values

Whatever calls are made, the content of a store follows from what happened to its records
(`MemoryStore.Follows`): each call keeps that, failing ones included, and so do calls one after the
other.  A reader of the store therefore finds in each cell what was written there last and nothing
else (`refines_performAll`).
-/

namespace RecordQuery

/-! ## Stores -/

namespace MemoryStore

variable {store later : MemoryStore} {id : TableId} {table : Table} {log added : List Event}
  {record : RecordRef}

/-- Whether the content of a store follows from what happened to its records. -/
structure Follows (store : MemoryStore) (log : List Event) : Prop where
  /-- No two tables have one name. -/
  names : (store.tables.map (·.name)).Nodup
  /-- The content of each table follows. -/
  tables : ∀ id table, store.table? id = some table → table.Follows id log
  /-- Nothing happened to records or columns that do not exist. -/
  events : ∀ event ∈ log, ∃ table, store.table? event.record.table = some table ∧
    table.Admits event

theorem follows_empty (functions : Registry) : (empty functions).Follows [] where
  names := List.nodup_nil
  tables id table htable := by simp [empty, table?] at htable
  events _ hevent := absurd hevent List.not_mem_nil

theorem Follows.admits (h : store.Follows log) (htable : store.table? id = some table) :
    ∀ event ∈ log, event.record.table = id → table.Admits event := by
  intro event hevent hid
  obtain ⟨found, hfound, hadmits⟩ := h.events event hevent
  rw [hid, htable] at hfound
  rwa [Option.some.inj hfound]

/-- A changed table in place of one whose records alone something happened to. -/
theorem Follows.setTable (h : store.Follows log) {laterTable : Table}
    (htable : store.table? id = some table) (hname : laterTable.name = table.name)
    (hlater : laterTable.Follows id (log ++ added))
    (hadmits : ∀ event, table.Admits event → laterTable.Admits event)
    (hadded : ∀ event ∈ added, event.record.table = id ∧ laterTable.Admits event) :
    (store.setTable id laterTable).Follows (log ++ added) := by
  have hget : ∀ other, (store.setTable id laterTable).table? other =
      if other = id then some laterTable else store.table? other := table?_setTable htable
  refine ⟨?_, ?_, ?_⟩
  · rw [names_setTable htable hname]
    exact h.names
  · intro other found hfound
    rw [hget] at hfound
    split at hfound
    · rename_i hid
      obtain rfl := Option.some.inj hfound
      exact hid ▸ hlater
    · -- What happened to the records of this table is nothing to another one.
      rename_i hid
      exact (h.tables other found hfound).frame fun event hevent hsame =>
        hid (hsame.symm.trans (hadded event hevent).1)
  · intro event hevent
    rw [hget]
    rcases List.mem_append.mp hevent with hevent | hevent
    · split
      · rename_i hid
        exact ⟨laterTable, rfl, hadmits event (h.admits htable event hevent hid)⟩
      · exact h.events event hevent
    · obtain ⟨hid, hnew⟩ := hadded event hevent
      exact ⟨laterTable, if_pos hid, hnew⟩

/-! ### What each call keeps -/

theorem Follows.createTable (h : store.Follows log) {name : String} {keyType : Option DataType}
    (hcreate : store.createTable name keyType = .ok (id, later)) : later.Follows log := by
  obtain ⟨hnames, htables, _⟩ := createTable_eq_ok hcreate
  have hget := table?_append htables
  refine ⟨?_, ?_, ?_⟩
  · rw [htables, List.map_append]
    refine List.nodup_append.mpr ⟨h.names, List.nodup_singleton _, ?_⟩
    intro earlier hearlier other hother hsame
    obtain ⟨table, htable, rfl⟩ := List.mem_map.mp hearlier
    exact hnames table htable (hsame.trans (List.mem_singleton.mp hother))
  · intro other found hfound
    rw [hget] at hfound
    split at hfound
    · obtain rfl := Option.some.inj hfound
      exact Table.follows_empty name keyType other log
    · exact h.tables other found hfound
  · intro event hevent
    obtain ⟨table, htable, hadmits⟩ := h.events event hevent
    exact ⟨table, by rw [hget, if_neg (ne_of_table? htable), htable], hadmits⟩

theorem Follows.addColumn (h : store.Follows log) {name : String} {range : Domain}
    {column : ColumnId} (hadd : store.addColumn id name range = .ok (column, later)) :
    later.Follows log := by
  obtain ⟨hreserved, table, htable, hnew, rfl⟩ := addColumn_eq_ok hadd
  have hlater : (table.addColumn ⟨name, range⟩).Follows id log :=
    (h.tables id table htable).addColumn (h.admits htable) hreserved hnew
  rw [← List.append_nil log] at hlater ⊢
  exact h.setTable htable rfl hlater (fun event hevent => hevent.addColumn _)
    fun event hevent => absurd hevent List.not_mem_nil

theorem Follows.addRecord (h : store.Follows log) {key : Option Value}
    (hadd : store.addRecord id key = .ok (record, later)) :
    later.Follows (log ++ [.added record key]) := by
  obtain ⟨table, checked, htable, hkey, rfl, rfl⟩ := addRecord_eq_ok hadd
  have hlater := (h.tables id table htable).addRow (h.admits htable) hkey
  refine h.setTable htable rfl hlater (fun event hevent => hevent.addRow checked) ?_
  intro event hevent
  obtain rfl := List.mem_singleton.mp hevent
  refine ⟨rfl, ⟨Nat.succ_pos _, ?_⟩, fun name hname => by cases hname⟩
  simp [Event.record, Table.addRow]

theorem Follows.setValue (h : store.Follows log) {column : String} {value : Value}
    (hset : store.setValue record column value = .ok later) :
    later.Follows (log ++ [.written record column value]) := by
  obtain ⟨table, index, found, fitted, htable, hfound, rfl, ⟨hpos, hbound⟩, hfitted, rfl⟩ :=
    setValue_eq_ok hset
  obtain ⟨owner, number⟩ := record
  obtain ⟨position, rfl⟩ := Nat.exists_eq_add_one.mpr hpos
  have hlater := (h.tables owner table htable).setCell hbound hfound hfitted
  refine h.setTable htable rfl hlater (fun event hevent => hevent.setCell _ index fitted) ?_
  intro event hevent
  obtain rfl := List.mem_singleton.mp hevent
  refine ⟨rfl, ⟨hpos, by simpa [Event.record, Table.setCell] using hbound⟩, fun name hname => ?_⟩
  exact ⟨found, List.mem_of_getElem? hfound, Option.some.inj hname⟩

theorem Follows.setValues (h : store.Follows log) (record : RecordRef)
    (values : List (String × Value)) :
    (store.setValues record values).1.Follows (log ++ store.writes record values) := by
  induction values generalizing store log with
  | nil => simpa [MemoryStore.setValues, writes] using h
  | cons entry values ih =>
      obtain ⟨column, value⟩ := entry
      simp only [MemoryStore.setValues, writes]
      cases hset : store.setValue record column value with
      | error error => simpa using h
      | ok between =>
          have hlater := ih (h.setValue hset)
          rwa [List.append_assoc, List.singleton_append] at hlater

/-- Every call keeps that the content follows from what happened, whether it fails or not. -/
theorem Follows.perform (h : store.Follows log) (call : Call) :
    (store.perform call).Follows (log ++ call.events store) := by
  cases call with
  | createTable name keyType =>
      simp only [MemoryStore.perform, Call.events, List.append_nil]
      cases hcreate : store.createTable name keyType with
      | error error => exact h
      | ok answer => exact h.createTable hcreate
  | addColumn id name range =>
      simp only [MemoryStore.perform, Call.events, List.append_nil]
      cases hadd : store.addColumn id name range with
      | error error => exact h
      | ok answer => exact h.addColumn hadd
  | addRecord id key =>
      simp only [MemoryStore.perform, Call.events]
      cases hadd : store.addRecord id key with
      | error error => simpa [orKept] using h
      | ok answer => exact h.addRecord hadd
  | setValue record column value =>
      have hlater := h.setValues record [(column, value)]
      simp only [MemoryStore.perform, Call.events]
      simp only [MemoryStore.setValues] at hlater
      cases hset : store.setValue record column value with
      | error error => simpa [writes, hset] using hlater
      | ok later => simpa [writes, hset] using hlater
  | insert id key values =>
      simp only [MemoryStore.perform, Call.events, MemoryStore.insert]
      cases hadd : store.addRecord id key with
      | error error => simpa using h
      | ok answer =>
          have hlater := (h.addRecord hadd).setValues answer.1 values
          rwa [List.append_assoc, List.singleton_append] at hlater

theorem Follows.performAll (h : store.Follows log) (calls : List Call) :
    (store.performAll calls).Follows (log ++ store.eventsOf calls) := by
  induction calls generalizing store log with
  | nil => simpa [MemoryStore.performAll, eventsOf] using h
  | cons call calls ih =>
      have hlater := ih (h.perform call)
      rwa [List.append_assoc] at hlater

/-! ## What a reader finds -/

/-- Whether a value stands in a row, in the place of a column. -/
def Stands (row : Row) (value : Value) : ColumnId → Prop
  | .stored index => row.values[index]? = some value
  | .recordKey => value = row.key
  | .recordId => False

/-- Whether a store is a map from cells to what was written there last. -/
structure Refines (store : MemoryStore) (log : List Event) : Prop where
  /-- Every column can be asked for by its name. -/
  columns : ∀ id table, store.table? id = some table → ∀ (index : Nat) (column : Column),
    table.columns[index]? = some column →
    store.column id column.name =
      .ok ⟨id, .stored index, table.name ++ "." ++ column.name, column.range⟩
  /-- Keys are of the key types, and values of the ranges of their columns. -/
  typed : store.Typed
  /-- What is read of a record, for any reference and any column, stands in its row. -/
  reads : ∀ record column value, store.value record column = .ok value →
    column ≠ .recordId → record.isNil = false →
    ∃ table row, store.table? record.table = some table ∧ 0 < record.id ∧
      table.rows[record.id - 1]? = some row ∧ Stands row value column
  /-- Every record has the key it was added with, as its type has it. -/
  keys : ∀ id table, store.table? id = some table → ∀ record ∈ store.records id,
    ∃ given key, givenKey log record = some given ∧ table.checkKey given = .ok key ∧
      store.value record .recordKey = .ok key
  /-- Every cell holds what was written there last, as the range of its column has it, or what it
  holds before any value is written. -/
  cells : ∀ id table, store.table? id = some table → ∀ record ∈ store.records id,
    ∀ (index : Nat) (column : Column), table.columns[index]? = some column →
    ∃ held, store.value record (.stored index) = .ok held ∧
      Held column.range held (latest log record column.name)

theorem Follows.tableId?_eq_some_iff (h : store.Follows log) (name : String) (id : TableId) :
    store.tableId? name = some id ↔ ∃ table, store.table? id = some table ∧ table.name = name := by
  obtain ⟨number⟩ := id
  unfold tableId? table?
  rw [Option.map_eq_some_iff]
  constructor
  · rintro ⟨index, hindex, hnumber⟩
    obtain ⟨table, htable, hname⟩ := (findIdx?_eq_some_iff_of_nodup h.names).mp hindex
    obtain rfl : index + 1 = number := congrArg TableId.number hnumber
    exact ⟨table, htable, hname⟩
  · rintro ⟨table, htable, hname⟩
    obtain ⟨hnumber, hentry⟩ := Option.ite_none_left_eq_some.mp htable
    have hindex := (findIdx?_eq_some_iff_of_nodup h.names).mpr ⟨table, hentry, hname⟩
    obtain ⟨index, rfl⟩ := Nat.exists_eq_succ_of_ne_zero hnumber
    exact ⟨index, hindex, rfl⟩

theorem Follows.column_eq_ok (h : store.Follows log) (htable : store.table? id = some table)
    {index : Nat} {column : Column} (hcolumn : table.columns[index]? = some column) :
    store.column id column.name =
      .ok ⟨id, .stored index, table.name ++ "." ++ column.name, column.range⟩ := by
  have hfollows := h.tables id table htable
  -- The names of the columns that records have by themselves begin with an underscore.
  have hreserved := hfollows.unreserved column (List.mem_of_getElem? hcolumn)
  have hid : column.name ≠ "_id" := fun hname => hreserved (by rw [hname]; rfl)
  have hkey : column.name ≠ "_key" := fun hname => hreserved (by rw [hname]; rfl)
  have hindex : table.columnIndex? column.name = some index :=
    (findIdx?_eq_some_iff_of_nodup hfollows.names).mpr ⟨column, hcolumn, rfl⟩
  simp only [MemoryStore.column, findTable, htable, localColumn, if_neg hid, if_neg hkey, hindex,
    hcolumn, Option.map_some, Option.getD_some, Except.map]

theorem exists_row_of_mem_records (htable : store.table? id = some table)
    (hrecord : record ∈ store.records id) :
    ∃ position row, record = ⟨id, position + 1⟩ ∧ table.rows[position]? = some row := by
  simp only [records, htable, List.mem_map, List.mem_range] at hrecord
  obtain ⟨position, hposition, rfl⟩ := hrecord
  exact ⟨position, _, rfl, List.getElem?_eq_getElem hposition⟩

theorem value_eq_cellOf {position : Nat} {row : Row} {column : ColumnId} {range : Domain}
    (htable : store.table? id = some table) (hrow : table.rows[position]? = some row)
    (hrange : rangeOf table column = .ok range) (hcolumn : column ≠ .recordId) :
    store.value ⟨id, position + 1⟩ column = .ok (cellOf row column) := by
  have hposition := (List.getElem?_eq_some_iff.mp hrow).1
  have hindex : table.rowIndex? (position + 1) = some position :=
    if_pos ⟨Nat.succ_pos position, hposition⟩
  have hnil : (RecordRef.mk id (position + 1)).isNil = false := rfl
  simp only [MemoryStore.value, findTable, htable, if_neg hcolumn, hrange, hnil,
    Bool.false_eq_true, if_false, hindex, Option.bind_some, hrow]

/-- What is read of a record was found in its row: where the range of the column is known, its row
is wide enough. -/
theorem Follows.stands_of_value (h : store.Follows log) {column : ColumnId} {value : Value}
    (hvalue : store.value record column = .ok value) (hcolumn : column ≠ .recordId)
    (hnil : record.isNil = false) :
    ∃ table row, store.table? record.table = some table ∧ 0 < record.id ∧
      table.rows[record.id - 1]? = some row ∧ Stands row value column := by
  obtain ⟨table, htable, ⟨hid, _⟩ | ⟨_, range, hrange, hread⟩⟩ := value_eq_ok hvalue
  · exact absurd hid hcolumn
  · rcases hread with ⟨hisNil, _⟩ | ⟨_, hpos, row, hrow, rfl⟩
    · exact absurd hisNil (Bool.eq_false_iff.mp hnil)
    · refine ⟨table, row, htable, hpos, hrow, ?_⟩
      cases column with
      | recordId => exact absurd rfl hcolumn
      | recordKey => rfl
      | stored index =>
          -- The reader has a value in store for rows that are too short; none is.
          have hwidth := (h.tables _ table htable).widths row (List.mem_of_getElem? hrow)
          have hbound : index < table.columns.length := by
            by_contra hbeyond
            simp only [rangeOf, List.getElem?_eq_none (Nat.le_of_not_lt hbeyond)] at hrange
            cases hrange
          have hplace : index < row.values.length := hwidth ▸ hbound
          simp only [Stands, cellOf, List.getD_eq_getElem?_getD, List.getElem?_eq_getElem hplace,
            Option.getD_some]

theorem Follows.refines (h : store.Follows log) (htyped : store.Typed) : store.Refines log where
  columns id table htable index column hcolumn := h.column_eq_ok htable hcolumn
  typed := htyped
  reads record column value hvalue hcolumn hnil := h.stands_of_value hvalue hcolumn hnil
  keys id table htable record hrecord := by
    obtain ⟨position, row, rfl, hrow⟩ := exists_row_of_mem_records htable hrecord
    obtain ⟨given, hgiven, hkey⟩ := (h.tables id table htable).keys position row hrow
    exact ⟨given, row.key, hgiven, hkey, value_eq_cellOf htable hrow rfl (by simp)⟩
  cells id table htable record hrecord index column hcolumn := by
    obtain ⟨position, row, rfl, hrow⟩ := exists_row_of_mem_records htable hrecord
    obtain ⟨held, hheld, hlatest⟩ :=
      (h.tables id table htable).cells position index row column hrow hcolumn
    have hrange : rangeOf table (.stored index) = .ok column.range := by
      simp only [rangeOf, hcolumn]
    refine ⟨held, ?_, hlatest⟩
    rw [value_eq_cellOf htable hrow hrange (by simp)]
    simp only [cellOf, List.getD_eq_getElem?_getD, hheld, Option.getD_some]

theorem later_perform (store : MemoryStore) (call : Call) : store.Later (store.perform call) := by
  cases call with
  | createTable name keyType =>
      simp only [MemoryStore.perform]
      cases hcreate : store.createTable name keyType with
      | error error => exact .refl
      | ok answer => exact .single (.createTable hcreate)
  | addColumn id name range =>
      simp only [MemoryStore.perform]
      cases hadd : store.addColumn id name range with
      | error error => exact .refl
      | ok answer => exact .single (.addColumn hadd)
  | addRecord id key =>
      simp only [MemoryStore.perform]
      cases hadd : store.addRecord id key with
      | error error => exact .refl
      | ok answer => exact .single (.addRecord hadd)
  | setValue record column value =>
      simp only [MemoryStore.perform]
      cases hset : store.setValue record column value with
      | error error => exact .refl
      | ok later => exact .single (.setValue hset)
  | insert id key values => exact later_insert store id key values

theorem later_performAll (store : MemoryStore) (calls : List Call) :
    store.Later (store.performAll calls) := by
  induction calls generalizing store with
  | nil => exact .refl
  | cons call calls ih => exact (later_perform store call).trans (ih _)

/-- Whatever calls are made from an empty store, in any order, failing ones included: a reader of
the store finds in each cell what was written there last and nothing else. -/
theorem refines_performAll (functions : Registry) (calls : List Call) :
    ((empty functions).performAll calls).Refines ((empty functions).eventsOf calls) := by
  have hfollows := (follows_empty functions).performAll calls
  rw [List.nil_append] at hfollows
  exact hfollows.refines ((later_performAll _ calls).typed (typed_empty functions))

end MemoryStore

end RecordQuery

import RecordQuery.IndexedStore.Source
import RecordQuery.Proofs.Except
import RecordQuery.Proofs.MemoryStore.Inversion

/-!
# The vectors and the indexes of a store stay in step

A table is aligned if its records have one key and one value for each column, and if its index
names exactly the columns there are (`IndexedTable.Aligned`).  A store is aligned if its tables are
and its own index names exactly these (`IndexedStore.Aligned`).

Every way in which a call changes a table or a store keeps that.  In an aligned store a place that
comes from an index, and the row of a record that is there, lie within the vectors
(`IndexedTable.Aligned.setCell_eq`).
-/

namespace RecordQuery

/-! ## Indexes -/

/-- Whether an index names exactly what is there: a name finds a key just if the key has the
name. -/
def NameIndex.Names {κ : Type} (index : NameIndex κ) (nameOf : κ → Option String) : Prop :=
  ∀ name key, index.find? name = some key ↔ nameOf key = some name

variable {κ : Type} [DecidableEq κ] {index : NameIndex κ} {nameOf later : κ → Option String}
  {name : String} {key : κ}

/-- A new name for a new key. -/
theorem NameIndex.Names.insert (h : index.Names nameOf) (hname : index.find? name = none)
    (hkey : nameOf key = none)
    (hlater : ∀ other, later other = if other = key then some name else nameOf other) :
    (index.insert name key).Names later := by
  intro wanted other
  rw [NameIndex.find?_insert, hlater]
  by_cases hwanted : wanted = name
  · by_cases hother : other = key
    · rw [if_pos hwanted, if_pos hother, hother, hwanted]
      simp only
    · -- No other key has had the name.
      rw [if_pos hwanted, if_neg hother, hwanted, ← h name other, hname]
      simp only [Option.some.injEq, reduceCtorEq, iff_false]
      exact fun hsame => hother hsame.symm
  · by_cases hother : other = key
    · -- The key has had no other name.
      rw [if_neg hwanted, if_pos hother, h wanted other, hother, hkey]
      simp only [Option.some.injEq, reduceCtorEq, false_iff]
      exact fun hsame => hwanted hsame.symm
    · rw [if_neg hwanted, if_neg hother]
      exact h wanted other

/-! ## Tables -/

namespace IndexedTable

variable {table changed : IndexedTable} {row column : Nat}

/-- The name of the column with a number. -/
def columnName? (table : IndexedTable) (number : Nat) : Option String :=
  table.columns[number]?.map (·.name)

/-- Whether the vectors and the index of a table are in step. -/
structure Aligned (table : IndexedTable) : Prop where
  /-- Every record has a key. -/
  lengths : table.rows.length = table.keys.length
  /-- Every record has one value for each column. -/
  widths : ∀ row ∈ table.rows, row.length = table.columns.length
  /-- The index names exactly the columns there are. -/
  index : table.columnIndex.Names table.columnName?

theorem aligned_empty (name : String) (keyType : Option DataType) :
    (IndexedTable.mk name keyType [] .empty [] []).Aligned where
  lengths := rfl
  widths _ hrow := absurd hrow List.not_mem_nil
  index _ _ := by simp [columnName?]

theorem Aligned.addColumn (h : table.Aligned) {column : Column}
    (hnew : table.columnIndex.find? column.name = none) : (table.addColumn column).Aligned where
  lengths := by
    show (table.rows.map _).length = table.keys.length
    rw [List.length_map, h.lengths]
  widths row hrow := by
    obtain ⟨before, hbefore, rfl⟩ := List.mem_map.mp hrow
    show (before ++ [column.range.initial]).length = (table.columns ++ [column]).length
    rw [List.length_append, List.length_append, h.widths before hbefore]
    rfl
  index := by
    refine h.index.insert hnew ?_ ?_
    · rw [columnName?, List.getElem?_eq_none (Nat.le_refl _), Option.map_none]
    · intro other
      show (table.columns ++ [column])[other]?.map (·.name) = _
      rcases Nat.lt_trichotomy other table.columns.length with hlt | rfl | hgt
      · rw [if_neg (Nat.ne_of_lt hlt), List.getElem?_append_left hlt, columnName?]
      · simp
      · rw [if_neg (Nat.ne_of_gt hgt), columnName?, List.getElem?_eq_none (by simp; omega),
          List.getElem?_eq_none (by omega)]

theorem Aligned.addRow (h : table.Aligned) (key : Value) : (table.addRow key).Aligned where
  lengths := by
    show (table.rows ++ [_]).length = (table.keys ++ [key]).length
    rw [List.length_append, List.length_append, h.lengths]
    rfl
  widths row hrow := by
    rcases List.mem_append.mp hrow with hrow | hrow
    · exact h.widths row hrow
    · rw [List.mem_singleton.mp hrow, List.length_map]
      rfl
  index := h.index

theorem lt_of_rowIndex? {id : Nat} (h : table.rowIndex? id = some row) :
    row < table.rows.length ∧ id = row + 1 := by
  cases id with
  | zero => cases h
  | succ index =>
      obtain ⟨hbound, hrow⟩ := Option.ite_none_right_eq_some.mp h
      obtain rfl := Option.some.inj hrow
      exact ⟨hbound, rfl⟩

theorem Aligned.exists_column (h : table.Aligned) {name : String} {number : Nat}
    (hfound : table.columnIndex.find? name = some number) :
    ∃ column, table.columns[number]? = some column ∧ column.name = name :=
  Option.map_eq_some_iff.mp ((h.index name number).mp hfound)

theorem Aligned.width_eq (h : table.Aligned) (hrow : row < table.rows.length) :
    table.rows[row].length = table.columns.length :=
  h.widths _ (List.getElem_mem hrow)

/-- The table with another value in a row that is there. -/
def withCell (table : IndexedTable) (row column : Nat) (value : Value) : IndexedTable :=
  { table with rows := table.rows.modify row fun values => values.set column value }

theorem withCell_eq {values : List Value} (hvalues : table.rows[row]? = some values)
    (value : Value) :
    table.withCell row column value =
      { table with rows := table.rows.set row (values.set column value) } := by
  rw [withCell, List.modify_eq_set, hvalues, Option.getD_some]

theorem Aligned.setCell_eq (h : table.Aligned) (hrow : row < table.rows.length)
    (hcolumn : column < table.columns.length) (value : Value) :
    table.setCell row column value = .ok (table.withCell row column value) := by
  have hwidth : column < table.rows[row].length := (h.width_eq hrow).symm ▸ hcolumn
  rw [withCell_eq (List.getElem?_eq_getElem hrow)]
  simp only [setCell, elementAt, List.getElem?_eq_getElem hrow, replaceAt, if_pos hwidth,
    Except.map]

theorem setCell_eq_ok {value : Value} (hset : table.setCell row column value = .ok changed) :
    changed = table.withCell row column value := by
  unfold setCell elementAt replaceAt at hset
  cases hvalues : table.rows[row]? with
  | none =>
      rw [hvalues] at hset
      cases hset
  | some values =>
      simp only [hvalues] at hset
      obtain ⟨replaced, hreplaced, rfl⟩ := exists_of_map_eq_ok hset
      split at hreplaced
      · cases hreplaced
        exact (withCell_eq hvalues value).symm
      · cases hreplaced

theorem Aligned.withCell (h : table.Aligned) (row column : Nat) (value : Value) :
    (table.withCell row column value).Aligned where
  lengths := by
    show (table.rows.modify row _).length = table.keys.length
    rw [List.length_modify, h.lengths]
  widths changed hchanged := by
    obtain ⟨place, hplace⟩ := List.getElem?_of_mem hchanged
    rw [IndexedTable.withCell, List.getElem?_modify] at hplace
    obtain ⟨before, hbefore, rfl⟩ := Option.map_eq_some_iff.mp hplace
    have hwidth := h.widths before (List.mem_of_getElem? hbefore)
    split
    · rwa [List.length_set]
    · exact hwidth
  index := h.index

end IndexedTable

/-! ## Stores -/

namespace IndexedStore

variable {store later : IndexedStore} {id : TableId} {table : IndexedTable}

/-- The name of the table with a number. -/
def tableName? (store : IndexedStore) (id : TableId) : Option String :=
  (store.table? id).map (·.name)

/-- Whether the vectors and the indexes of a store are in step. -/
structure Aligned (store : IndexedStore) : Prop where
  /-- So are those of each table. -/
  tables : ∀ table ∈ store.tables, table.Aligned
  /-- The index names exactly the tables there are. -/
  index : store.tableIndex.Names store.tableName?

theorem aligned_empty (functions : Registry) : (empty functions).Aligned where
  tables _ htable := absurd htable List.not_mem_nil
  index _ _ := by simp [empty, tableName?, table?]

theorem Aligned.aligned_of_table? (h : store.Aligned) (htable : store.table? id = some table) :
    table.Aligned :=
  h.tables table (List.mem_of_getElem? (Option.ite_none_left_eq_some.mp htable).2)

theorem table?_of_requireTable (h : store.requireTable id = .ok table) :
    store.table? id = some table := by
  unfold requireTable at h
  split at h
  · cases h
    assumption
  · cases h

/-- An aligned table in place of one of its name. -/
theorem Aligned.setTable (h : store.Aligned) {laterTable : IndexedTable}
    (htable : store.table? id = some table) (hname : laterTable.name = table.name)
    (hlater : laterTable.Aligned) : (store.setTable id laterTable).Aligned where
  tables other hother := by
    rcases List.mem_or_eq_of_mem_set hother with hkept | rfl
    · exact h.tables other hkept
    · exact hlater
  index := by
    have hnames (other : TableId) :
        (store.setTable id laterTable).tableName? other = store.tableName? other := by
      have hget : (store.setTable id laterTable).table? other =
          if other = id then some laterTable else store.table? other :=
        numbered_set htable laterTable other
      rw [tableName?, hget]
      by_cases hother : other = id
      · rw [if_pos hother, hother, tableName?, htable, Option.map_some, Option.map_some, hname]
      · rw [if_neg hother, tableName?]
    intro name other
    rw [hnames]
    exact h.index name other

/-! ### What each call keeps -/

theorem Aligned.createTable (h : store.Aligned) {name : String} {keyType : Option DataType}
    (hcreate : store.createTable name keyType = .ok (id, later)) : later.Aligned := by
  unfold IndexedStore.createTable at hcreate
  split at hcreate
  · cases hcreate
  · rename_i hnew
    cases hcreate
    refine ⟨?_, ?_⟩
    · intro table htable
      rcases List.mem_append.mp htable with htable | htable
      · exact h.tables table htable
      · rw [List.mem_singleton.mp htable]
        exact IndexedTable.aligned_empty name keyType
    · refine h.index.insert (Option.not_isSome_iff_eq_none.mp hnew) ?_ fun other => ?_
      · simp [tableName?, table?]
      · simp only [tableName?, table?, numbered_append]
        split <;> rfl

theorem Aligned.addColumn (h : store.Aligned) {name : String} {range : Domain} {column : ColumnId}
    (hadd : store.addColumn id name range = .ok (column, later)) : later.Aligned := by
  unfold IndexedStore.addColumn at hadd
  split at hadd
  · cases hadd
  · split at hadd
    · cases hadd
    · rename_i table hrequired
      have htable := table?_of_requireTable hrequired
      split at hadd
      · cases hadd
      · rename_i hnew
        cases hadd
        have hnone := Option.not_isSome_iff_eq_none.mp hnew
        exact h.setTable htable rfl ((h.aligned_of_table? htable).addColumn hnone)

theorem Aligned.addRecord (h : store.Aligned) {key : Option Value} {record : RecordRef}
    (hadd : store.addRecord id key = .ok (record, later)) : later.Aligned := by
  unfold IndexedStore.addRecord at hadd
  split at hadd
  · cases hadd
  · rename_i table hrequired
    have htable := table?_of_requireTable hrequired
    split at hadd
    · cases hadd
    · rename_i checked _
      cases hadd
      exact h.setTable htable rfl ((h.aligned_of_table? htable).addRow checked)

theorem setValue_eq_ok {record : RecordRef} {column : String} {value : Value}
    (hset : store.setValue record column value = .ok later) :
    ∃ table row index fitted, store.table? record.table = some table ∧
      later = store.setTable record.table (table.withCell row index fitted) := by
  unfold IndexedStore.setValue at hset
  split at hset
  · cases hset
  · rename_i table hrequired
    split at hset
    · cases hset
    · rename_i index _
      split at hset
      · cases hset
      · split at hset
        · cases hset
        · rename_i row _
          split at hset
          · cases hset
          · rename_i fitted _
            obtain ⟨changed, hchanged, rfl⟩ := exists_of_map_eq_ok hset
            rw [IndexedTable.setCell_eq_ok hchanged]
            exact ⟨table, row, index, fitted, table?_of_requireTable hrequired, rfl⟩

theorem Aligned.setValue (h : store.Aligned) {record : RecordRef} {column : String} {value : Value}
    (hset : store.setValue record column value = .ok later) : later.Aligned := by
  obtain ⟨table, row, index, fitted, htable, rfl⟩ := setValue_eq_ok hset
  exact h.setTable htable rfl ((h.aligned_of_table? htable).withCell row index fitted)

theorem Aligned.setValues (h : store.Aligned) (record : RecordRef)
    (values : List (String × Value)) : (store.setValues record values).1.Aligned := by
  induction values generalizing store with
  | nil => exact h
  | cons entry values ih =>
      obtain ⟨column, value⟩ := entry
      rw [IndexedStore.setValues]
      split
      · exact h
      · rename_i between hset
        exact ih (h.setValue hset)

theorem Aligned.insert (h : store.Aligned) (id : TableId) (key : Option Value)
    (values : List (String × Value)) : (store.insert id key values).1.Aligned := by
  unfold IndexedStore.insert
  split
  · exact h
  · rename_i record added hadd
    exact (h.addRecord hadd).setValues record values

end IndexedStore

end RecordQuery

import RecordQuery.MemoryStore.Source

/-!
# What the calls on a store in memory do

The rows of a changed table are told by the rows there were (`Table.rows_addColumn` and so on), and
the tables of a changed store by the tables there were (`MemoryStore.table?_setTable`).  A call that
succeeds has passed all its checks, and the store after it differs in one table
(`MemoryStore.addRecord_eq_ok` and so on).  A value that is read is an id, a null or found in a row
(`MemoryStore.value_eq_ok`).
-/

namespace RecordQuery

/-! ## Rows -/

namespace Table

variable {table : Table} {position : Nat} {row : Row}

theorem rows_addColumn {column : Column}
    (h : (table.addColumn column).rows[position]? = some row) :
    ∃ before, table.rows[position]? = some before ∧
      row = { before with values := before.values ++ [column.range.initial] } := by
  simp only [Table.addColumn, List.getElem?_map] at h
  obtain ⟨before, hbefore, rfl⟩ := Option.map_eq_some_iff.mp h
  exact ⟨before, hbefore, rfl⟩

theorem rows_addRow {key : Value} (h : (table.addRow key).rows[position]? = some row) :
    table.rows[position]? = some row ∨ (position = table.rows.length ∧
      row = ⟨key, table.columns.map fun column => column.range.initial⟩) := by
  by_cases hposition : position < table.rows.length
  · rw [Table.addRow, List.getElem?_append_left hposition] at h
    exact Or.inl h
  · rw [Table.addRow, List.getElem?_append_right (by omega)] at h
    obtain ⟨hzero, rfl⟩ : position - table.rows.length = 0 ∧ _ = row := by
      simpa [List.getElem?_singleton] using h
    exact Or.inr ⟨by omega, rfl⟩

theorem rows_setCell {changed index : Nat} {value : Value}
    (h : (table.setCell changed index value).rows[position]? = some row) :
    ∃ before, table.rows[position]? = some before ∧ row.key = before.key ∧
      row.values = if position = changed then before.values.set index value
        else before.values := by
  simp only [Table.setCell, List.getElem?_modify] at h
  obtain ⟨before, hbefore, rfl⟩ := Option.map_eq_some_iff.mp h
  refine ⟨before, hbefore, ?_⟩
  by_cases hposition : changed = position
  · simp [hposition]
  · simp [hposition, Ne.symm hposition]

end Table

/-! ## Numbers -/

section Numbered

variable {α : Type} {tables : List α} {id : TableId} {table : α}

/-- Tables are numbered from 1: one in place of another leaves the others. -/
theorem numbered_set (h : (if id.number = 0 then none else tables[id.number - 1]?) = some table)
    (later : α) (other : TableId) :
    (if other.number = 0 then none else (tables.set (id.number - 1) later)[other.number - 1]?) =
      if other = id then some later
      else if other.number = 0 then none else tables[other.number - 1]? := by
  obtain ⟨hid, hentry⟩ := Option.ite_none_left_eq_some.mp h
  have hbound := (List.getElem?_eq_some_iff.mp hentry).1
  by_cases hother : other = id
  · rw [if_pos hother, hother, if_neg hid, List.getElem?_set_self hbound]
  · rw [if_neg hother]
    split
    · rfl
    · rename_i hnumber
      refine List.getElem?_set_ne fun hsame => hother ?_
      obtain ⟨number⟩ := id
      obtain ⟨otherNumber⟩ := other
      simp only at hid hnumber hsame
      rw [show otherNumber = number by omega]

/-- One more table has the next number. -/
theorem numbered_append (tables : List α) (new : α) (other : TableId) :
    (if other.number = 0 then none else (tables ++ [new])[other.number - 1]?) =
      if other = ⟨tables.length + 1⟩ then some new
      else if other.number = 0 then none else tables[other.number - 1]? := by
  obtain ⟨number⟩ := other
  simp only [TableId.mk.injEq]
  rcases Nat.lt_trichotomy number (tables.length + 1) with hlt | rfl | hgt
  · rw [if_neg (Nat.ne_of_lt hlt)]
    split
    · rfl
    · rw [List.getElem?_append_left (by omega)]
  · simp
  · rw [if_neg (Nat.ne_of_gt hgt), if_neg (by omega), if_neg (by omega),
      List.getElem?_eq_none (by simp; omega), List.getElem?_eq_none (by omega)]

end Numbered

/-! ## Tables -/

namespace MemoryStore

variable {store later : MemoryStore} {id : TableId} {table : Table}

theorem mem_of_table? (h : store.table? id = some table) : table ∈ store.tables := by
  unfold table? at h
  split at h
  · cases h
  · exact List.mem_of_getElem? h

theorem table?_of_requireTable (h : store.requireTable id = .ok table) :
    store.table? id = some table := by
  unfold requireTable at h
  split at h
  · cases h
    assumption
  · cases h

theorem table?_setTable {laterTable : Table} (htable : store.table? id = some table)
    (other : TableId) :
    (store.setTable id laterTable).table? other =
      if other = id then some laterTable else store.table? other :=
  numbered_set htable laterTable other

theorem names_setTable {laterTable : Table} (htable : store.table? id = some table)
    (hname : laterTable.name = table.name) :
    (store.setTable id laterTable).tables.map (·.name) = store.tables.map (·.name) := by
  have hentry := (Option.ite_none_left_eq_some.mp htable).2
  obtain ⟨hbound, hfound⟩ := List.getElem?_eq_some_iff.mp hentry
  rw [MemoryStore.setTable, List.map_set, hname, ← hfound]
  exact (List.map_set ..).symm.trans (by rw [List.set_getElem_self])

theorem table?_append {new : Table} (h : later.tables = store.tables ++ [new]) (other : TableId) :
    later.table? other =
      if other = ⟨store.tables.length + 1⟩ then some new else store.table? other := by
  rw [table?, h]
  exact numbered_append store.tables new other

theorem ne_of_table? (h : store.table? id = some table) : id ≠ ⟨store.tables.length + 1⟩ := by
  rintro rfl
  have hbound := (List.getElem?_eq_some_iff.mp (Option.ite_none_left_eq_some.mp h).2).1
  exact absurd hbound (Nat.lt_irrefl _)

/-! ## Calls that succeed -/

theorem createTable_eq_ok {name : String} {keyType : Option DataType}
    (h : store.createTable name keyType = .ok (id, later)) :
    (∀ table ∈ store.tables, table.name ≠ name) ∧
      later.tables = store.tables ++ [⟨name, keyType, [], []⟩] ∧
      id = ⟨store.tables.length + 1⟩ := by
  unfold createTable at h
  split at h
  · cases h
  · rename_i hnew
    cases h
    refine ⟨fun table htable hname => hnew ?_, rfl, by simp⟩
    simp only [tableId?, Option.isSome_map]
    exact List.findIdx?_isSome.trans (List.any_eq_true.mpr ⟨table, htable, beq_iff_eq.mpr hname⟩)

theorem addColumn_eq_ok {name : String} {range : Domain} {column : ColumnId}
    (h : store.addColumn id name range = .ok (column, later)) :
    name.toList.head? ≠ some '_' ∧ ∃ table, store.table? id = some table ∧
      (table.columnIndex? name).isSome = false ∧
      later = store.setTable id (table.addColumn ⟨name, range⟩) := by
  unfold addColumn at h
  split at h
  · cases h
  · rename_i hreserved
    split at h
    · cases h
    · rename_i table htable
      split at h
      · cases h
      · rename_i hnew
        cases h
        exact ⟨hreserved, table, table?_of_requireTable htable, by simpa using hnew, rfl⟩

theorem addRecord_eq_ok {key : Option Value} {record : RecordRef}
    (h : store.addRecord id key = .ok (record, later)) :
    ∃ table checked, store.table? id = some table ∧ table.checkKey key = .ok checked ∧
      record = ⟨id, table.rows.length + 1⟩ ∧ later = store.setTable id (table.addRow checked) := by
  unfold addRecord at h
  split at h
  · cases h
  · rename_i table htable
    split at h
    · cases h
    · rename_i checked hkey
      cases h
      exact ⟨table, checked, table?_of_requireTable htable, hkey, rfl, rfl⟩

theorem setValue_eq_ok {record : RecordRef} {column : String} {value : Value}
    (h : store.setValue record column value = .ok later) :
    ∃ table index found fitted, store.table? record.table = some table ∧
      table.columns[index]? = some found ∧ found.name = column ∧
      (0 < record.id ∧ record.id ≤ table.rows.length) ∧ value.coerce found.range = .ok fitted ∧
      later = store.setTable record.table (table.setCell (record.id - 1) index fitted) := by
  unfold setValue at h
  split at h
  · cases h
  · rename_i table htable
    split at h
    · cases h
    · rename_i index hindex
      split at h
      · cases h
      · rename_i position hposition
        obtain ⟨hrecord, hrow⟩ := Option.ite_none_right_eq_some.mp hposition
        obtain rfl := Option.some.inj hrow
        obtain ⟨hbound, hname, _⟩ := List.findIdx?_eq_some_iff_getElem.mp hindex
        simp only [List.getElem?_eq_getElem hbound, Option.map_some, Option.getD_some] at h
        split at h
        · cases h
        · rename_i fitted hfitted
          cases h
          exact ⟨table, index, _, fitted, table?_of_requireTable htable,
            List.getElem?_eq_getElem hbound, beq_iff_eq.mp hname, hrecord, hfitted, rfl⟩

/-! ## Values that are read -/

theorem value_eq_ok {record : RecordRef} {column : ColumnId} {value : Value}
    (h : store.value record column = .ok value) :
    ∃ table, store.table? record.table = some table ∧
      ((column = .recordId ∧ value = .integer (Int64.ofNat record.id)) ∨
        (column ≠ .recordId ∧ ∃ range, rangeOf table column = .ok range ∧
          ((record.isNil = true ∧ value = .null range.nullType) ∨
            (record.isNil = false ∧ 0 < record.id ∧
              ∃ row, table.rows[record.id - 1]? = some row ∧ value = cellOf row column)))) := by
  unfold MemoryStore.value findTable at h
  cases htable : store.table? record.table with
  | none =>
      rw [htable] at h
      cases h
  | some table =>
      simp only [htable] at h
      refine ⟨table, rfl, ?_⟩
      by_cases hcolumn : column = .recordId
      · rw [if_pos hcolumn] at h
        exact Or.inl ⟨hcolumn, (Except.ok.inj h).symm⟩
      · rw [if_neg hcolumn] at h
        refine Or.inr ⟨hcolumn, ?_⟩
        split at h
        · cases h
        · rename_i range hrange
          refine ⟨range, hrange, ?_⟩
          split at h
          · rename_i hnil
            exact Or.inl ⟨hnil, (Except.ok.inj h).symm⟩
          · rename_i hnil
            split at h
            · rename_i row hrow
              obtain ⟨index, hindex, hentry⟩ := Option.bind_eq_some_iff.mp hrow
              obtain ⟨⟨hpos, _⟩, hsome⟩ := Option.ite_none_right_eq_some.mp hindex
              obtain rfl := Option.some.inj hsome
              exact Or.inr ⟨Bool.eq_false_iff.mpr hnil, hpos, row, hentry,
                (Except.ok.inj h).symm⟩
            · cases h

end MemoryStore

end RecordQuery

import Mathlib.Data.List.Forall2
import Mathlib.Logic.Relation
import RecordQuery.MemoryStore.Source
import RecordQuery.Program.Machine
import RecordQuery.Proofs.MemoryStore.Inversion
import RecordQuery.Proofs.Value.Fitting

/-!
# Stores keep to the domains of their columns

A store is only changed by adding functions, tables, columns and records, and by setting values
(`Changes`).  Every change keeps the values of a column in the column's domain (`Typed`), and the
key types and columns that there are (`ExtendedBy`).  So both hold between a store and all its later
contents (`Later`).

A column that was found in a store at some time is therefore read as a value that its domain accepts
ever after (`readColumn_convertsTo`).
-/

namespace RecordQuery

/-! ## Tables -/

namespace Table

/-- Whether the keys of a table are of its key type, and its values of the domains of their
columns. -/
structure Typed (table : Table) : Prop where
  /-- The keys. -/
  keys : ∀ row ∈ table.rows, ∀ type, table.keyType = some type → row.key.FitsIn (.scalar type)
  /-- The values. -/
  values : ∀ row ∈ table.rows,
    List.Forall₂ (fun value column => value.FitsIn column.range) row.values table.columns

/-- Whether a table has the key type and the columns of another one, and maybe more columns behind
them. -/
structure ExtendedBy (table later : Table) : Prop where
  /-- The key type is the same. -/
  keyType : later.keyType = table.keyType
  /-- The columns are still there. -/
  columns : table.columns <+: later.columns

theorem ExtendedBy.refl (table : Table) : table.ExtendedBy table := ⟨rfl, List.prefix_rfl⟩

theorem ExtendedBy.trans {table later latest : Table} (h : table.ExtendedBy later)
    (hlater : later.ExtendedBy latest) : table.ExtendedBy latest :=
  ⟨hlater.keyType.trans h.keyType, h.columns.trans hlater.columns⟩

variable {table : Table}

theorem extendedBy_addColumn (table : Table) (column : Column) :
    table.ExtendedBy (table.addColumn column) :=
  ⟨rfl, List.prefix_append ..⟩

theorem Typed.addColumn (h : table.Typed) (column : Column) : (table.addColumn column).Typed := by
  refine ⟨fun row hrow type htype => ?_, fun row hrow => ?_⟩
  all_goals
    obtain ⟨position, hposition⟩ := List.getElem?_of_mem hrow
    obtain ⟨before, hbefore, rfl⟩ := rows_addColumn hposition
    have hmem := List.mem_of_getElem? hbefore
  · exact h.keys before hmem type htype
  · exact List.rel_append (h.values before hmem) (.cons column.range.fitsIn_initial .nil)

theorem Typed.addRow (h : table.Typed) {key : Value}
    (hkey : ∀ type, table.keyType = some type → key.FitsIn (.scalar type)) :
    (table.addRow key).Typed := by
  refine ⟨fun row hrow type htype => ?_, fun row hrow => ?_⟩
  · rcases List.mem_append.mp hrow with hrow | hrow
    · exact h.keys row hrow type htype
    · obtain rfl := List.mem_singleton.mp hrow
      exact hkey type htype
  · rcases List.mem_append.mp hrow with hrow | hrow
    · exact h.values row hrow
    · obtain rfl := List.mem_singleton.mp hrow
      rw [List.forall₂_map_left_iff]
      exact List.forall₂_same.mpr fun column _ => column.range.fitsIn_initial

/-- A key that a record is added with is of the key type. -/
theorem fitsIn_of_checkKey {given : Option Value} {key : Value}
    (h : table.checkKey given = .ok key) {type : DataType} (htype : table.keyType = some type) :
    key.FitsIn (.scalar type) := by
  unfold checkKey at h
  rw [htype] at h
  cases given with
  | none => cases h
  | some given =>
      simp only at h
      cases hkey : given.toScalarOf type with
      | error fault =>
          rw [hkey] at h
          cases h
      | ok fitted =>
          rw [hkey] at h
          cases h
          exact Value.fitsIn_of_toScalarOf hkey

theorem Typed.setCell (h : table.Typed) {index : Nat} {column : Column} {value : Value}
    (hcolumn : table.columns[index]? = some column) (hvalue : value.FitsIn column.range)
    (position : Nat) : (table.setCell position index value).Typed := by
  have hset {values : List Value} {columns : List Column} {index : Nat}
      (hvalues : List.Forall₂ (fun value column => value.FitsIn column.range) values columns)
      (hcolumn : columns[index]? = some column) :
      List.Forall₂ (fun value column => value.FitsIn column.range)
        (values.set index value) columns := by
    induction hvalues generalizing index with
    | nil => exact .nil
    | cons hfirst hlater ih =>
        cases index with
        | zero =>
            cases hcolumn
            exact .cons hvalue hlater
        | succ index => exact .cons hfirst (ih hcolumn)
  refine ⟨fun row hrow type htype => ?_, fun row hrow => ?_⟩
  all_goals
    obtain ⟨place, hplace⟩ := List.getElem?_of_mem hrow
    obtain ⟨before, hbefore, hkey, hvalues⟩ := rows_setCell hplace
    have hmem := List.mem_of_getElem? hbefore
  · rw [hkey]
    exact h.keys before hmem type htype
  · rw [hvalues]
    split
    · exact hset (h.values before hmem) hcolumn
    · exact h.values before hmem

end Table

/-! ## Stores -/

namespace MemoryStore

/-- Whether all tables of a store keep to the domains of their columns. -/
def Typed (store : MemoryStore) : Prop := ∀ table ∈ store.tables, table.Typed

/-- Whether the tables of a store are still there in another one, with their columns. -/
def ExtendedBy (store later : MemoryStore) : Prop :=
  ∀ id table, store.table? id = some table →
    ∃ laterTable, later.table? id = some laterTable ∧ table.ExtendedBy laterTable

theorem ExtendedBy.refl (store : MemoryStore) : store.ExtendedBy store :=
  fun _ table htable => ⟨table, htable, .refl table⟩

theorem ExtendedBy.trans {store later latest : MemoryStore} (h : store.ExtendedBy later)
    (hlater : later.ExtendedBy latest) : store.ExtendedBy latest := by
  intro id table htable
  obtain ⟨between, hbetween, hextended⟩ := h id table htable
  obtain ⟨last, hlast, hlastExtended⟩ := hlater id between hbetween
  exact ⟨last, hlast, hextended.trans hlastExtended⟩

/-- One change of a store. -/
inductive Changes (store : MemoryStore) : MemoryStore → Prop
  | register (function : ScalarFunction) : Changes store (store.register function)
  | createTable {name : String} {keyType : Option DataType} {id : TableId}
      {later : MemoryStore} :
      store.createTable name keyType = .ok (id, later) → Changes store later
  | addColumn {id : TableId} {name : String} {range : Domain} {column : ColumnId}
      {later : MemoryStore} :
      store.addColumn id name range = .ok (column, later) → Changes store later
  | addRecord {id : TableId} {key : Option Value} {record : RecordRef} {later : MemoryStore} :
      store.addRecord id key = .ok (record, later) → Changes store later
  | setValue {record : RecordRef} {column : String} {value : Value} {later : MemoryStore} :
      store.setValue record column value = .ok later → Changes store later

/-- The later contents of a store: any number of changes. -/
def Later : MemoryStore → MemoryStore → Prop := Relation.ReflTransGen Changes

variable {store later : MemoryStore} {id : TableId} {table : Table}

theorem later_setValues (store : MemoryStore) (record : RecordRef)
    (values : List (String × Value)) : store.Later (store.setValues record values).1 := by
  induction values generalizing store with
  | nil => exact .refl
  | cons entry values ih =>
      obtain ⟨column, value⟩ := entry
      rw [setValues]
      split
      · exact .refl
      · rename_i between hset
        exact .head (.setValue hset) (ih between)

theorem later_insert (store : MemoryStore) (id : TableId) (key : Option Value)
    (values : List (String × Value)) : store.Later (store.insert id key values).1 := by
  unfold insert
  split
  · exact .refl
  · rename_i record added hadded
    exact .head (.addRecord hadded) (later_setValues added record values)

/-! ### What the calls keep -/

/-- What putting an extended table in place of a table does. -/
theorem setTable_kept {laterTable : Table} (htable : store.table? id = some table)
    (hextended : table.ExtendedBy laterTable) (htyped : table.Typed → laterTable.Typed) :
    store.ExtendedBy (store.setTable id laterTable) ∧
      (store.Typed → (store.setTable id laterTable).Typed) := by
  constructor
  · intro other found hfound
    rw [table?_setTable htable]
    by_cases hother : other = id
    · rw [hother, htable] at hfound
      obtain rfl := Option.some.inj hfound
      exact ⟨laterTable, if_pos hother, hextended⟩
    · exact ⟨found, by rw [if_neg hother, hfound], .refl found⟩
  · intro hstore other hother
    rcases List.mem_or_eq_of_mem_set hother with hother | rfl
    · exact hstore other hother
    · exact htyped (hstore table (mem_of_table? htable))

theorem createTable_kept {name : String} {keyType : Option DataType}
    (h : store.createTable name keyType = .ok (id, later)) :
    store.ExtendedBy later ∧ (store.Typed → later.Typed) := by
  obtain ⟨_, htables, _⟩ := createTable_eq_ok h
  constructor
  · intro other table htable
    exact ⟨table, by rw [table?_append htables, if_neg (ne_of_table? htable), htable], .refl table⟩
  · intro hstore table hmem
    rw [htables] at hmem
    rcases List.mem_append.mp hmem with hmem | hmem
    · exact hstore table hmem
    · obtain rfl := List.mem_singleton.mp hmem
      exact ⟨fun _ hrow => absurd hrow List.not_mem_nil,
        fun _ hrow => absurd hrow List.not_mem_nil⟩

theorem addColumn_kept {name : String} {range : Domain} {column : ColumnId}
    (h : store.addColumn id name range = .ok (column, later)) :
    store.ExtendedBy later ∧ (store.Typed → later.Typed) := by
  obtain ⟨_, table, htable, _, rfl⟩ := addColumn_eq_ok h
  exact setTable_kept htable (table.extendedBy_addColumn _) fun htyped => htyped.addColumn _

theorem addRecord_kept {key : Option Value} {record : RecordRef}
    (h : store.addRecord id key = .ok (record, later)) :
    store.ExtendedBy later ∧ (store.Typed → later.Typed) := by
  obtain ⟨table, checked, htable, hkey, _, rfl⟩ := addRecord_eq_ok h
  exact setTable_kept htable ⟨rfl, List.prefix_rfl⟩
    fun htyped => htyped.addRow fun type htype => Table.fitsIn_of_checkKey hkey htype

theorem setValue_kept {record : RecordRef} {column : String} {value : Value}
    (h : store.setValue record column value = .ok later) :
    store.ExtendedBy later ∧ (store.Typed → later.Typed) := by
  obtain ⟨table, index, found, fitted, htable, hfound, _, _, hfitted, rfl⟩ := setValue_eq_ok h
  exact setTable_kept htable ⟨rfl, List.prefix_rfl⟩
    fun htyped => htyped.setCell hfound (Value.fitsIn_of_coerce hfitted) _

theorem Changes.kept (h : Changes store later) :
    store.ExtendedBy later ∧ (store.Typed → later.Typed) := by
  cases h with
  | register function => exact ⟨.refl store, id⟩
  | createTable hcreate => exact createTable_kept hcreate
  | addColumn hadd => exact addColumn_kept hadd
  | addRecord hadd => exact addRecord_kept hadd
  | setValue hset => exact setValue_kept hset

theorem Later.extendedBy (h : store.Later later) : store.ExtendedBy later := by
  induction h with
  | refl => exact .refl store
  | tail _ hchange ih => exact ih.trans hchange.kept.1

theorem Later.typed (h : store.Later later) (hstore : store.Typed) : later.Typed := by
  induction h with
  | refl => exact hstore
  | tail _ hchange ih => exact hchange.kept.2 ih

theorem typed_empty (functions : Registry) : (empty functions).Typed :=
  fun _ hmem => absurd hmem List.not_mem_nil

end MemoryStore

/-! ## Columns -/

/-- Whether a table has a column with values of a domain. -/
def Table.Has (table : Table) (column : ColumnId) (range : Domain) : Prop :=
  match column with
  | .recordId => range = .scalar .integer
  | .recordKey => ∃ type, table.keyType = some type ∧ range = .scalar type
  | .stored index => ∃ found, table.columns[index]? = some found ∧ range = found.range

theorem Table.Has.extended {table later : Table} {column : ColumnId} {range : Domain}
    (h : table.Has column range) (hextended : table.ExtendedBy later) :
    later.Has column range := by
  cases column with
  | recordId => exact h
  | recordKey =>
      obtain ⟨type, htype, hrange⟩ := h
      exact ⟨type, hextended.keyType.trans htype, hrange⟩
  | stored index =>
      obtain ⟨found, hfound, hrange⟩ := h
      obtain ⟨behind, hcolumns⟩ := hextended.columns
      have hbound := (List.getElem?_eq_some_iff.mp hfound).1
      exact ⟨found, by rw [← hcolumns, List.getElem?_append_left hbound, hfound], hrange⟩

namespace MemoryStore

theorem has_of_localColumn {table : Table} {name : String} {column : ColumnId} {range : Domain}
    (h : localColumn table name = .ok (column, range)) : table.Has column range := by
  unfold localColumn at h
  split at h
  · cases h
    rfl
  · split at h
    · split at h
      · rename_i type htype
        cases h
        exact ⟨type, htype, rfl⟩
      · cases h
    · split at h
      · rename_i index hindex
        cases h
        obtain ⟨hbound, _⟩ := List.findIdx?_eq_some_iff_getElem.mp hindex
        have hfound := List.getElem?_eq_getElem hbound
        exact ⟨_, hfound, by rw [hfound]; rfl⟩
      · cases h

/-- A row of a table holds values of the domains of the columns. -/
theorem cellOf_fitsIn {table : Table} (htyped : table.Typed) {column : ColumnId}
    {range : Domain} (hcolumn : table.Has column range) {row : Row} (hrow : row ∈ table.rows)
    (hid : column ≠ .recordId) : (cellOf row column).FitsIn range := by
  cases column with
  | recordId => exact absurd rfl hid
  | recordKey =>
      obtain ⟨type, htype, rfl⟩ := hcolumn
      exact htyped.keys row hrow type htype
  | stored index =>
      obtain ⟨found, hfound, rfl⟩ := hcolumn
      obtain ⟨hbound, rfl⟩ := List.getElem?_eq_some_iff.mp hfound
      have hvalues := htyped.values row hrow
      have hlength : index < row.values.length := hvalues.length_eq ▸ hbound
      have hfits := hvalues.get hlength hbound
      rw [cellOf, List.getD_eq_getElem?_getD, List.getElem?_eq_getElem hlength]
      exact hfits

/-- Whether a store has a column. -/
def Knows (store : MemoryStore) (column : ColumnRef) : Prop :=
  ∃ table, store.table? column.table = some table ∧ table.Has column.id column.range

variable {store later : MemoryStore} {column : ColumnRef} {name : String}

theorem knows_of_column {id : TableId} (h : store.column id name = .ok column) :
    store.Knows column := by
  unfold MemoryStore.column findTable at h
  split at h
  · cases h
  · rename_i table htable
    obtain ⟨⟨found, range⟩, hfound, rfl⟩ := exists_of_map_eq_ok h
    refine ⟨table, ?_, has_of_localColumn hfound⟩
    split at htable
    · cases htable
      assumption
    · cases htable

theorem knows_of_resolve (h : store.resolve name = .ok (.column column)) :
    store.Knows column := by
  unfold resolve at h
  split at h
  · split at h
    · obtain ⟨found, hfound, hcolumn⟩ := exists_of_map_eq_ok h
      cases hcolumn
      exact knows_of_column hfound
    · cases h
  · split at h
    · cases h
    · split at h <;> cases h

theorem Knows.stays (h : store.Knows column) (hlater : store.Later later) :
    later.Knows column := by
  obtain ⟨table, htable, hcolumn⟩ := h
  obtain ⟨laterTable, hlaterTable, hextended⟩ := hlater.extendedBy _ table htable
  exact ⟨laterTable, hlaterTable, hcolumn.extended hextended⟩

/-- The value of a column of a record is a null or belongs to the domain of the column. -/
theorem Knows.value_fitsIn (h : store.Knows column) (htyped : store.Typed)
    {record : RecordRef} {value : Value} (htable : record.table = column.table)
    (hvalue : store.value record column.id = .ok value) :
    value.isNull = true ∨ value.FitsIn column.range := by
  obtain ⟨table, hfound, hcolumn⟩ := h
  obtain ⟨other, hother, hread⟩ := value_eq_ok hvalue
  rw [htable, hfound] at hother
  obtain rfl := Option.some.inj hother
  rcases hread with ⟨hid, rfl⟩ | ⟨hid, range, _, ⟨_, rfl⟩ | ⟨_, _, row, hrow, rfl⟩⟩
  · rw [hid] at hcolumn
    rw [show column.range = .scalar .integer from hcolumn]
    exact Or.inr (Value.fitsIn_dataType (.integer _))
  · exact Or.inl rfl
  · exact Or.inr (cellOf_fitsIn (htyped table (mem_of_table? hfound)) hcolumn
      (List.mem_of_getElem? hrow) hid)

/-- Whatever is read of a column is a null or belongs to the domain of the column. -/
theorem Knows.readColumn_fitsIn (h : store.Knows column) (htyped : store.Typed)
    {status : Option Status} {record value : Value} {stored : Bool}
    (hread : Machine.readColumn (store.source status) record column = .ok (value, stored)) :
    value.isNull = true ∨ value.FitsIn column.range := by
  unfold Machine.readColumn at hread
  split at hread
  · cases hread
    exact Or.inl rfl
  · split at hread
    · cases hread
      exact Or.inl rfl
    · split at hread
      · cases hread
      · rename_i htable
        split at hread
        · rename_i answer hanswer
          cases hread
          exact h.value_fitsIn htyped (not_not.mp htable) hanswer
        · cases hread
  · cases hread

/-- Whatever is read of a column is a value that the domain of the column accepts. -/
theorem Knows.readColumn_convertsTo (h : store.Knows column) (htyped : store.Typed)
    {status : Option Status} {record value : Value} {stored : Bool}
    (hread : Machine.readColumn (store.source status) record column = .ok (value, stored)) :
    value.ConvertsTo column.range := by
  rcases h.readColumn_fitsIn htyped hread with hnull | hfits
  · exact Value.convertsTo_of_isNull hnull _
  · exact hfits.convertsTo

end MemoryStore

end RecordQuery

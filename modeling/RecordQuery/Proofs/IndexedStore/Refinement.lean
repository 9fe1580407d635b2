import RecordQuery.Proofs.IndexedStore.Simulation
import RecordQuery.Proofs.MemoryStore.Refinement

/-!
# A store with name indexes is a map from cells to values

Whatever calls are made on an empty store, its vectors and indexes stay in step, nothing is used out
of bounds, and a reader finds in each cell what was written there last and nothing else
(`IndexedStore.performAll_refines`).

The vectors and indexes are the matter of `Proofs.IndexedStore.Alignment`.  What cells hold is known
of the plain store that the store stands for (`MemoryStore.refines_performAll`) and carried over to
the vectors: the row of a record in the plain store is made of what stands in both of them at the
place of the record (`IndexedTable.rows_plain_iff`).
-/

namespace RecordQuery

/-! ## Tables -/

namespace IndexedTable

variable {table : IndexedTable} {place : Nat} {row : Row}

/-- Whether the keys of a table are of its key type, and its values of the domains of their
columns. -/
structure Typed (table : IndexedTable) : Prop where
  /-- The keys. -/
  keys : ∀ key ∈ table.keys, ∀ type, table.keyType = some type → key.FitsIn (.scalar type)
  /-- The values. -/
  values : ∀ row ∈ table.rows,
    List.Forall₂ (fun value column => value.FitsIn column.range) row table.columns

/-- Whether a value stands in the vectors at a place, for a column. -/
def Stands (table : IndexedTable) (place : Nat) (value : Value) : ColumnId → Prop
  | .stored index => ∃ values, table.rows[place]? = some values ∧ values[index]? = some value
  | .recordKey => table.keys[place]? = some value
  | .recordId => False

theorem rows_plain_iff :
    table.plain.rows[place]? = some row ↔
      table.keys[place]? = some row.key ∧ table.rows[place]? = some row.values := by
  rw [plain, List.getElem?_zipWith]
  cases table.keys[place]? with
  | none => simp
  | some key =>
      cases table.rows[place]? with
      | none => simp
      | some values =>
          obtain ⟨rowKey, rowValues⟩ := row
          simp

theorem Aligned.typed (h : table.Aligned) (htyped : table.plain.Typed) : table.Typed := by
  -- Each key and each row is part of a row of the plain table.
  have hrow {place : Nat} (hkey : place < table.keys.length) (hvalues : place < table.rows.length) :
      ⟨table.keys[place], table.rows[place]⟩ ∈ table.plain.rows :=
    List.mem_of_getElem? (rows_plain_iff.mpr
      ⟨List.getElem?_eq_getElem hkey, List.getElem?_eq_getElem hvalues⟩)
  refine ⟨fun key hkey type htype => ?_, fun row hvalues => ?_⟩
  · obtain ⟨place, hplace, rfl⟩ := List.getElem_of_mem hkey
    exact htyped.keys _ (hrow hplace (h.lengths ▸ hplace)) type htype
  · obtain ⟨place, hplace, rfl⟩ := List.getElem_of_mem hvalues
    exact htyped.values _ (hrow (h.lengths ▸ hplace) hplace)

theorem stands_of_plain {column : ColumnId} {value : Value}
    (hrow : table.plain.rows[place]? = some row) (hstands : MemoryStore.Stands row value column) :
    table.Stands place value column := by
  obtain ⟨hkey, hvalues⟩ := rows_plain_iff.mp hrow
  cases column with
  | recordId => exact hstands
  | recordKey =>
      show table.keys[place]? = some value
      rw [hkey, show value = row.key from hstands]
  | stored index => exact ⟨row.values, hvalues, hstands⟩

end IndexedTable

namespace IndexedStore

open MemoryStore (Call Event Held latest givenKey)

variable {store : IndexedStore} {log : List Event}

/-! ## What calls do to records -/

/-- What setting values one after the other does, up to the first that fails. -/
def writes (store : IndexedStore) (record : RecordRef) : List (String × Value) → List Event
  | [] => []
  | (column, value) :: later =>
    match store.setValue record column value with
    | .error _ => []
    | .ok store => .written record column value :: store.writes record later

/-- What a call does to records. -/
def events (store : IndexedStore) : Call → List Event
  | .createTable _ _ | .addColumn _ _ _ => []
  | .addRecord id key =>
    match store.addRecord id key with
    | .error _ => []
    | .ok (record, _) => [.added record key]
  | .setValue record column value => store.writes record [(column, value)]
  | .insert id key values =>
    match store.addRecord id key with
    | .error _ => []
    | .ok (record, added) => .added record key :: added.writes record values

/-- What calls one after the other do to records, in order. -/
def eventsOf (store : IndexedStore) : List Call → List Event
  | [] => []
  | call :: calls => store.events call ++ (store.perform call).eventsOf calls

theorem Aligned.writes_plain (h : store.Aligned) (record : RecordRef)
    (values : List (String × Value)) :
    store.writes record values = store.plain.writes record values := by
  induction values generalizing store with
  | nil => rfl
  | cons entry values ih =>
      obtain ⟨column, value⟩ := entry
      rw [writes, MemoryStore.writes]
      cases hset : store.setValue record column value with
      | error failure =>
          obtain ⟨error, _, hplain⟩ := h.setValue_error hset
          rw [hplain]
      | ok later =>
          rw [h.setValue_ok hset]
          exact congrArg _ (ih (h.setValue hset))

theorem Aligned.events_plain (h : store.Aligned) (call : Call) :
    store.events call = call.events store.plain := by
  cases call with
  | createTable _ _ | addColumn _ _ _ => rfl
  | addRecord id key =>
      rw [events, Call.events, h.addRecord_plain]
      cases store.addRecord id key <;> rfl
  | setValue record column value => exact h.writes_plain record [(column, value)]
  | insert id key values =>
      rw [events, Call.events, h.addRecord_plain]
      cases hadd : store.addRecord id key with
      | error error => rfl
      | ok answer => exact congrArg _ ((h.addRecord hadd).writes_plain answer.1 values)

theorem Aligned.eventsOf_plain (h : store.Aligned) (calls : List Call) :
    store.eventsOf calls = store.plain.eventsOf calls := by
  induction calls generalizing store with
  | nil => rfl
  | cons call calls ih =>
      calc store.events call ++ (store.perform call).eventsOf calls
          = call.events store.plain ++ (store.perform call).plain.eventsOf calls := by
            rw [h.events_plain, ih (h.perform call)]
        _ = call.events store.plain ++ (store.plain.perform call).eventsOf calls := by
            rw [h.plain_perform]

/-! ## What a reader finds -/

/-- Whether nothing that is asked of a store, and no value that is set, is out of bounds. -/
structure Bounded (store : IndexedStore) : Prop where
  setValue : ∀ record column value, store.setValue record column value ≠ .error .outOfBounds
  insert : ∀ id key values, (store.insert id key values).2 ≠ .error .outOfBounds
  column : ∀ id name, store.column id name ≠ .error .outOfBounds
  resolve : ∀ name, store.resolve name ≠ .error .outOfBounds
  /-- For any record and any column, whether they exist or not. -/
  value : ∀ record column, store.value record column ≠ .error .outOfBounds

/-- Whether a store is a map from cells to what was written there last. -/
structure Refines (store : IndexedStore) (log : List Event) : Prop where
  /-- Every record has a key and one value for each column, and names find exactly the tables and
  columns there are. -/
  aligned : store.Aligned
  /-- Keys are of the key types, and values of the ranges of their columns. -/
  typed : ∀ table ∈ store.tables, table.Typed
  /-- Nothing is out of bounds. -/
  bounded : store.Bounded
  /-- Every column can be asked for by its name. -/
  columns : ∀ id table, store.table? id = some table → ∀ (index : Nat) (column : Column),
    table.columns[index]? = some column →
    store.column id column.name =
      .ok ⟨id, .stored index, table.name ++ "." ++ column.name, column.range⟩
  /-- What is read of a record, for any reference and any column, stands in its place. -/
  reads : ∀ record column value, store.value record column = .ok value →
    column ≠ .recordId → record.isNil = false →
    ∃ table place, store.table? record.table = some table ∧ record.id = place + 1 ∧
      table.Stands place value column
  /-- Every record has the key it was added with, as its type has it. -/
  keys : ∀ id table, store.table? id = some table → ∀ record ∈ store.records id,
    ∃ given key, givenKey log record = some given ∧ table.checkKey given = .ok key ∧
      store.value record .recordKey = .ok key
  /-- Every cell holds what was written there last, as the range of its column has it, or what it
  holds before any value is written. -/
  cells : ∀ id table, store.table? id = some table → ∀ record ∈ store.records id,
    ∀ (index : Nat) (column : Column), table.columns[index]? = some column →
    ∃ held, store.value record (.stored index) = .ok held ∧
      Held column.range held (latest log record column.name)

theorem ne_outOfBounds {ε α : Type} {answer : Except ε α} {found : Except (Failure ε) α}
    (h : answer.mapError .reported = found) : found ≠ .error .outOfBounds := by
  rintro rfl
  obtain ⟨error, _, hreported⟩ := exists_of_mapError_eq_error h
  cases hreported

theorem Aligned.bounded (h : store.Aligned) : store.Bounded where
  setValue record column value hset := by
    obtain ⟨_, hreported, _⟩ := h.setValue_error hset
    cases hreported
  insert id key values := ne_outOfBounds (h.insert_plain id key values).2.symm
  column id name := ne_outOfBounds (h.column_plain id name)
  resolve name := ne_outOfBounds (h.resolve_plain name)
  value record column := ne_outOfBounds (h.value_plain record column)

/-- A plain store that is such a map is one of cells of the store. -/
theorem Aligned.refines (h : store.Aligned) (hplain : store.plain.Refines log) :
    store.Refines log := by
  have htable {id : TableId} {table : IndexedTable} (htable : store.table? id = some table) :
      store.plain.table? id = some table.plain := by
    rw [table?_plain, htable, Option.map_some]
  refine ⟨h, ?_, h.bounded, ?_, ?_, ?_, ?_⟩
  · intro table hmem
    exact (h.tables table hmem).typed (hplain.typed _ (List.mem_map_of_mem hmem))
  · intro id table hfound index column hcolumn
    rw [← h.column_plain, hplain.columns id _ (htable hfound) index column hcolumn]
    rfl
  · intro record column value hvalue hcolumn hnil
    rw [← h.value_plain] at hvalue
    have hread : store.plain.value record column = .ok value := eq_ok_of_mapError_eq_ok hvalue
    obtain ⟨found, row, hfound, hpos, hrow, hstands⟩ :=
      hplain.reads record column value hread hcolumn hnil
    rw [table?_plain] at hfound
    obtain ⟨table, htable, rfl⟩ := Option.map_eq_some_iff.mp hfound
    exact ⟨table, record.id - 1, htable, (Nat.sub_add_cancel hpos).symm,
      IndexedTable.stands_of_plain hrow hstands⟩
  · intro id table hfound record hrecord
    rw [← h.records_plain] at hrecord
    obtain ⟨given, key, hgiven, hkey, hvalue⟩ := hplain.keys id _ (htable hfound) record hrecord
    refine ⟨given, key, hgiven, hkey, ?_⟩
    rw [← h.value_plain, hvalue]
    rfl
  · intro id table hfound record hrecord index column hcolumn
    rw [← h.records_plain] at hrecord
    obtain ⟨held, hvalue, hheld⟩ :=
      hplain.cells id _ (htable hfound) record hrecord index column hcolumn
    refine ⟨held, ?_, hheld⟩
    rw [← h.value_plain, hvalue]
    rfl

/-- Whatever calls are made on an empty store, in any order, failing ones included: its vectors and
indexes are in step, nothing is out of bounds, and a reader of the store finds in each cell what was
written there last and nothing else. -/
theorem performAll_refines (functions : Registry) (calls : List Call) :
    ((empty functions).performAll calls).Refines ((empty functions).eventsOf calls) := by
  have hempty := aligned_empty functions
  refine (hempty.performAll calls).refines ?_
  rw [hempty.plain_performAll, hempty.eventsOf_plain, plain_empty]
  exact MemoryStore.refines_performAll functions calls

end IndexedStore

end RecordQuery

import Mathlib.Data.List.Nodup
import RecordQuery.Proofs.MemoryStore.Inversion

/-!
# What happened to the records of a store

Calls change a store in memory (`MemoryStore.Call`); a call that fails leaves it as it was, but for
the values that an insertion has set before its failure.  What calls did to records is told by
events: a record was added with a key, or a value was written into a cell.

The cells of a record are told apart by the names of their columns.  What a cell should hold is the
value that was written into it last, as the range of its column has it, or the value before any is
written (`Held`).  A table follows from what happened to its records where all its cells hold what
they should, and every change of a table keeps that (`Table.Follows`).
-/

namespace RecordQuery.MemoryStore

/-! ## Calls -/

/-- A call that changes a store. -/
inductive Call where
  | createTable (name : String) (keyType : Option DataType)
  | addColumn (id : TableId) (name : String) (range : Domain)
  | addRecord (id : TableId) (key : Option Value)
  | setValue (record : RecordRef) (column : String) (value : Value)
  | insert (id : TableId) (key : Option Value) (values : List (String × Value))

/-- The store that a computation answers besides other things or, where it fails, the one there
was. -/
def orKept {α : Type} (store : MemoryStore) : Except Error (α × MemoryStore) → MemoryStore
  | .ok (_, later) => later
  | .error _ => store

/-- The store after a call, whether it fails or not. -/
def perform (store : MemoryStore) : Call → MemoryStore
  | .createTable name keyType => store.orKept (store.createTable name keyType)
  | .addColumn id name range => store.orKept (store.addColumn id name range)
  | .addRecord id key => store.orKept (store.addRecord id key)
  | .setValue record column value =>
    match store.setValue record column value with
    | .ok later => later
    | .error _ => store
  | .insert id key values => (store.insert id key values).1

/-- The store after calls one after the other. -/
def performAll (store : MemoryStore) (calls : List Call) : MemoryStore :=
  calls.foldl perform store

/-! ## Events -/

/-- What happened to a record. -/
inductive Event where
  | added (record : RecordRef) (key : Option Value)
  | written (record : RecordRef) (column : String) (value : Value)

/-- The record that an event is about. -/
def Event.record : Event → RecordRef
  | added record _ | written record _ _ => record

/-- The column that an event writes to. -/
def Event.column? : Event → Option String
  | added _ _ => none
  | written _ column _ => some column

/-- The value that an event writes into a cell, if it does. -/
def Event.wrote? (record : RecordRef) (column : String) : Event → Option Value
  | added _ _ => none
  | written other name value => if other = record ∧ name = column then some value else none

/-- The key that an event adds a record with, if it does. -/
def Event.gave? (record : RecordRef) : Event → Option (Option Value)
  | added other key => if other = record then some key else none
  | written _ _ _ => none

/-- What setting values one after the other does, up to the first that fails. -/
def writes (store : MemoryStore) (record : RecordRef) : List (String × Value) → List Event
  | [] => []
  | (column, value) :: later =>
    match store.setValue record column value with
    | .error _ => []
    | .ok store => .written record column value :: store.writes record later

/-- What a call does to records. -/
def Call.events (store : MemoryStore) : Call → List Event
  | .createTable _ _ | .addColumn _ _ _ => []
  | .addRecord id key =>
    match store.addRecord id key with
    | .error _ => []
    | .ok (record, _) => [.added record key]
  | .setValue record column value => store.writes record [(column, value)]
  | .insert id key values =>
    match store.addRecord id key with
    | .error _ => []
    | .ok (record, added) => .added record key :: added.writes record values

/-- What calls one after the other do to records, in order. -/
def eventsOf (store : MemoryStore) : List Call → List Event
  | [] => []
  | call :: calls => call.events store ++ (store.perform call).eventsOf calls

/-! ## What cells hold -/

/-- The value that was written last into a cell. -/
def latest (log : List Event) (record : RecordRef) (column : String) : Option Value :=
  log.reverse.findSome? (Event.wrote? record column)

/-- The key that a record was added with. -/
def givenKey (log : List Event) (record : RecordRef) : Option (Option Value) :=
  log.findSome? (Event.gave? record)

/-- Whether a cell holds what it should by the value that was written last. -/
def Held (range : Domain) (held : Value) : Option Value → Prop
  | some written => written.coerce range = .ok held
  | none => held = range.initial

variable {log added : List Event} {record : RecordRef} {column : String}

theorem latest_append (log added : List Event) (record : RecordRef) (column : String) :
    latest (log ++ added) record column =
      (latest added record column).or (latest log record column) := by
  simp [latest, List.reverse_append, List.findSome?_append]

theorem givenKey_append (log added : List Event) (record : RecordRef) :
    givenKey (log ++ added) record = (givenKey log record).or (givenKey added record) := by
  simp [givenKey, List.findSome?_append]

theorem latest_eq_none (h : ∀ event ∈ added, event.record = record → event.column? ≠ some column) :
    latest added record column = none := by
  refine List.findSome?_eq_none_iff.mpr ?_
  intro event hevent
  have hother := h event (List.mem_reverse.mp hevent)
  cases event with
  | added _ _ => rfl
  | written other name value =>
      refine if_neg ?_
      rintro ⟨hrecord, hname⟩
      exact hother hrecord (congrArg some hname)

theorem givenKey_eq_none (h : ∀ event ∈ added, event.record ≠ record) :
    givenKey added record = none := by
  refine List.findSome?_eq_none_iff.mpr ?_
  intro event hevent
  cases event with
  | added other key => exact if_neg (h _ hevent)
  | written _ _ _ => rfl

theorem latest_append_of_untouched
    (h : ∀ event ∈ added, event.record = record → event.column? ≠ some column) :
    latest (log ++ added) record column = latest log record column := by
  rw [latest_append, latest_eq_none h, Option.none_or]

theorem givenKey_append_of_given {given : Option Value} (h : givenKey log record = some given) :
    givenKey (log ++ added) record = some given := by
  rw [givenKey_append, h, Option.some_or]

end RecordQuery.MemoryStore

namespace RecordQuery

/-- In a row without repetitions the first place that is found is the only one. -/
theorem findIdx?_eq_some_iff_of_nodup {α : Type} {row : List α} {name : α → String}
    (h : (row.map name).Nodup) {wanted : String} {index : Nat} :
    row.findIdx? (fun entry => name entry == wanted) = some index ↔
      ∃ entry, row[index]? = some entry ∧ name entry = wanted := by
  constructor
  · intro hfound
    obtain ⟨hbound, hname, _⟩ := List.findIdx?_eq_some_iff_getElem.mp hfound
    exact ⟨row[index], List.getElem?_eq_getElem hbound, beq_iff_eq.mp hname⟩
  · rintro ⟨entry, hentry, hname⟩
    obtain ⟨hbound, rfl⟩ := List.getElem?_eq_some_iff.mp hentry
    refine List.findIdx?_eq_some_iff_getElem.mpr ⟨hbound, beq_iff_eq.mpr hname, ?_⟩
    intro earlier hearlier hsame
    have hsome := List.getElem?_eq_getElem (Nat.lt_trans hearlier hbound)
    have hnames : (row.map name)[earlier]? = (row.map name)[index]? := by
      rw [List.getElem?_map, List.getElem?_map, hsome, hentry, Option.map_some, Option.map_some,
        beq_iff_eq.mp hsame, hname]
    have hlength : earlier < (row.map name).length := by
      rw [List.length_map]
      exact Nat.lt_trans hearlier hbound
    exact Nat.ne_of_lt hearlier ((List.getElem?_inj hlength h).mp hnames)

/-! ## Tables -/

namespace Table

open MemoryStore (Event Held latest givenKey)

variable {table later : Table} {id : TableId} {log added : List Event} {event : Event}

/-- Whether an event is about a record of a table and, if it writes, about one of its columns. -/
structure Admits (table : Table) (event : Event) : Prop where
  record : 0 < event.record.id ∧ event.record.id ≤ table.rows.length
  column : ∀ name ∈ event.column?, ∃ column ∈ table.columns, column.name = name

/-- Whether the content of a table follows from what happened to its records. -/
structure Follows (table : Table) (id : TableId) (log : List Event) : Prop where
  /-- No two columns have one name. -/
  names : (table.columns.map (·.name)).Nodup
  /-- No column has the name of one that records have by themselves. -/
  unreserved : ∀ column ∈ table.columns, column.name.toList.head? ≠ some '_'
  /-- Every record has the key it was added with. -/
  keys : ∀ (position : Nat) (row : Row), table.rows[position]? = some row →
    ∃ given, givenKey log ⟨id, position + 1⟩ = some given ∧ table.checkKey given = .ok row.key
  /-- Every record has one value for each column. -/
  widths : ∀ row ∈ table.rows, row.values.length = table.columns.length
  /-- Every cell holds what was written there last. -/
  cells : ∀ (position index : Nat) (row : Row) (column : Column),
    table.rows[position]? = some row → table.columns[index]? = some column →
    ∃ held, row.values[index]? = some held ∧
      Held column.range held (latest log ⟨id, position + 1⟩ column.name)

/-- What happens to records of other tables makes no difference. -/
theorem Follows.frame (h : table.Follows id log)
    (hadded : ∀ event ∈ added, event.record.table ≠ id) : table.Follows id (log ++ added) := by
  have hother {position : Nat} {event : Event} (hevent : event ∈ added) :
      event.record ≠ ⟨id, position⟩ := by
    intro hsame
    exact hadded event hevent (congrArg RecordRef.table hsame)
  refine ⟨h.names, h.unreserved, ?_, h.widths, ?_⟩
  · intro position row hrow
    obtain ⟨given, hgiven, hkey⟩ := h.keys position row hrow
    exact ⟨given, MemoryStore.givenKey_append_of_given hgiven, hkey⟩
  · intro position index row column hrow hcolumn
    obtain ⟨held, hheld, hlatest⟩ := h.cells position index row column hrow hcolumn
    refine ⟨held, hheld, ?_⟩
    rwa [MemoryStore.latest_append_of_untouched fun event hevent hsame =>
      absurd hsame (hother hevent)]

theorem follows_empty (name : String) (keyType : Option DataType) (id : TableId)
    (log : List Event) : (Table.mk name keyType [] []).Follows id log where
  names := List.nodup_nil
  unreserved _ hcolumn := absurd hcolumn List.not_mem_nil
  keys _ _ hrow := by cases hrow
  widths _ hrow := absurd hrow List.not_mem_nil
  cells _ _ _ _ hrow := by cases hrow

/-! ### A new column -/

theorem Admits.addColumn (h : table.Admits event) (column : Column) :
    (table.addColumn column).Admits event := by
  refine ⟨by simpa [Table.addColumn] using h.record, ?_⟩
  intro name hname
  obtain ⟨found, hfound, hsame⟩ := h.column name hname
  exact ⟨found, List.mem_append_left _ hfound, hsame⟩

theorem columnIndex?_eq_none {name : String} (h : (table.columnIndex? name).isSome = false) :
    ∀ column ∈ table.columns, column.name ≠ name := by
  intro column hcolumn hname
  have hnone := Option.isNone_iff_eq_none.mp (Option.isSome_eq_false_iff.mp h)
  have hother := List.findIdx?_eq_none_iff.mp hnone column hcolumn
  simp [hname] at hother

/-- A new column holds in all records what it holds before any value is written. -/
theorem Follows.addColumn (h : table.Follows id log)
    (hlog : ∀ event ∈ log, event.record.table = id → table.Admits event) {column : Column}
    (hreserved : column.name.toList.head? ≠ some '_')
    (hnew : (table.columnIndex? column.name).isSome = false) :
    (table.addColumn column).Follows id log := by
  have hnames := columnIndex?_eq_none hnew
  refine ⟨?_, ?_, ?_, ?_, ?_⟩
  · simp only [Table.addColumn, List.map_append, List.map_cons, List.map_nil]
    refine List.nodup_append.mpr ⟨h.names, List.nodup_singleton _, ?_⟩
    intro name hname other hother hsame
    obtain ⟨found, hfound, rfl⟩ := List.mem_map.mp hname
    exact hnames found hfound (hsame.trans (List.mem_singleton.mp hother))
  · intro found hfound
    rcases List.mem_append.mp hfound with hfound | hfound
    · exact h.unreserved found hfound
    · rwa [List.mem_singleton.mp hfound]
  · intro position row hrow
    obtain ⟨before, hbefore, rfl⟩ := rows_addColumn hrow
    exact h.keys position before hbefore
  · intro row hrow
    obtain ⟨before, hbefore, rfl⟩ := List.mem_map.mp hrow
    simp [Table.addColumn, h.widths before hbefore]
  · intro position index row found hrow hfound
    obtain ⟨before, hbefore, rfl⟩ := rows_addColumn hrow
    have hwidth := h.widths before (List.mem_of_getElem? hbefore)
    by_cases hindex : index < table.columns.length
    · -- An earlier column is as it was.
      rw [Table.addColumn, List.getElem?_append_left hindex] at hfound
      obtain ⟨held, hheld, hlatest⟩ := h.cells position index before found hbefore hfound
      exact ⟨held, by rw [List.getElem?_append_left (by omega), hheld], hlatest⟩
    · rw [Table.addColumn, List.getElem?_append_right (by omega)] at hfound
      obtain ⟨hzero, rfl⟩ : index - table.columns.length = 0 ∧ column = found := by
        simpa [List.getElem?_singleton] using hfound
      refine ⟨column.range.initial, ?_, ?_⟩
      · rw [List.getElem?_append_right (by omega), hwidth, hzero]
        rfl
      · -- Nothing was written to a column that did not exist.
        rw [MemoryStore.latest_eq_none]
        · rfl
        · intro event hevent hrecord hname
          have hadmits := hlog event hevent (congrArg RecordRef.table hrecord)
          obtain ⟨other, hother, hsame⟩ := hadmits.column _ hname
          exact hnames other hother hsame

/-! ### A new record -/

theorem Admits.addRow (h : table.Admits event) (key : Value) : (table.addRow key).Admits event := by
  refine ⟨⟨h.record.1, ?_⟩, h.column⟩
  have hbound := h.record.2
  simp only [Table.addRow, List.length_append, List.length_singleton]
  omega

/-- A new record holds in all columns what they hold before any value is written. -/
theorem Follows.addRow (h : table.Follows id log)
    (hlog : ∀ event ∈ log, event.record.table = id → table.Admits event) {given : Option Value}
    {key : Value} (hkey : table.checkKey given = .ok key) :
    (table.addRow key).Follows id (log ++ [.added ⟨id, table.rows.length + 1⟩ given]) := by
  -- Nothing happened to the record before it was added.
  have hfresh : ∀ event ∈ log, event.record ≠ ⟨id, table.rows.length + 1⟩ := by
    intro event hevent hsame
    have hbound := (hlog event hevent (congrArg RecordRef.table hsame)).record.2
    rw [hsame] at hbound
    exact absurd hbound (Nat.not_succ_le_self _)
  have hlatest (record : RecordRef) (name : String) :
      latest (log ++ [.added ⟨id, table.rows.length + 1⟩ given]) record name =
        latest log record name := by
    refine MemoryStore.latest_append_of_untouched ?_
    intro event hevent _ hname
    rw [List.mem_singleton.mp hevent] at hname
    cases hname
  refine ⟨h.names, h.unreserved, ?_, ?_, ?_⟩
  · intro position row hrow
    rcases rows_addRow hrow with hrow | ⟨rfl, rfl⟩
    · obtain ⟨earlier, hgiven, hchecked⟩ := h.keys position row hrow
      exact ⟨earlier, MemoryStore.givenKey_append_of_given hgiven, hchecked⟩
    · refine ⟨given, ?_, hkey⟩
      rw [MemoryStore.givenKey_append, MemoryStore.givenKey_eq_none hfresh, Option.none_or]
      simp [givenKey, Event.gave?]
  · intro row hrow
    rcases List.mem_append.mp hrow with hrow | hrow
    · exact h.widths row hrow
    · rw [List.mem_singleton.mp hrow, List.length_map]
      rfl
  · intro position index row column hrow hcolumn
    rw [hlatest]
    rcases rows_addRow hrow with hrow | ⟨rfl, rfl⟩
    · exact h.cells position index row column hrow hcolumn
    · have hnone : latest log ⟨id, table.rows.length + 1⟩ column.name = none :=
        MemoryStore.latest_eq_none fun event hevent hsame => absurd hsame (hfresh event hevent)
      have hfound : table.columns[index]? = some column := hcolumn
      refine ⟨column.range.initial, ?_, ?_⟩
      · rw [List.getElem?_map, hfound]
        rfl
      · rw [hnone]
        rfl

/-! ### A value -/

theorem Follows.index_eq (h : table.Follows id log) {index other : Nat} {column found : Column}
    (hcolumn : table.columns[index]? = some column) (hfound : table.columns[other]? = some found)
    (hname : column.name = found.name) : index = other := by
  have hindex := (findIdx?_eq_some_iff_of_nodup h.names).mpr ⟨column, hcolumn, hname⟩
  have hother := (findIdx?_eq_some_iff_of_nodup h.names).mpr ⟨found, hfound, rfl⟩
  exact Option.some.inj (hindex.symm.trans hother)

theorem Admits.setCell (h : table.Admits event) (position index : Nat) (value : Value) :
    (table.setCell position index value).Admits event :=
  ⟨by simpa [Table.setCell] using h.record, h.column⟩

/-- A value changes the cell it is written into and no other one. -/
theorem Follows.setCell (h : table.Follows id log) {position index : Nat} {column : Column}
    {value fitted : Value} (hposition : position < table.rows.length)
    (hcolumn : table.columns[index]? = some column)
    (hfitted : value.coerce column.range = .ok fitted) :
    (table.setCell position index fitted).Follows id
      (log ++ [.written ⟨id, position + 1⟩ column.name value]) := by
  refine ⟨h.names, h.unreserved, ?_, ?_, ?_⟩
  · intro place row hrow
    obtain ⟨before, hbefore, hkey, _⟩ := rows_setCell hrow
    obtain ⟨given, hgiven, hchecked⟩ := h.keys place before hbefore
    exact ⟨given, MemoryStore.givenKey_append_of_given hgiven, by rw [hkey]; exact hchecked⟩
  · intro row hrow
    obtain ⟨place, hplace⟩ := List.getElem?_of_mem hrow
    obtain ⟨before, hbefore, _, hvalues⟩ := rows_setCell hplace
    have hwidth := h.widths before (List.mem_of_getElem? hbefore)
    rw [hvalues]
    split
    · rw [List.length_set]
      exact hwidth
    · exact hwidth
  · intro place other row found hrow hfound
    obtain ⟨before, hbefore, _, hvalues⟩ := rows_setCell hrow
    obtain ⟨held, hheld, hlatest⟩ := h.cells place other before found hbefore hfound
    by_cases hcell : place = position ∧ other = index
    · obtain ⟨rfl, rfl⟩ := hcell
      obtain rfl : column = found := Option.some.inj (hcolumn.symm.trans hfound)
      have hbound := (List.getElem?_eq_some_iff.mp hheld).1
      refine ⟨fitted, by rw [hvalues, if_pos rfl, List.getElem?_set_self hbound], ?_⟩
      have hwritten : latest (log ++ [.written ⟨id, place + 1⟩ column.name value])
          ⟨id, place + 1⟩ column.name = some value := by
        simp [latest, Event.wrote?]
      rw [hwritten]
      exact hfitted
    · refine ⟨held, ?_, ?_⟩
      · rw [hvalues]
        split
        · rename_i hplace
          rw [List.getElem?_set_ne fun hsame => hcell ⟨hplace, hsame.symm⟩, hheld]
        · exact hheld
      · -- Different columns have different names.
        rwa [MemoryStore.latest_append_of_untouched]
        intro event hevent hrecord hname
        obtain rfl := List.mem_singleton.mp hevent
        refine hcell ⟨?_, ?_⟩
        · have hids := congrArg RecordRef.id hrecord
          exact (Nat.succ.inj hids).symm
        · exact h.index_eq hfound hcolumn (Option.some.inj hname).symm

end Table

end RecordQuery

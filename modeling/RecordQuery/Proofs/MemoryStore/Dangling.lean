import RecordQuery.Proofs.Expression.Resolution
import RecordQuery.Proofs.MemoryStore.FailedCalls
import RecordQuery.Proofs.MemoryStore.Names
import RecordQuery.Regexp.Standard

/-!
# References to records that were never added

The records of a store are those that were added to it at some time (`Later.mem_records_iff`): every
change leaves the records there were, and only an addition brings one more
(`Changes.exists_records`).

A stored column and the key answer a reference just if there is its record, and what they answer
then stands in its row; otherwise they report that the record does not exist, and so does every
expression that reads the column (`value_iff_added`).  The id is the exception: it is answered
without a look at the records (`value_of_missing_id`).
-/

namespace RecordQuery

/-! ## Expressions that read one column -/

namespace Compile

variable {source : Source} {vars : Variables} {domain : Domain} {name : String}
  {column : ColumnRef}

/-- The slot of a constant name behind the step of a record. -/
def nameSlot (name : String) : Slot :=
  { Slot.ofDomain (.scalar .text) 1 with constant := some (.text name) }

theorem requireRecord_of_fitsIn {record : RecordRef} (h : (Value.record record).FitsIn domain)
    (index : Nat) : requireRecord index domain = .ok () := by
  cases domain with
  | any | table _ => rfl
  | scalar type =>
      cases type with
      | null | record => rfl
      | _ => cases h

/-- A column is read of what variable 0 holds, and nothing else is left. -/
theorem compile_readPath [Regexp.Matcher] (hdomain : vars.domain? 0 = some domain) :
    compile source vars (Operation.readPath [name]) =
      (Draft.readColumn ⟨#[.loadVariable 0, .load (.text name)], []⟩ ⟨source, vars⟩ 2
        (.ofDomain domain 0) (nameSlot name)).bind fun draft => draft.conclude 2 := by
  have hsmall : ¬ maxCount < 0 := Nat.not_lt_zero _
  have hpush : Draft.start.add ⟨source, vars⟩ 0 (.push (.variableAt 0)) =
      .ok ⟨#[.loadVariable 0], [.ofDomain domain 0]⟩ := by
    simp only [Draft.add, Operation.push, Draft.pushOperand, hdomain, if_neg hsmall, if_true]
    rfl
  have hread : Draft.start.addAll ⟨source, vars⟩ 0 (Operation.readPath [name]) =
      Draft.readColumn ⟨#[.loadVariable 0, .load (.text name)], []⟩ ⟨source, vars⟩ 2
        (.ofDomain domain 0) (nameSlot name) := by
    rw [Operation.readPath, Draft.addAll, hpush]
    exact Draft.addAll_singleton _
  rw [compile, hread, if_neg (by simp [Operation.readPath])]
  cases Draft.readColumn ⟨#[.loadVariable 0, .load (.text name)], []⟩ ⟨source, vars⟩ 2
    (.ofDomain domain 0) (nameSlot name) <;> rfl

/-- Whether the table of the record is known or not, the program fails as reading the column
does. -/
theorem exists_compile_readPath [Regexp.Matcher] {record : RecordRef}
    (hdomain : vars.domain? 0 = some domain) (hfits : (Value.record record).FitsIn domain)
    (hcolumn : source.column record.table name = .ok column) {error : Error}
    (hread : Machine.readColumn source (.record record) column = .error error) :
    ∃ compiled, compile source vars (Operation.readPath [name]) = .ok compiled ∧
      ∀ env : Environment, env.source = source → env.variable 0 = .ok (.record record) →
        (Machine.run env compiled.program).result = .error error := by
  have hrecord := requireRecord_of_fitsIn hfits 2
  rw [compile_readPath hdomain]
  cases domain with
  | table table =>
      have htable : record.table = table := by
        by_contra hother
        simp [Value.FitsIn, Value.coerce, Value.toRecordOf, hother] at hfits
      subst htable
      refine ⟨⟨.ofOps [.loadVariable 0, .getColumn column], column.range, []⟩, ?_, ?_⟩
      · simp only [Draft.readColumn, columnOf, nameSlot, Slot.ofDomain, hcolumn]
        rfl
      · intro env hsource hheld
        simp only [Machine.run, Machine.runOps, Program.ofOps, Program.fuse, Machine.steps,
          Machine.step, hheld, Machine.State.readColumn, hsource, hread]
        rfl
  | any | scalar type =>
      refine ⟨⟨.ofOps [.loadVariable 0, .load (.text name), .getValue], .any, []⟩, ?_, ?_⟩
      · simp only [Draft.readColumn, columnOf, nameSlot, Slot.ofDomain, hrecord]
        rfl
      · intro env hsource hheld
        simp only [Machine.run, Machine.runOps, Program.ofOps, Program.fuse, Machine.steps,
          Machine.step, hheld, Except.map, Machine.State.push, Machine.State.put,
          Machine.State.readNamed, hcolumn, Machine.State.readColumn, hsource, hread]
        rfl

end Compile

/-- An expression that reads a column of a record fails as reading the column does. -/
theorem Expression.AsksOf.execute_readPath [Regexp.Matcher] {e : Expression} {domain : Domain}
    (h : e.AsksOf domain)
    {source : Source} {record : RecordRef} {name : String} {column : ColumnRef}
    (hfits : (Value.record record).FitsIn domain) (hfailure : source.failure? = none)
    (hcolumn : source.column record.table name = .ok column) {error : Error}
    (hread : Machine.readColumn source (.record record) column = .error error) :
    ((e.extend (Operation.readPath [name])).execute source [.record record]).2 = .error error := by
  have hlist : (e.extend (Operation.readPath [name])).operations.toList =
      Operation.readPath [name] := by
    simp [extend, h.operations]
  obtain ⟨compiled, hcompiled, hruns⟩ :=
    Compile.exists_compile_readPath h.domain hfits hcolumn hread
  rw [← hlist] at hcompiled
  obtain ⟨ready, hready⟩ :
      ∃ ready, (e.extend (Operation.readPath [name])).compile source = .ok ready := by
    simp only [compile, extend, h.stage, if_true] at hcompiled ⊢
    simp only [hcompiled, hfailure]
    exact ⟨_, rfl⟩
  obtain ⟨bound, hover, hmade, _, hexecute⟩ :=
    exists_execute_record (e := e.extend (Operation.readPath [name])) h.stage h.domain hfits
      hcompiled hready
  have hrun := hruns ⟨source, some bound⟩ rfl hover.held
  rw [hexecute]
  simp only [runProgram, hmade, hrun]

namespace MemoryStore

variable {functions : Registry} {store later : MemoryStore} {id : TableId} {table : Table}
  {record : RecordRef} {name : String} {column : ColumnRef}

/-! ## The records of a store -/

theorem mem_records_iff :
    record ∈ store.records record.table ↔
      ∃ table, store.table? record.table = some table ∧ 0 < record.id ∧
        record.id ≤ table.rows.length := by
  obtain ⟨owner, number⟩ := record
  constructor
  · intro hmem
    cases htable : store.table? owner with
    | none => simp [records, htable] at hmem
    | some table =>
        obtain ⟨position, row, hrecord, hrow⟩ := exists_row_of_mem_records htable hmem
        have hbound := (List.getElem?_eq_some_iff.mp hrow).1
        obtain rfl : number = position + 1 := congrArg RecordRef.id hrecord
        exact ⟨table, rfl, Nat.succ_pos position, hbound⟩
  · rintro ⟨table, htable, hpos, hbound⟩
    obtain ⟨position, rfl⟩ : ∃ position, number = position + 1 := Nat.exists_eq_add_one.mpr hpos
    rw [records_eq htable]
    exact List.mem_map.mpr ⟨position, List.mem_range.mpr hbound, rfl⟩

theorem records_createTable {keyType : Option DataType} {created : TableId}
    (hcreate : store.createTable name keyType = .ok (created, later)) (id : TableId) :
    later.records id = store.records id := by
  obtain ⟨_, htables, _⟩ := createTable_eq_ok hcreate
  simp only [records, table?_append htables]
  by_cases hid : id = ⟨store.tables.length + 1⟩
  · cases htable : store.table? id with
    | none => rw [if_pos hid]; rfl
    | some table => exact absurd hid (ne_of_table? htable)
  · rw [if_neg hid]

theorem records_setTable_of_length {changed : TableId} {laterTable : Table}
    (htable : store.table? changed = some table)
    (hlength : laterTable.rows.length = table.rows.length) (id : TableId) :
    (store.setTable changed laterTable).records id = store.records id := by
  rw [records_setTable htable]
  by_cases hid : id = changed
  · rw [if_pos hid, hid, records_eq htable, hlength]
  · rw [if_neg hid]

/-- A change leaves the records there were, and a record that it brings was added by it. -/
theorem Changes.exists_records (h : Changes store later) (id : TableId) :
    ∃ added, later.records id = store.records id ++ added ∧
      ∀ record ∈ added, ∃ key, store.addRecord record.table key = .ok (record, later) := by
  have hsame (hrecords : later.records id = store.records id) :
      ∃ added, later.records id = store.records id ++ added ∧
        ∀ record ∈ added, ∃ key, store.addRecord record.table key = .ok (record, later) :=
    ⟨[], by rw [hrecords, List.append_nil], fun _ hmem => absurd hmem List.not_mem_nil⟩
  cases h with
  | register function => exact hsame rfl
  | createTable hcreate => exact hsame (records_createTable hcreate id)
  | addColumn hadd =>
      obtain ⟨_, table, htable, _, rfl⟩ := addColumn_eq_ok hadd
      exact hsame (records_setTable_of_length htable (List.length_map _) id)
  | @addRecord owner key record _ hadd =>
      obtain ⟨_, _, _, _, hrecord, _⟩ := addRecord_eq_ok hadd
      have howner : record.table = owner := by rw [hrecord]
      refine ⟨_, (hasBesides_addRecord hadd).records id, fun other hmem => ?_⟩
      split at hmem
      · obtain rfl := List.mem_singleton.mp hmem
        exact ⟨key, howner ▸ hadd⟩
      · cases hmem
  | setValue hset =>
      obtain ⟨table, _, _, _, htable, _, _, _, _, rfl⟩ := setValue_eq_ok hset
      exact hsame (records_setTable_of_length htable (List.length_modify ..) id)

/-- Whether a record was added at some time on the way from an empty store. -/
def HasAdded (functions : Registry) (store : MemoryStore) (record : RecordRef) : Prop :=
  ∃ before key after, (empty functions).Later before ∧
    before.addRecord record.table key = .ok (record, after) ∧ after.Later store

/-- No change takes a record away. -/
theorem Later.mem_records (h : store.Later later) (hmem : record ∈ store.records id) :
    record ∈ later.records id := by
  induction h with
  | refl => exact hmem
  | tail _ hchange ih =>
      obtain ⟨added, hadded, _⟩ := hchange.exists_records id
      rw [hadded]
      exact List.mem_append_left _ ih

/-- The records there are are those that were added. -/
theorem Later.mem_records_iff (h : (empty functions).Later store) :
    record ∈ store.records record.table ↔ HasAdded functions store record := by
  constructor
  · intro hmem
    induction h with
    | refl =>
        obtain ⟨table, htable, _⟩ := MemoryStore.mem_records_iff.mp hmem
        simp [empty, table?] at htable
    | tail hbetween hchange ih =>
        obtain ⟨added, hadded, hkeys⟩ := hchange.exists_records record.table
        rw [hadded] at hmem
        rcases List.mem_append.mp hmem with hmem | hmem
        · obtain ⟨before, key, after, hbefore, hadd, hafter⟩ := ih hmem
          exact ⟨before, key, after, hbefore, hadd, hafter.tail hchange⟩
        · obtain ⟨key, hadd⟩ := hkeys record hmem
          exact ⟨_, key, _, hbetween, hadd, .refl⟩
  · rintro ⟨before, key, after, _, hadd, hafter⟩
    refine hafter.mem_records ?_
    rw [(hasBesides_addRecord hadd).records, if_pos rfl]
    exact List.mem_append_right _ (List.mem_singleton_self record)

/-! ## Columns of references -/

/-- The name of the id is the only one that finds it. -/
theorem column_id_iff (h : store.column id name = .ok column) :
    column.id = .recordId ↔ name = "_id" := by
  unfold MemoryStore.column at h
  split at h
  · cases h
  · obtain ⟨⟨found, range⟩, hfound, rfl⟩ := exists_of_map_eq_ok h
    unfold localColumn at hfound
    split at hfound
    · cases hfound
      simpa
    · split at hfound
      · split at hfound
        · cases hfound
          simpa
        · cases hfound
      · split at hfound
        · cases hfound
          simpa
        · cases hfound

/-- A column that a table has is a column that is read with its domain. -/
theorem rangeOf_of_has {found : ColumnId} {range : Domain} (h : table.Has found range) :
    rangeOf table found = .ok range := by
  cases found with
  | recordId => rw [show range = .scalar .integer from h, rangeOf]
  | recordKey =>
      obtain ⟨type, htype, rfl⟩ := h
      simp only [rangeOf, htype, Option.getD_some]
  | stored index =>
      obtain ⟨stored, hstored, rfl⟩ := h
      simp only [rangeOf, hstored]

/-- The report that a record does not exist. -/
def noRecord (table : Table) (record : RecordRef) : Status :=
  .notFound ("no such record: <" ++ table.name ++ ":" ++ toString record.id ++ ">")

/-- A reference to a record that is not there has no value in any column but the id. -/
theorem value_of_not_mem (hnil : record.isNil = false)
    (hcolumn : store.column record.table name = .ok column) (hid : column.id ≠ .recordId)
    (hmem : record ∉ store.records record.table) :
    ∃ table, store.table? record.table = some table ∧
      store.value record column.id = .error (noRecord table record) := by
  obtain ⟨table, htable, hhas⟩ := knows_of_column hcolumn
  obtain ⟨_, _, howner, _⟩ := names_of_column hcolumn
  rw [howner] at htable
  have hrow : table.rowIndex? record.id = none :=
    if_neg fun hbounds => hmem (mem_records_iff.mpr ⟨table, htable, hbounds⟩)
  refine ⟨table, htable, ?_⟩
  simp only [MemoryStore.value, findTable, htable, if_neg hid, rangeOf_of_has hhas, hnil,
    Bool.false_eq_true, if_false, hrow, Option.bind_none]
  rfl

/-- A reference to a record that is there has a value in every column but the id. -/
theorem exists_value_of_mem (hcolumn : store.column record.table name = .ok column)
    (hid : column.id ≠ .recordId) (hmem : record ∈ store.records record.table) :
    ∃ value, store.value record column.id = .ok value := by
  obtain ⟨table, htable, hhas⟩ := knows_of_column hcolumn
  obtain ⟨_, _, howner, _⟩ := names_of_column hcolumn
  rw [howner] at htable
  obtain ⟨position, row, hrecord, hrow⟩ := exists_row_of_mem_records htable hmem
  rw [hrecord]
  exact ⟨_, value_eq_cellOf htable hrow (rangeOf_of_has hhas) hid⟩

theorem value_recordId (hcolumn : store.column record.table name = .ok column)
    (hid : column.id = .recordId) :
    store.value record column.id = .ok (.integer (Int64.ofNat record.id)) := by
  obtain ⟨table, htable, howner, _⟩ := names_of_column hcolumn
  simp only [MemoryStore.value, findTable, htable, if_pos hid]

/-- A column other than the id has a value for a reference just if its record was added; the value
then stands in the row of the record.  For all other references the store reports that there is no
such record, and so does the run of every expression that reads the column of the reference, whether
the table of the record is known to it or not.  The id alone is answered for all of them. -/
theorem value_iff_added [Regexp.Matcher] (hstore : (empty functions).Later store)
    (hnil : record.isNil = false) (hcolumn : store.column record.table name = .ok column) :
    (record ∈ store.records record.table ↔ HasAdded functions store record) ∧
    (name ≠ "_id" →
      ((∃ value, store.value record column.id = .ok value) ↔
        record ∈ store.records record.table) ∧
      (∀ value, store.value record column.id = .ok value →
        ∃ table row, store.table? record.table = some table ∧
          table.rows[record.id - 1]? = some row ∧ Stands row value column.id) ∧
      (record ∉ store.records record.table → ∃ table error,
        store.table? record.table = some table ∧
        error = .store .runtime (noRecord table record) ∧
        error.phase = .runtime ∧ error.isNotFound = true ∧
        store.value record column.id = .error (noRecord table record) ∧
        Machine.readColumn (store.source none) (.record record) column = .error error ∧
        ∀ (e : Expression) (domain : Domain), e.AsksOf domain →
          (Value.record record).FitsIn domain →
          ((e.extend (Operation.readPath [name])).execute (store.source none)
            [.record record]).2 = .error error)) ∧
    (name = "_id" → store.value record column.id = .ok (.integer (Int64.ofNat record.id))) := by
  obtain ⟨log, hlog⟩ := exists_follows hstore
  obtain ⟨_, _, howner, _⟩ := names_of_column hcolumn
  refine ⟨hstore.mem_records_iff, fun hname => ?_, fun hname =>
    value_recordId hcolumn ((column_id_iff hcolumn).mpr hname)⟩
  have hid : column.id ≠ .recordId := fun hid => hname ((column_id_iff hcolumn).mp hid)
  refine ⟨⟨?_, exists_value_of_mem hcolumn hid⟩, ?_, ?_⟩
  · rintro ⟨value, hvalue⟩
    by_contra hmem
    obtain ⟨table, _, hnone⟩ := value_of_not_mem hnil hcolumn hid hmem
    cases hvalue.symm.trans hnone
  · intro value hvalue
    obtain ⟨table, row, htable, _, hrow, hstands⟩ := hlog.stands_of_value hvalue hid hnil
    exact ⟨table, row, htable, hrow, hstands⟩
  · intro hmem
    obtain ⟨table, htable, hvalue⟩ := value_of_not_mem hnil hcolumn hid hmem
    have hread : Machine.readColumn (store.source none) (.record record) column =
        .error (.store .runtime (noRecord table record)) := by
      have hsame : ¬ record.table ≠ column.table := not_not.mpr howner.symm
      have hsource : (store.source none).value record column.id =
          .error (noRecord table record) := hvalue
      simp only [Machine.readColumn, hnil, Bool.false_eq_true, if_false, if_neg hsame, hsource]
    exact ⟨table, _, htable, rfl, rfl, rfl, hvalue, hread, fun e domain he hfits =>
      he.execute_readPath hfits rfl hcolumn hread⟩

/-- The key of the ninth person, where there is only one. -/
theorem value_iff_added_people :
    let store := (empty .empty).performAll
      [.createTable "People" (some .text), .addColumn ⟨1⟩ "age" (.scalar .integer),
        .insert ⟨1⟩ (some (.text "Ann")) [("age", .integer 7)]]
    let missing : RecordRef := ⟨⟨1⟩, 9⟩
    missing.isNil = false ∧
      store.column ⟨1⟩ "_key" = .ok ⟨⟨1⟩, .recordKey, "People._key", .scalar .text⟩ ∧
      missing ∉ store.records ⟨1⟩ ∧ ¬ HasAdded .empty store missing ∧
      ∃ error : Error, error.phase = .runtime ∧ error.isNotFound = true ∧
        (((Expression.onRecords none ⟨1⟩).extend (Operation.readPath ["_key"])).execute
          (store.source none) [.record missing]).2 = .error error := by
  intro store missing
  have hreached : (empty .empty).Later store := later_performAll _ _
  have hcolumn : store.column missing.table "_key" =
      .ok ⟨⟨1⟩, .recordKey, "People._key", .scalar .text⟩ := by decide +kernel
  have hmissing : missing ∉ store.records missing.table := by decide +kernel
  obtain ⟨hadded, hread, _⟩ := value_iff_added hreached rfl hcolumn
  obtain ⟨table, error, _, _, hphase, hfound, _, _, hexecute⟩ := (hread (by decide)).2.2 hmissing
  have hasks : (Expression.onRecords none ⟨1⟩).AsksOf (.table ⟨1⟩) := ⟨rfl, rfl, rfl⟩
  exact ⟨rfl, hcolumn, hmissing, fun h => hmissing (hadded.mpr h), error, hphase, hfound,
    hexecute _ _ hasks (Value.fitsIn_table missing)⟩

/-- The id of the ninth person is answered all the same, by the store and by an expression. -/
theorem value_of_missing_id :
    let store := (empty .empty).performAll
      [.createTable "People" (some .text), .insert ⟨1⟩ (some (.text "Ann")) []]
    let missing : RecordRef := ⟨⟨1⟩, 9⟩
    missing.isNil = false ∧
      store.column ⟨1⟩ "_id" = .ok ⟨⟨1⟩, .recordId, "People._id", .scalar .integer⟩ ∧
      missing ∉ store.records ⟨1⟩ ∧
      store.value missing .recordId = .ok (.integer 9) ∧
      (((Expression.onRecords none ⟨1⟩).extend (Operation.readPath ["_id"])).execute
        (store.source none) [.record missing]).2 = .ok (.integer 9) := by
  decide +kernel

end MemoryStore

end RecordQuery

import RecordQuery.Proofs.Condition.Building
import RecordQuery.Proofs.MemoryStore.Refinement
import RecordQuery.Proofs.Text.Split
import RecordQuery.Regexp.Standard

/-!
# Names of columns

The name of a column is written as the name of its table, a dot and its name there, and it is taken
apart twice: a store looks up the table before the first dot (`MemoryStore.resolve`), and a builder
takes what follows the last one for the name in the table (`ColumnBuilder.localName`).  Nothing
keeps dots out of names, so the first leads back to the column just if the name of the table has no
dot (`MemoryStore.Follows.resolve_iff`), and the second just if the name of the column has none
(`MemoryStore.column_localName_iff`).
-/

namespace RecordQuery

/-- Whether a name is one of a column of a table: a stored one, the id, or the key if there are
keys. -/
def Table.HasName (table : Table) (name : String) : Prop :=
  name = "_id" ∨ (name = "_key" ∧ table.keyType.isSome = true) ∨
    ∃ column ∈ table.columns, column.name = name

namespace MemoryStore

variable {store : MemoryStore} {id : TableId} {table : Table} {log : List Event} {name : String}
  {column : ColumnRef}

/-! ## Stores that are reached -/

/-- Whatever changes led to a store, its content follows from what happened to its records. -/
theorem exists_follows {functions : Registry} (h : (empty functions).Later store) :
    ∃ log, store.Follows log := by
  induction h with
  | refl => exact ⟨[], follows_empty functions⟩
  | tail _ hchange ih =>
      obtain ⟨log, hlog⟩ := ih
      cases hchange with
      | register function => exact ⟨log, hlog.names, hlog.tables, hlog.events⟩
      | createTable hcreate => exact ⟨log, hlog.createTable hcreate⟩
      | addColumn hadd => exact ⟨log, hlog.addColumn hadd⟩
      | addRecord hadd => exact ⟨_, hlog.addRecord hadd⟩
      | setValue hset => exact ⟨_, hlog.setValue hset⟩

/-! ## Columns by their names -/

/-- A column that is found belongs to the table, and is called by it and the name. -/
theorem names_of_column (h : store.column id name = .ok column) :
    ∃ table, store.table? id = some table ∧ column.table = id ∧
      column.name = table.name ++ "." ++ name := by
  unfold MemoryStore.column findTable at h
  cases htable : store.table? id with
  | none =>
      rw [htable] at h
      cases h
  | some table =>
      rw [htable] at h
      obtain ⟨_, _, rfl⟩ := exists_of_map_eq_ok h
      exact ⟨table, rfl, rfl, rfl⟩

theorem column_of_localColumn {found : ColumnId} {range : Domain}
    (htable : store.table? id = some table) (h : localColumn table name = .ok (found, range)) :
    store.column id name = .ok ⟨id, found, table.name ++ "." ++ name, range⟩ := by
  simp only [MemoryStore.column, findTable, htable, h, Except.map]

/-- Every column is found by its name. -/
theorem Follows.exists_column (h : store.Follows log) (htable : store.table? id = some table)
    (hname : table.HasName name) : ∃ column, store.column id name = .ok column := by
  rcases hname with rfl | ⟨rfl, hkeys⟩ | ⟨stored, hmem, rfl⟩
  · exact ⟨_, column_of_localColumn htable rfl⟩
  · obtain ⟨type, htype⟩ := Option.isSome_iff_exists.mp hkeys
    have hkey : ("_key" : String) ≠ "_id" := by decide
    have hlocal : localColumn table "_key" = .ok (.recordKey, .scalar type) := by
      simp only [localColumn, if_neg hkey, if_true, htype]
    exact ⟨_, column_of_localColumn htable hlocal⟩
  · obtain ⟨index, hindex⟩ := List.getElem?_of_mem hmem
    exact ⟨_, h.column_eq_ok htable hindex⟩

/-- The full name of a column leads back to it just if the name of the table has no dot. -/
theorem Follows.resolve_iff (h : store.Follows log) (htable : store.table? id = some table)
    (hcolumn : store.column id name = .ok column) :
    store.resolve column.name = .ok (.column column) ↔ '.' ∉ table.name.toList := by
  obtain ⟨found, hfound, hid, hfull⟩ := names_of_column hcolumn
  obtain rfl : found = table := Option.some.inj (hfound.symm.trans htable)
  constructor
  · intro hresolve
    unfold resolve at hresolve
    split at hresolve
    · rename_i before after hsplit
      split at hresolve
      · rename_i other hother
        obtain ⟨resolved, hresolved, heq⟩ := exists_of_map_eq_ok hresolve
        obtain rfl : resolved = column := by injection heq
        -- The table before the first dot is the one of the column, so it has the name before it.
        obtain ⟨_, _, hsame, _⟩ := names_of_column hresolved
        obtain ⟨named, hnamed, hname⟩ := (h.tableId?_eq_some_iff _ _).mp hother
        rw [← hsame, hid, htable] at hnamed
        rw [Option.some.inj hnamed, hname, String.toList_ofList]
        exact Text.notMem_of_splitFirst hsplit
      · cases hresolve
    · split at hresolve
      · cases hresolve
      · split at hresolve <;> cases hresolve
  · intro hdot
    have hlist : column.name.toList = found.name.toList ++ '.' :: name.toList := by
      rw [hfull]
      simp
    have hsplit : Text.splitFirst '.' column.name.toList =
        some (found.name.toList, name.toList) := by
      rw [hlist]
      exact Text.splitFirst_append (fun c hc => ne_of_mem_of_not_mem hc hdot) name.toList
    have htableId : store.tableId? found.name = some id :=
      (h.tableId?_eq_some_iff _ _).mpr ⟨found, htable, rfl⟩
    simp only [resolve, hsplit, String.ofList_toList, htableId, hcolumn]
    rfl

section Builders

variable {builder : ColumnBuilder} (hcolumn : store.column id name = .ok builder.column)

include hcolumn

theorem localName_of_notMem (hdot : '.' ∉ name.toList) : builder.localName = name := by
  obtain ⟨_, _, _, hfull⟩ := names_of_column hcolumn
  rw [ColumnBuilder.localName, hfull, Text.afterLastDot_append hdot]

/-- A builder asks for its column just if the name of the column has no dot. -/
theorem column_localName_iff :
    store.column id builder.localName = .ok builder.column ↔ '.' ∉ name.toList := by
  obtain ⟨table, htable, _, hfull⟩ := names_of_column hcolumn
  constructor
  · intro hlocal
    obtain ⟨found, hfound, _, hname⟩ := names_of_column hlocal
    obtain rfl : found = table := Option.some.inj (hfound.symm.trans htable)
    rw [hfull, String.append_right_inj] at hname
    rw [hname]
    exact Text.notMem_afterLastDot _
  · intro hdot
    rw [localName_of_notMem hcolumn hdot, hcolumn]

/-- What a builder compares is its column, if the name of the column has no dot: the expression
reads it from the record and applies the operator to what it holds. -/
theorem execute_compare [Regexp.Matcher] (hdot : '.' ∉ name.toList) (hquery : builder.query = none)
    {status : Option Status} {operator : Operator} {value : Value} {ready : Expression}
    (hready : builder.build (store.source status) (some (builder.compare operator value)) =
      .ok ready) :
    ∃ range, ready.range? = some range ∧ ∀ record : RecordRef, record.table = id →
      (ready.execute (store.source status) [.record record]).2 =
        ((Machine.readColumn (store.source status) (.record record) builder.column).bind
          fun (held, _) => Condition.applied (store.source status) operator builder.column held
            (builder.comparand value)).bind (Expression.kept range) := by
  obtain ⟨_, _, rfl, _⟩ := names_of_column hcolumn
  have hproper : (builder.compare operator value).Proper := trivial
  have hbuilt : ((Expression.onRecords builder.name builder.column.table).extend
      (builder.compare operator value).operations).compile (store.source status) = .ok ready := by
    rw [← Condition.toExpression_eq _ _ _ hproper, ← hready, ColumnBuilder.build, hquery]
    rfl
  obtain ⟨compiled, hcompiled⟩ := Condition.exists_compiledAs hproper hbuilt
  refine ⟨compiled.range, by simp [Expression.range?, hcompiled.made], fun record hrecord => ?_⟩
  have hnone (call : Expression.Call) (hmem : call ∈ []) : call ≠ .reset :=
    absurd hmem List.not_mem_nil
  have hread : (store.source status).column record.table builder.localName =
      .ok builder.column := by
    rw [hrecord]
    exact (column_localName_iff hcolumn).mpr hdot
  rw [← hrecord] at hcompiled
  calc (ready.execute (store.source status) [.record record]).2
      = ((builder.compare operator value).meaning (store.source status) record).bind
          (Expression.kept compiled.range) := hcompiled.execute_eq hnone
    _ = _ := by simp only [ColumnBuilder.compare, Condition.meaning, hread]

end Builders

/-! ## Round trips -/

/-- Every column is found by its name in the table.  The full name it is answered with leads back to
it just if the name of the table has no dot, and the name by which a builder asks for it just if its
own name has none.  Then what the builder compares is this column. -/
theorem column_roundTrip [Regexp.Matcher] {functions : Registry}
    (hstore : (empty functions).Later store)
    (htable : store.table? id = some table) (hname : table.HasName name) :
    ∃ column, store.column id name = .ok column ∧
      (store.resolve column.name = .ok (.column column) ↔ '.' ∉ table.name.toList) ∧
      ∀ builder : ColumnBuilder, builder.column = column →
        (store.column id builder.localName = .ok column ↔ '.' ∉ name.toList) ∧
        ('.' ∉ name.toList → builder.query = none → ∀ status operator value ready,
          builder.build (store.source status) (some (builder.compare operator value)) =
            .ok ready →
          ∃ range, ready.range? = some range ∧ ∀ record : RecordRef, record.table = id →
            (ready.execute (store.source status) [.record record]).2 =
              ((Machine.readColumn (store.source status) (.record record) column).bind
                fun (held, _) => Condition.applied (store.source status) operator column held
                  (builder.comparand value)).bind (Expression.kept range)) := by
  obtain ⟨log, hlog⟩ := exists_follows hstore
  obtain ⟨column, hcolumn⟩ := hlog.exists_column htable hname
  refine ⟨column, hcolumn, hlog.resolve_iff htable hcolumn, fun builder hbuilder => ?_⟩
  subst hbuilder
  exact ⟨column_localName_iff hcolumn, fun hdot hquery status operator value ready hready =>
    execute_compare hcolumn hdot hquery hready⟩

/-- A column of people, by a store that is filled with two calls. -/
theorem column_roundTrip_people :
    let store := (empty .empty).performAll
      [.createTable "People" none, .addColumn ⟨1⟩ "name" (.scalar .text)]
    let column : ColumnRef := ⟨⟨1⟩, .stored 0, "People.name", .scalar .text⟩
    store.column ⟨1⟩ "name" = .ok column ∧
      store.resolve "People.name" = .ok (.column column) ∧
      store.column ⟨1⟩ ({ column := column } : ColumnBuilder).localName = .ok column := by
  intro store column
  have hreached : (empty .empty).Later store := later_performAll _ _
  have htable : store.table? ⟨1⟩ = some ⟨"People", none, [⟨"name", .scalar .text⟩], []⟩ := by
    decide +kernel
  have hcolumn : store.column ⟨1⟩ "name" = .ok column := by decide +kernel
  obtain ⟨found, hfound, hresolve, hbuilder⟩ := column_roundTrip hreached htable
    (Or.inr (Or.inr ⟨_, List.mem_singleton_self _, rfl⟩))
  obtain rfl : found = column := Except.ok.inj (hfound.symm.trans hcolumn)
  refine ⟨hcolumn, hresolve.mpr (by decide +kernel), ?_⟩
  exact (hbuilder { column := column } rfl).1.mpr (by decide +kernel)

/-- A builder of a column with a dot in its name asks for another one, and the full name of a column
of a table with a dot in its name leads nowhere. -/
theorem not_column_roundTrip :
    let store := (empty .empty).performAll
      [.createTable "People" none, .addColumn ⟨1⟩ "full.name" (.scalar .text),
        .addColumn ⟨1⟩ "name" (.scalar .text), .createTable "My.People" none,
        .addColumn ⟨2⟩ "name" (.scalar .text)]
    let column : ColumnRef := ⟨⟨1⟩, .stored 0, "People.full.name", .scalar .text⟩
    let other : ColumnRef := ⟨⟨1⟩, .stored 1, "People.name", .scalar .text⟩
    let unreached : ColumnRef := ⟨⟨2⟩, .stored 0, "My.People.name", .scalar .text⟩
    store.column ⟨1⟩ "full.name" = .ok column ∧
      store.column ⟨1⟩ ({ column := column } : ColumnBuilder).localName = .ok other ∧
      store.column ⟨2⟩ "name" = .ok unreached ∧
      store.resolve unreached.name = .error (.notFound "no such table: <My>") := by
  intro store column other unreached
  have hcolumn : store.column ⟨1⟩ "full.name" = .ok column := by decide +kernel
  have hother : store.column ⟨1⟩ ({ column := column } : ColumnBuilder).localName = .ok other := by
    decide +kernel
  have hunreached : store.column ⟨2⟩ "name" = .ok unreached := by decide +kernel
  have hstatus : (store.resolve unreached.name).map ObjectRef.name =
      .error (.notFound "no such table: <My>") := by decide +kernel
  exact ⟨hcolumn, hother, hunreached, eq_error_of_map_eq_error hstatus⟩

end MemoryStore

end RecordQuery

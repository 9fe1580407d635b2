import RecordQuery.Proofs.Compile.Inversion
import RecordQuery.Proofs.Program.Fusion
import RecordQuery.Proofs.Query.DefaultColumn
import RecordQuery.Proofs.Text.Split

/-!
# Programs that read certain columns only

The steps of a program may take nothing from the variables but certain columns of the record in
variable 0 (`ReadsColumns`).  Two runs of such steps cannot be told apart if they read from the same
store and those columns of their records are alike (`Machine.steps_congr`).

Operations that only read a path of columns are compiled to such steps (`compile_readsColumns`):
the compiler resolves the first column of the path, as the table of the record is known, and every
later column is read of the value before it.
-/

namespace RecordQuery

/-! ## Steps -/

/-- Whether a step takes nothing from the variables. -/
def Op.IsClosed : Op → Prop
  | loadVariable _ | loadVariableColumn .. => False
  | _ => True

/-- Whether a column of a table is the one that a path of columns, if there is one, starts with. -/
def FirstColumn (source : Source) (table : TableId) (path : Option String) (column : ColumnRef) :
    Prop :=
  ∃ segments name, path = some segments ∧ (Text.segments segments).head? = some name ∧
    source.column table name = .ok column

/-- Steps that take nothing from the variables but certain columns of the record in variable 0. -/
inductive ReadsColumns (columns : ColumnRef → Prop) : List Op → Prop
  | nil : ReadsColumns columns []
  /-- One of the columns is read. -/
  | column {column : ColumnRef} {later : List Op} :
      columns column → ReadsColumns columns later →
      ReadsColumns columns (.loadVariable 0 :: .getColumn column :: later)
  /-- A step takes nothing from the variables. -/
  | closed {op : Op} {later : List Op} :
      op.IsClosed → ReadsColumns columns later → ReadsColumns columns (op :: later)

namespace ReadsColumns

variable {columns : ColumnRef → Prop} {first later : List Op}

theorem append (hfirst : ReadsColumns columns first) (hlater : ReadsColumns columns later) :
    ReadsColumns columns (first ++ later) := by
  induction hfirst with
  | nil => exact hlater
  | column hcolumn _ ih => exact .column hcolumn ih
  | closed hop _ ih => exact .closed hop ih

theorem behind (hfirst : ReadsColumns columns first) {op : Op} (hop : op.IsClosed) :
    ReadsColumns columns (first ++ [op]) :=
  hfirst.append (.closed hop .nil)

theorem tail {value : Value} (h : ReadsColumns columns (.load value :: later)) :
    ReadsColumns columns later := by
  cases h with
  | closed _ hlater => exact hlater

end ReadsColumns

namespace Machine

variable [Regexp.Matcher] {first second : Environment} {columns : ColumnRef → Prop}

theorem step_congr (hsource : first.source = second.source) {op : Op} (hop : op.IsClosed)
    (state : State) : step first state op = step second state op := by
  cases op with
  | loadVariable _ | loadVariableColumn => exact absurd hop id
  | _ => simp only [step, hsource]

/-- Runs from one state cannot be told apart by steps that only read columns that are alike. -/
theorem steps_congr (hsource : first.source = second.source)
    (hcolumns : ∀ column, columns column → ∀ state,
      step first state (.loadVariableColumn 0 column) =
        step second state (.loadVariableColumn 0 column))
    {ops : List Op} (h : ReadsColumns columns ops) (state : State) :
    steps first state ops = steps second state ops := by
  induction h generalizing state with
  | nil => rfl
  | @column column later hcolumn _ ih =>
      rw [steps_loadVariable_getColumn, steps_loadVariable_getColumn, steps, steps,
        hcolumns column hcolumn]
      split
      · rfl
      · exact ih _
  | closed hop _ ih =>
      rw [steps, steps, step_congr hsource hop]
      split
      · rfl
      · exact ih _

/-- What holds of runs from one state holds of whole runs of programs. -/
theorem run_congr (hsource : first.source = second.source)
    (hcolumns : ∀ column, columns column → ∀ state,
      step first state (.loadVariableColumn 0 column) =
        step second state (.loadVariableColumn 0 column))
    {ops : List Op} (h : ReadsColumns columns ops) :
    run first (.ofOps ops) = run second (.ofOps ops) := by
  rw [run_ofOps, run_ofOps, runOps, runOps, steps_congr hsource hcolumns h]

omit [Regexp.Matcher] in
/-- A column of one record reads like that of another one of the same table if the store answers
the same for both. -/
theorem readColumn_congr {source : Source} {r q : RecordRef} {column : ColumnRef}
    (htable : r.table = q.table) (hr : r.isNil = false) (hq : q.isNil = false)
    (hvalue : source.value r column.id = source.value q column.id) :
    readColumn source (.record r) column = readColumn source (.record q) column := by
  simp only [readColumn, hr, hq, htable, hvalue]

end Machine

namespace Compile

variable [Regexp.Matcher]
variable {scope : Scope} {index : Nat} {operator : Operator} {columns : ColumnRef → Prop}

/-! ## Pieces -/

/-- The steps of a piece only read certain columns, and a constant is pushed by the first of
them. -/
structure Piece.Confined (columns : ColumnRef → Prop) (piece : Piece) : Prop where
  /-- The steps read nothing else. -/
  reads : ReadsColumns columns piece.code
  /-- A constant is pushed by the first step. -/
  known : piece.Known

omit [Regexp.Matcher] in
theorem readsColumns_operands {operands : List Piece}
    (h : ∀ operand ∈ operands, operand.Confined columns) :
    ReadsColumns columns (operands.flatMap (·.code)) := by
  induction operands with
  | nil => exact .nil
  | cons operand later ih =>
      exact (h operand (List.mem_cons_self ..)).reads.append
        (ih fun other hmem => h other (List.mem_cons_of_mem _ hmem))

omit [Regexp.Matcher] in
theorem Piece.Confined.of_open {slot : Slot} {code : List Op} (hslot : slot.constant = none)
    (hcode : ReadsColumns columns code) : Piece.Confined columns ⟨slot, code⟩ :=
  ⟨hcode, fun value hvalue => by simp [hslot] at hvalue⟩

theorem Piece.Confined.settled {source : Source} {slot : Slot} {code : List Op} {foldable : Bool}
    (hslot : slot.constant = none) (hcode : ReadsColumns columns code) :
    (Piece.settled source slot code foldable).Confined columns := by
  unfold Piece.settled
  split
  · exact .of_open hslot hcode
  · refine ⟨.closed trivial .nil, fun other hother => ?_⟩
    cases hother
    rfl

omit [Regexp.Matcher] in
theorem Piece.Confined.beside {piece : Piece} (h : piece.Confined columns) (domain : Domain) :
    (piece.beside domain).Confined columns := by
  unfold Piece.beside
  split
  · rename_i n hconstant
    split
    · obtain ⟨rest, hcode⟩ := List.head?_eq_some_iff.mp (h.known _ hconstant)
      have hreads := h.reads
      rw [hcode] at hreads
      refine ⟨?_, fun value hvalue => ?_⟩
      · rw [hcode]
        exact .closed trivial hreads.tail
      · cases hvalue
        rw [hcode]
        rfl
    · exact h
  · exact h

/-- An operator makes a confined piece of confined operands. -/
theorem Combined.confined {operands : List Piece} {piece : Piece}
    (hcombined : Combined scope index operator operands piece)
    (h : ∀ operand ∈ operands, operand.Confined columns) : piece.Confined columns := by
  -- Only operators that look at columns or run code of their operands can read anything.
  cases hcombined with
  | @member record name column _ _ _ =>
      exact .of_open rfl ((h record (by simp)).reads.behind trivial)
  | @getValue record name _ _ _ =>
      exact .of_open rfl
        ((h record (by simp)).reads.append ((h name (by simp)).reads.behind trivial))
  | @call target arguments function _ _ _ _ =>
      have harguments := readsColumns_operands fun argument hmem =>
        h argument (List.mem_cons_of_mem target hmem)
      exact .settled rfl
        ((h target (by simp)).reads.append (harguments.behind trivial))
  | connect _ _ _ => exact .settled rfl ((readsColumns_operands h).behind trivial)
  | @not operand _ => exact .settled rfl ((h operand (by simp)).reads.behind trivial)
  | @negate operand _ _ => exact .settled rfl ((h operand (by simp)).reads.behind trivial)
  | @pattern left right _ _ _ _ _ _ _ =>
      exact .of_open rfl ((h left (by simp)).reads.behind trivial)
  | @binary _ operation left right left' right' _ _ _ hcompared =>
      have hleft := h left (by simp)
      have hright := h right (by simp)
      have hoperands : left'.Confined columns ∧ right'.Confined columns := by
        unfold comparedPieces at hcompared
        split at hcompared
        · cases hcompared
          exact ⟨hleft.beside _, hright.beside _⟩
        · cases hcompared
          exact ⟨hleft, hright⟩
      exact .settled rfl (hoperands.1.reads.append (hoperands.2.reads.behind trivial))

/-! ## Operations -/

omit [Regexp.Matcher] in
/-- Where the table of the record is known, a constant name is resolved or refused. -/
theorem columnOf_constant {source : Source} {slot : Slot} {table : TableId} {name : String}
    {found : Option ColumnRef} (hcontent : slot.content = .value)
    (hconstant : slot.constant = some (.text name))
    (hcolumn : columnOf source index slot (.table table) = .ok found) :
    ∃ column, source.column table name = .ok column ∧ found = some column := by
  simp only [columnOf, hcontent, hconstant] at hcolumn
  cases hresolved : source.column table name with
  | error status => simp [hresolved] at hcolumn
  | ok column =>
      simp only [hresolved, Except.ok.injEq] at hcolumn
      exact ⟨column, rfl, hcolumn.symm⟩

/-- Whether all steps of a layout only read certain columns. -/
def Layout.Confined (columns : ColumnRef → Prop) (layout : Layout) : Prop :=
  layout.All (ReadsColumns columns) (Piece.Confined columns)

namespace Layout.Confined

variable {layout layout' : Layout} {table : TableId}

theorem apply {arity : Int} (h : layout.Confined columns) (hpop : operator ≠ .pop)
    (hstep : Layout.Step scope index (.apply operator arity) layout layout') :
    layout'.Confined columns := by
  cases hstep with
  | apply _ happlied =>
      obtain ⟨lower, operands, piece, hcombined, _, rfl, rfl⟩ := happlied.combined hpop
      obtain ⟨hlower, hoperands⟩ := h.of_pushAll
      exact hlower.push (hcombined.confined hoperands)

theorem pushValue {value : Value} (h : layout.Confined columns)
    (hstep : Layout.Step scope index (.pushValue value) layout layout') :
    layout'.Confined columns := by
  obtain ⟨piece, hpushed, rfl⟩ := hstep.pushed
  cases hpushed
  refine h.push ⟨.closed trivial .nil, fun other hother => ?_⟩
  cases hother
  rfl

/-- The first column of a path is resolved, since the table of the record is known. -/
theorem readFirst {name : String} {later : List Operation} (h : layout.Confined columns)
    (hrecord : scope.vars.domain? 0 = some (.table table))
    (hcolumns : ∀ column, scope.source.column table name = .ok column → columns column)
    (hsteps : Layout.Steps scope index
      (.push (.variableAt 0) :: (Operation.readColumn name ++ later)) layout layout') :
    ∃ between, between.Confined columns ∧ Layout.Steps scope (index + 3) later between layout' := by
  -- A path begins with three operations: the record, the name of the column, and the reading.
  obtain _ | ⟨hvariable, _ | ⟨hname, _ | ⟨hget, hlater⟩⟩⟩ := hsteps
  obtain ⟨record, hrecordPushed, rfl⟩ := hvariable.pushed
  obtain ⟨constant, hconstantPushed, rfl⟩ := hname.pushed
  obtain ⟨piece, hcombined, rfl⟩ :=
    Layout.Step.applied [record, constant] hget (by decide) rfl
  refine ⟨_, h.push ?_, hlater⟩
  cases hconstantPushed
  cases hrecordPushed with
  | variableAt hdomain =>
      obtain rfl := Option.some.inj (hdomain.symm.trans hrecord)
      cases hcombined with
      | member _ _ hcolumn =>
          obtain ⟨column, hfound, hsome⟩ := columnOf_constant rfl rfl hcolumn
          cases hsome
          exact .of_open rfl (.column (hcolumns _ hfound) .nil)
      -- The table is known, so the name would have been resolved.
      | getValue _ _ hcolumn =>
          obtain ⟨column, _, hsome⟩ := columnOf_constant rfl rfl hcolumn
          cases hsome
      | connect hoperator => cases hoperator
      | binary hoperator => cases hoperator

theorem readColumns {path : List String} (h : layout.Confined columns)
    (hsteps : Layout.Steps scope index (path.flatMap Operation.readColumn) layout layout') :
    layout'.Confined columns := by
  induction path generalizing index layout with
  | nil =>
      cases hsteps
      exact h
  | cons name path ih =>
      obtain _ | ⟨hname, _ | ⟨hget, hlater⟩⟩ := hsteps
      exact ih ((h.pushValue hname).apply (by decide) hget) hlater

/-- Operations that only read a path of columns keep a layout that reads its first column. -/
theorem onlyReads {path : Option String} {operations : List Operation}
    (hreads : OnlyReads path operations)
    (hrecord : scope.vars.domain? 0 = some (.table table))
    (h : layout.Confined (FirstColumn scope.source table path))
    (hsteps : Layout.Steps scope index operations layout layout') :
    layout'.Confined (FirstColumn scope.source table path) := by
  -- The induction is on how the operations are made; the layout so far stays confined.
  induction hreads generalizing index layout with
  | nil =>
      cases hsteps
      exact h
  | @read segments later hpath _ ih =>
      obtain ⟨name, names, hsegments⟩ :
          ∃ name names, Text.segments segments = name :: names := by
        refine List.exists_cons_of_ne_nil fun hnil => ?_
        exact Text.splitAll_ne_nil _ _ (List.map_eq_nil_iff.mp hnil)
      obtain ⟨between, hpathSteps, hlater⟩ := hsteps.split
      rw [hsegments] at hpathSteps
      obtain ⟨first, hfirst, hnames⟩ := h.readFirst hrecord
        (fun column hcolumn => ⟨segments, name, hpath, by rw [hsegments]; rfl, hcolumn⟩)
        hpathSteps
      exact ih (hfirst.readColumns hnames) hlater
  | keyword _ ih =>
      obtain _ | ⟨hkeyword, hlater⟩ := hsteps
      exact ih (h.pushValue hkeyword) hlater
  | test hoperator _ ih =>
      obtain _ | ⟨htest, hlater⟩ := hsteps
      refine ih (h.apply ?_ htest) hlater
      rintro rfl
      rcases hoperator with h | h | h <;> cases h

end Layout.Confined

/-! ## Whole expressions -/

/-- Operations that only read a path of columns compile to steps that, of the variables, only read
the first column of the path. -/
theorem compile_readsColumns {source : Source} {vars : Variables} {table : TableId}
    {path : Option String} {operations : List Operation} {compiled : Compiled}
    (hreads : OnlyReads path operations) (hrecord : vars.domain? 0 = some (.table table))
    (hcompile : compile source vars operations = .ok compiled) :
    ∃ ops, compiled.program = .ofOps ops ∧ ReadsColumns (FirstColumn source table path) ops := by
  obtain ⟨spare, piece, hsteps, _, rfl⟩ := compile_layout hcompile
  have hlayout := Layout.Confined.onlyReads hreads hrecord (.empty .nil) hsteps
  exact ⟨_, rfl, hlayout.spare.append (hlayout.pieces piece (List.mem_cons_self ..)).reads⟩

end Compile

end RecordQuery

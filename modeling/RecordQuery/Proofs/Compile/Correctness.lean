import RecordQuery.Proofs.Compile.Simulation
import RecordQuery.Regexp.Standard

/-!
# Compiling keeps the meaning of expressions

The operations of an expression without `POP` are read into a tree and compiled at the same time:
every step of the compiler keeps an item for every piece (`represents_step`).  At the end one item
and one piece are left, so the program computes what the tree evaluates to.  It leaves the same
value or failure and the same text read last, for all variables and all stores at the run.

`POP` stays out because the steps of a discarded value may stay in the program and fail.
-/

namespace RecordQuery.Compile

variable {scope : Scope} {index : Nat} {operator : Operator}

/-! ## Columns -/

/-- A name that is a value is resolved as soon as what is known of the trees resolves it. -/
theorem columnOf?_eq {source : Source} {record name : Static} {slot : Slot}
    {found : Option ColumnRef} (hcontent : slot.content = .value)
    (hconstant : slot.constant = name.constant)
    (hcolumn : columnOf source index slot record.domain = .ok found) :
    record.columnOf? source name = found := by
  simp only [columnOf, hcontent, hconstant] at hcolumn
  unfold Static.columnOf?
  split at hcolumn
  · rename_i columnName table hname hdomain
    simp only [hname, hdomain]
    cases hresolved : source.column table columnName with
    | error status => simp [hresolved] at hcolumn
    | ok column =>
        simp only [hresolved, Except.ok.injEq] at hcolumn
        exact hcolumn
  · rename_i hother
    cases hcolumn
    split
    · rename_i table columnName hdomain hname
      exact absurd hdomain (hother _ _ hname)
    · rfl

/-- Only columns and values name columns. -/
theorem columnOf_ofObject {source : Source} {start : Nat} {object : ObjectRef} {domain : Domain}
    {found : Option ColumnRef}
    (hcolumn : columnOf source index (Piece.ofObject scope start object).slot domain = .ok found) :
    ∃ column, object = .column column ∧ found = some column := by
  cases object with
  | table t => cases hcolumn
  | function f => cases hcolumn
  | column c =>
      refine ⟨c, rfl, ?_⟩
      obtain ⟨materialized, hcontent⟩ := Piece.content_ofObject_column scope start c
      simp only [columnOf, hcontent] at hcolumn
      split at hcolumn
      · split at hcolumn
        · cases hcolumn
          rfl
        · cases hcolumn
      · cases hcolumn
        rfl

theorem Stands.readColumn [Regexp.Matcher] {evaluated record : Tree} {piece : Piece}
    {column : ColumnRef} (h : Stands scope record piece)
    (heval : ∀ env, evaluated.eval scope env =
      (record.eval scope env).bind fun r => .readColumn env.source r column)
    (hstatic : evaluated.static scope = ⟨column.range, none⟩) :
    Stands scope evaluated
      ⟨.ofDomain column.range piece.slot.start, piece.code ++ [.getColumn column]⟩ := by
  refine ⟨fun env => ?_, by rw [hstatic]; rfl, by rw [hstatic]; rfl, ?_⟩
  · rw [heval]
    exact (h.computes env).getColumn column
  · intro value hvalue
    cases hvalue

/-! ## Operators -/

theorem Tree.combine?_getValue {record : Item} {r n : Tree} (hrecord : record.tree? = some r) :
    Tree.combine? .getValue [record, .tree n] = some (.getValue r n) := by
  simp only [Tree.combine?, hrecord]
  rfl

theorem Tree.combine?_of_connective {connective : Connective} {operands : List Item}
    (hoperator : operator.connective? = some connective) :
    Tree.combine? operator operands = (operands.mapM Item.tree?).map (.connect connective) := by
  cases operator <;> cases hoperator <;> rfl

theorem Tree.combine?_of_binary {operation : Binary} {left right : Item} {l r : Tree}
    (hoperator : operator.binary? = some operation) (hleft : left.tree? = some l)
    (hright : right.tree? = some r) :
    Tree.combine? operator [left, right] = some (.binary operation l r) := by
  cases operator <;> cases hoperator <;> simp [Tree.combine?, Operator.connective?,
    Operator.binary?, hleft, hright]

section Runs

variable [Regexp.Matcher]

section Columns

variable {recordItem nameItem : Item} {record name : Piece}

/-- The name is a text that is known by now, or the column itself as an object. -/
theorem represents_member {column : ColumnRef} (hrecord : Represents scope recordItem record)
    (hname : Represents scope nameItem name) (hvalue : record.slot.IsValue)
    (hcolumn : columnOf scope.source index name.slot record.slot.domain = .ok (some column)) :
    ∃ tree, Tree.combine? .getValue [recordItem, nameItem] = some tree ∧
      Represents scope (.tree tree)
        ⟨.ofDomain column.range record.slot.start, record.code ++ [.getColumn column]⟩ := by
  obtain ⟨r, htree, hstands⟩ := hrecord.stands hvalue
  cases hname with
  | @tree n _ hcontent hname =>
      rw [hstands.domain] at hcolumn
      have hfound := columnOf?_eq hcontent hname.constant hcolumn
      refine ⟨.getValue r n, Tree.combine?_getValue htree,
        .tree rfl (hstands.readColumn (fun env => ?_) ?_)⟩
      · simp only [Tree.eval, hfound]
      · simp only [Tree.static, hfound]
  | object =>
      obtain ⟨c, rfl, hfound⟩ := columnOf_ofObject hcolumn
      obtain rfl : column = c := Option.some.inj hfound
      exact ⟨.member r column, by simp [Tree.combine?, Item.ofObject, htree],
        .tree rfl (hstands.readColumn (fun _ => rfl) rfl)⟩

/-- A name that is not known by now is resolved where the program runs. -/
theorem represents_getValue (hrecord : Represents scope recordItem record)
    (hname : Represents scope nameItem name) (hvalue : record.slot.IsValue)
    (hcolumn : columnOf scope.source index name.slot record.slot.domain = .ok none) :
    ∃ tree, Tree.combine? .getValue [recordItem, nameItem] = some tree ∧
      Represents scope (.tree tree)
        ⟨.ofDomain .any record.slot.start, record.code ++ (name.code ++ [.getValue])⟩ := by
  obtain ⟨r, htree, hstands⟩ := hrecord.stands hvalue
  cases hname with
  | @tree n _ hcontent hname =>
      rw [hstands.domain] at hcolumn
      have hfound := columnOf?_eq hcontent hname.constant hcolumn
      have hstatic : (Tree.getValue r n).static scope = ⟨.any, none⟩ := by
        simp only [Tree.static, hfound]
      refine ⟨.getValue r n, Tree.combine?_getValue htree, .tree rfl
        ⟨fun env => ?_, by rw [hstatic]; rfl, by rw [hstatic]; rfl, ?_⟩⟩
      · simp only [Tree.eval, hfound]
        exact (hstands.computes env).getValue (hname.computes env)
      · intro value hvalue
        cases hvalue
  | object =>
      obtain ⟨c, _, hfound⟩ := columnOf_ofObject hcolumn
      cases hfound

end Columns

/-- Only the object of a function is called. -/
theorem represents_call {targetItem : Item} {target : Piece} {items : List Item}
    {arguments : List Piece} {function : ScalarFunction}
    (htarget : Represents scope targetItem target)
    (harguments : List.Forall₂ (Represents scope) items arguments)
    (hfunction : target.slot.content = .function function)
    (hvalues : ∀ argument ∈ arguments, argument.slot.IsValue) :
    ∃ tree, Tree.combine? .call (targetItem :: items) = some tree ∧
      Represents scope (.tree tree)
        (.settled scope.source (.ofDomain target.slot.domain target.slot.start)
          (target.code ++ (arguments.flatMap (·.code) ++ [.call function arguments.length]))
          (arguments.all (·.slot.isConstant) && function.isDeterministic)) := by
  cases htarget with
  | tree hcontent => simp [hcontent] at hfunction
  | @object object start =>
      -- Only the object of a function leaves a slot that holds a function.
      obtain rfl : object = .function function := by
        cases object with
        | table t => cases hfunction
        | function f =>
            cases hfunction
            rfl
        | column c =>
            obtain ⟨materialized, hcontent⟩ := Piece.content_ofObject_column scope start c
            rw [hcontent] at hfunction
            cases hfunction
      obtain ⟨trees, htrees, hstands⟩ := stands_all harguments hvalues
      exact ⟨.call function trees, by simp [Tree.combine?, Item.ofObject, htrees],
        .tree (by rw [Piece.content_settled]; rfl) (stands_call hstands function start)⟩

/-- An operator makes a tree of its operands, and the piece of it is the compiler's. -/
theorem represents_combined {items : List Item} {operands : List Piece} {piece : Piece}
    (h : List.Forall₂ (Represents scope) items operands)
    (hcombined : Combined scope index operator operands piece) :
    ∃ tree, Tree.combine? operator items = some tree ∧ Represents scope (.tree tree) piece := by
  -- Each way to combine pieces has its tree, in which the items are told apart by their number.
  cases hcombined with
  | member hvalue _ hcolumn =>
      obtain _ | ⟨hrecord, _ | ⟨hname, _ | _⟩⟩ := h
      exact represents_member hrecord hname hvalue hcolumn
  | getValue hvalue _ hcolumn =>
      obtain _ | ⟨hrecord, _ | ⟨hname, _ | _⟩⟩ := h
      exact represents_getValue hrecord hname hvalue hcolumn
  | call hfunction _ _ hvalues =>
      obtain _ | ⟨htarget, harguments⟩ := h
      exact represents_call htarget harguments hfunction hvalues
  | connect hoperator hmost hvalues =>
      obtain ⟨trees, htrees, hstands⟩ := stands_all h hvalues
      refine ⟨_, by rw [Tree.combine?_of_connective hoperator, htrees]; rfl,
        .tree ?_ (stands_connect hstands (List.cons_ne_nil _ _) _ _)⟩
      rw [Piece.content_settled]
      rfl
  | not hvalue =>
      obtain _ | ⟨ho, _ | _⟩ := h
      obtain ⟨o, htree, hstands⟩ := ho.stands hvalue
      exact ⟨.not o, by simp [Tree.combine?, htree],
        .tree (by rw [Piece.content_settled]; rfl) hstands.not⟩
  | negate hvalue hnumber =>
      obtain _ | ⟨ho, _ | _⟩ := h
      obtain ⟨o, htree, hstands⟩ := ho.stands hvalue
      exact ⟨.negate o, by simp [Tree.combine?, htree],
        .tree (by rw [Piece.content_settled]; rfl) hstands.negate⟩
  | pattern hleft hright hconstant hregexp hopen =>
      obtain _ | ⟨hl, _ | ⟨hr, _ | _⟩⟩ := h
      obtain ⟨l, hltree, hlstands⟩ := hl.stands hleft
      obtain ⟨r, hrtree, hrstands⟩ := hr.stands hright
      exact ⟨_, Tree.combine?_of_binary rfl hltree hrtree,
        .tree rfl (stands_pattern hlstands hrstands hconstant hregexp hopen)⟩
  | @binary _ operation left right left' right' hoperator hleft hright hcompared =>
      obtain _ | ⟨hl, _ | ⟨hr, _ | _⟩⟩ := h
      obtain ⟨l, hltree, hlstands⟩ := hl.stands hleft
      obtain ⟨r, hrtree, hrstands⟩ := hr.stands hright
      refine ⟨_, Tree.combine?_of_binary hoperator hltree hrtree,
        .tree (by rw [Piece.content_settled]; rfl) ?_⟩
      have hbinary := stands_binary hlstands hrstands operation
      rw [Binary.operator_of_binary? hoperator, hcompared] at hbinary
      exact hbinary

/-! ## Operations -/

theorem represents_pushed {start : Nat} {operand : Operand} {piece : Piece}
    (hpushed : Pushed scope start operand piece) :
    ∃ item, Item.ofOperand? scope.source operand = some item ∧ Represents scope item piece := by
  cases hpushed with
  | @variableAt position domain hdomain =>
      refine ⟨_, rfl, .tree rfl ⟨fun env => Machine.computes_loadVariable position, ?_, rfl, ?_⟩⟩
      · simp [Tree.static, hdomain, Slot.ofDomain]
      · intro value hvalue
        cases hvalue
  | @constant cell =>
      refine ⟨_, rfl, .tree rfl ⟨fun env => Machine.computes_load cell.value, rfl, rfl, ?_⟩⟩
      intro value hvalue
      cases hvalue
      rfl
  | object => exact ⟨_, rfl, .object⟩
  | name hresolved => exact ⟨_, by simp [Item.ofOperand?, hresolved, Except.toOption], .object⟩

theorem represents_applied {items : List Item} {needed : Nat} {layout layout' : Layout}
    (hpop : operator ≠ .pop) (h : List.Forall₂ (Represents scope) items layout.pieces)
    (happlied : Layout.Applied scope index operator needed layout layout') :
    layout'.spare = layout.spare ∧ needed ≤ items.length ∧
      ∃ tree, Tree.combine? operator (items.take needed).reverse = some tree ∧
        List.Forall₂ (Represents scope) (.tree tree :: items.drop needed) layout'.pieces := by
  cases happlied with
  | discard hoperator => exact absurd hoperator hpop
  | combine base hcombined =>
      rename_i operands piece
      -- The pieces of the operands are on top of the layout, the last one first.
      have hlength := h.length_eq
      rw [Layout.pieces_pushAll] at h
      rw [Layout.pieces_pushAll, List.length_append, List.length_reverse] at hlength
      have htaken := List.forall₂_take operands.length h
      rw [List.take_left' List.length_reverse] at htaken
      have hbelow := List.forall₂_drop operands.length h
      rw [List.drop_left' List.length_reverse] at hbelow
      have hoperands := List.forall₂_reverse_iff.mpr htaken
      rw [List.reverse_reverse] at hoperands
      obtain ⟨tree, htree, hpiece⟩ := represents_combined hoperands hcombined
      exact ⟨(Layout.spare_pushAll base operands).symm, by omega, tree, htree, .cons hpiece hbelow⟩

/-- Reading an operation and compiling it keeps an item for every piece. -/
theorem represents_step {items : List Item} {operation : Operation} {layout layout' : Layout}
    (hpop : operation.operator ≠ .pop) (h : List.Forall₂ (Represents scope) items layout.pieces)
    (hstep : Layout.Step scope index operation layout layout') :
    layout'.spare = layout.spare ∧
      ∃ items', Item.afterOperation? scope.source items operation = some items' ∧
        List.Forall₂ (Represents scope) items' layout'.pieces := by
  cases hstep with
  | push hpushed =>
      obtain ⟨item, hitem, hpiece⟩ := represents_pushed hpushed
      exact ⟨rfl, item :: items, by simp [Item.afterOperation?, hitem], .cons hpiece h⟩
  | apply hoperator happlied =>
      obtain ⟨hspare, henough, tree, htree, hitems⟩ := represents_applied hpop h happlied
      refine ⟨hspare, _, ?_, hitems⟩
      simp [Item.afterOperation?, hoperator, Nat.not_lt.mpr henough, htree]
  | pushApply hoperator hpushed happlied =>
      obtain ⟨item, hitem, hpiece⟩ := represents_pushed hpushed
      obtain ⟨hspare, henough, tree, htree, hitems⟩ :=
        represents_applied hpop (.cons hpiece h) happlied
      refine ⟨hspare, _, ?_, hitems⟩
      simp only [List.length_cons] at henough
      simp [Item.afterOperation?, hitem, hoperator, Nat.not_lt.mpr henough, htree]

theorem represents_steps {items : List Item} {operations : List Operation}
    {layout layout' : Layout} (hpop : ∀ operation ∈ operations, operation.operator ≠ .pop)
    (h : List.Forall₂ (Represents scope) items layout.pieces)
    (hsteps : Layout.Steps scope index operations layout layout') :
    layout'.spare = layout.spare ∧
      ∃ items', operations.foldlM (Item.afterOperation? scope.source) items = some items' ∧
        List.Forall₂ (Represents scope) items' layout'.pieces := by
  induction hsteps generalizing items with
  | nil => exact ⟨rfl, items, rfl, h⟩
  | cons hstep _ ih =>
      obtain ⟨hspare, between, hbetween, hlayout⟩ :=
        represents_step (hpop _ (List.mem_cons_self ..)) h hstep
      obtain ⟨hspare', items', hitems, hlayout'⟩ :=
        ih (fun operation hmem => hpop operation (List.mem_cons_of_mem _ hmem)) hlayout
      exact ⟨hspare'.trans hspare, items', by simp [List.foldlM_cons, hbetween, hitems], hlayout'⟩

/-! ## Whole expressions -/

/-- Operations without `POP` that compile make one item, which is a tree: the domain of the program
is that of the tree, and a run of the program leaves what the tree evaluates to. -/
theorem exists_item_of_compile {source : Source} {vars : Variables} {operations : List Operation}
    {compiled : Compiled} (hpop : ∀ operation ∈ operations, operation.operator ≠ .pop)
    (hcompile : compile source vars operations = .ok compiled) :
    ∃ item tree, operations.foldlM (Item.afterOperation? source) [] = some [item] ∧
      item.tree? = some tree ∧ compiled.range = (tree.static ⟨source, vars⟩).domain ∧
      ∀ env, Machine.run env compiled.program = (tree.eval ⟨source, vars⟩ env).outcome := by
  obtain ⟨spare, piece, hsteps, hvalue, rfl⟩ := compile_layout hcompile
  obtain ⟨hspare, items, hitems, hpieces⟩ := represents_steps hpop .nil hsteps
  -- Without `POP` no steps are left below the one piece.
  obtain rfl : spare = [] := hspare
  obtain _ | ⟨hpiece, _ | _⟩ := hpieces
  obtain ⟨tree, htree, hstands⟩ := hpiece.stands hvalue
  refine ⟨_, tree, hitems, htree, hstands.domain, fun env => ?_⟩
  rw [Machine.run_ofOps]
  exact (hstands.computes env).runOps

/-- Operations without `POP` that compile denote a tree, and a run of their program leaves what the
plain evaluation of the tree leaves. -/
theorem run_compile {source : Source} {vars : Variables} {operations : List Operation}
    {compiled : Compiled} (hpop : ∀ operation ∈ operations, operation.operator ≠ .pop)
    (hcompile : compile source vars operations = .ok compiled) :
    ∃ tree, Tree.ofOperations? source operations = some tree ∧
      ∀ env, Machine.run env compiled.program = (tree.eval ⟨source, vars⟩ env).outcome := by
  obtain ⟨item, tree, hitems, htree, _, hrun⟩ := exists_item_of_compile hpop hcompile
  exact ⟨tree, by simp [Tree.ofOperations?, hitems, htree], hrun⟩

end Runs

/-- A search in a column of the record in variable 0: the program has two steps, which read the
column and search for the keyword, and leaves what the tree of three operands evaluates to. -/
theorem run_compile_search :
    let title : ColumnRef := ⟨⟨1⟩, .stored 0, "Docs.title", .scalar .text⟩
    let source : Source :=
      ⟨fun _ => .ok (.column title), fun _ _ => .ok title, fun _ _ => .ok (.text "Needle"),
        fun _ => none, none⟩
    let vars := Variables.empty.define none (.table ⟨1⟩)
    ∃ compiled, compile source vars (Operation.readPath ["title"] ++
          [.pushValue (.text "needle"), .apply .contains 2]) = .ok compiled ∧
      compiled.program.ops.length = 2 ∧
      ∀ env, Machine.run env compiled.program =
        ((Tree.binary .contains
            (.getValue (.variableAt 0) (.constant (.free (.text "title"))))
            (.constant (.free (.text "needle")))).eval ⟨source, vars⟩ env).outcome := by
  intro title source vars
  obtain ⟨compiled, hcompile, hlength⟩ : ∃ compiled, compile source vars
      (Operation.readPath ["title"] ++ [.pushValue (.text "needle"), .apply .contains 2]) =
        .ok compiled ∧ compiled.program.ops.length = 2 := ⟨_, rfl, rfl⟩
  obtain ⟨tree, htree, hrun⟩ := run_compile (by decide) hcompile
  cases htree
  exact ⟨compiled, hcompile, hlength, hrun⟩

end RecordQuery.Compile

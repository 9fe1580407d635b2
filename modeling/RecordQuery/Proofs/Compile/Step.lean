import RecordQuery.Proofs.Compile.Layout

/-!
# What compiling one operation does to a layout

`Layout.Step` says it once for all: an operand becomes a new topmost piece (`Pushed`), an operator
replaces the pieces of its operands by one piece (`Combined`), and `POP` leaves the steps of its
operand behind or cuts them off (`Layout.discard`).  Every operation that compiles makes such a step
(`Draft.Holds.add`), so what holds of compiled expressions is shown by going through these cases.
-/

namespace RecordQuery.Compile

/-! ## Slots that stand for values -/

/-- Whether steps leave a value for the slot. -/
def Slot.IsValue (slot : Slot) : Prop :=
  match slot.content with
  | .value | .column _ true => True
  | .column _ false | .table _ | .function _ => False

/-! ## Pieces of operands -/

/-- The piece of an object of the store. -/
def Piece.ofObject (scope : Scope) (start : Nat) : ObjectRef → Piece
  | .table t => ⟨⟨.table t, .table t.id, none, [], start⟩, []⟩
  | .function f => ⟨⟨.function f, f.range, none, [], start⟩, []⟩
  | .column c =>
    if scope.recordFits c then
      ⟨⟨.column c true, c.range, none, [], start⟩, [.loadVariable 0, .getColumn c]⟩
    else ⟨⟨.column c false, c.range, none, [], start⟩, []⟩

theorem Piece.content_ofObject_column (scope : Scope) (start : Nat) (column : ColumnRef) :
    ∃ materialized,
      (Piece.ofObject scope start (.column column)).slot.content = .column column materialized := by
  simp only [Piece.ofObject]
  split
  · exact ⟨true, rfl⟩
  · exact ⟨false, rfl⟩

/-- The piece that an operand becomes. -/
inductive Pushed (scope : Scope) (start : Nat) : Operand → Piece → Prop
  | variableAt {position : Nat} {domain : Domain} :
      scope.vars.domain? position = some domain →
      Pushed scope start (.variableAt position) ⟨.ofDomain domain start, [.loadVariable position]⟩
  | constant {cell : Cell} :
      Pushed scope start (.constant cell)
        ⟨{ Slot.ofDomain (constantDomain cell) start with constant := some cell.value },
          [.load cell.value]⟩
  | object {object : ObjectRef} :
      Pushed scope start (.object object) (.ofObject scope start object)
  | name {name : String} {object : ObjectRef} :
      scope.source.resolve name = .ok object →
      Pushed scope start (.name name) (.ofObject scope start object)

/-! ## Pieces of results -/

variable [Regexp.Matcher]

/-- The piece of a result: a foldable one whose steps do not fail is a constant. -/
def Piece.settled (source : Source) (slot : Slot) (code : List Op) (foldable : Bool) : Piece :=
  match (if foldable then Draft.foldedValue? source code else none) with
  | none => ⟨slot, code⟩
  | some value =>
    ⟨{ slot with
        domain := if slot.domain = .any then .scalar value.dataType else slot.domain
        constant := some value },
      [.load value]⟩

/-- A constant integer beside records is a reference to one. -/
def Piece.beside (domain : Domain) (piece : Piece) : Piece :=
  match domain, piece.slot.constant with
  | .table table, some (.integer n) =>
    match (Value.integer n).coerce (.table table) with
    | .ok record =>
      ⟨{ piece.slot with constant := some record, domain := .table table },
        piece.code.set 0 (.load record)⟩
    | .error _ => piece
  | _, _ => piece

/-- The operands of an operation on two values: those of a comparison are looked at beside each
other, the right one first. -/
def comparedPieces (operator : Operator) (left right : Piece) : Piece × Piece :=
  if operator.isComparison then
    let right := right.beside left.slot.domain
    (left.beside right.slot.domain, right)
  else (left, right)

/-- The slot of the result of an operation on two values. -/
def binarySlot (operator : Operator) (left right : Slot) : Slot :=
  { Slot.ofDomain
      (if operator.isArithmetic then arithmeticRange operator left.domain right.domain
        else .scalar .boolean)
      left.start with
    keywords := searchedKeywords operator left right }

/-- The slot of the result of a connective. -/
def connectedSlot (connective : Connective) (start : Nat) (operands : List Slot) : Slot :=
  { Slot.ofDomain (.scalar .boolean) start with
    keywords := connectedKeywords connective operands }

/-- The piece that an operator makes of the pieces of its operands; a call counts its function among
them. -/
inductive Combined (scope : Scope) (index : Nat) : Operator → List Piece → Piece → Prop
  | member {record name : Piece} {column : ColumnRef} :
      record.slot.IsValue → requireRecord index record.slot.domain = .ok () →
      columnOf scope.source index name.slot record.slot.domain = .ok (some column) →
      Combined scope index .getValue [record, name]
        ⟨.ofDomain column.range record.slot.start, record.code ++ [.getColumn column]⟩
  | getValue {record name : Piece} :
      record.slot.IsValue → requireRecord index record.slot.domain = .ok () →
      columnOf scope.source index name.slot record.slot.domain = .ok none →
      Combined scope index .getValue [record, name]
        ⟨.ofDomain .any record.slot.start, record.code ++ (name.code ++ [.getValue])⟩
  | call {target : Piece} {arguments : List Piece} {function : ScalarFunction} :
      target.slot.content = .function function →
      function.signature.checkCount arguments.length = .ok () → arguments.length ≤ maxCount →
      (∀ argument ∈ arguments, argument.slot.IsValue) →
      Combined scope index .call (target :: arguments)
        (.settled scope.source (.ofDomain target.slot.domain target.slot.start)
          (target.code ++ (arguments.flatMap (·.code) ++ [.call function arguments.length]))
          (arguments.all (·.slot.isConstant) && function.isDeterministic))
  | connect {operator : Operator} {connective : Connective} {first : Piece}
      {later : List Piece} :
      operator.connective? = some connective → (first :: later).length ≤ maxCount →
      (∀ operand ∈ first :: later, operand.slot.IsValue) →
      Combined scope index operator (first :: later)
        (.settled scope.source
          (connectedSlot connective first.slot.start ((first :: later).map (·.slot)))
          ((first :: later).flatMap (·.code) ++ [.connect connective (first :: later).length])
          ((first :: later).all (·.slot.isConstant)))
  | not {operand : Piece} :
      operand.slot.IsValue →
      Combined scope index .not [operand]
        (.settled scope.source (.ofDomain (.scalar .boolean) operand.slot.start)
          (operand.code ++ [.not]) operand.slot.isConstant)
  | negate {operand : Piece} :
      operand.slot.IsValue → requireNumber index operand.slot.domain = .ok () →
      Combined scope index .negate [operand]
        (.settled scope.source (.ofDomain operand.slot.domain operand.slot.start)
          (operand.code ++ [.negate]) operand.slot.isConstant)
  | pattern {left right : Piece} {source : String} {regexp : Regexp} :
      left.slot.IsValue → right.slot.IsValue → right.slot.constant = some (.text source) →
      Regexp.ofText? source = some regexp → left.slot.isConstant = false →
      Combined scope index .regexp [left, right]
        ⟨binarySlot .regexp left.slot right.slot, left.code ++ [.matchesRegexp regexp]⟩
  | binary {operator : Operator} {operation : Binary} {left right left' right' : Piece} :
      operator.binary? = some operation → left.slot.IsValue → right.slot.IsValue →
      comparedPieces operator left right = (left', right') →
      Combined scope index operator [left, right]
        (.settled scope.source (binarySlot operator left'.slot right'.slot)
          (left'.code ++ (right'.code ++ [.binary operation]))
          (left'.slot.isConstant && right'.slot.isConstant))

/-! ## Steps -/

/-- The layout without its topmost piece, which `POP` discards. -/
def Layout.discard (layout : Layout) (piece : Piece) : Layout :=
  match piece.slot.content with
  | .table _ | .function _ | .column _ false => layout.absorb piece.code
  | _ => if piece.slot.isConstant then layout else layout.absorb (piece.code ++ [.pop])

/-- What an operator does to a layout that has the slots it needs. -/
inductive Layout.Applied (scope : Scope) (index : Nat) (operator : Operator) :
    Nat → Layout → Layout → Prop
  | discard {layout : Layout} {piece : Piece} :
      operator = .pop →
      Applied scope index operator 1 (layout.push piece) (layout.discard piece)
  | combine (layout : Layout) {operands : List Piece} {piece : Piece} :
      Combined scope index operator operands piece →
      Applied scope index operator operands.length (layout.pushAll operands) (layout.push piece)

/-- What an operation does to a layout. -/
inductive Layout.Step (scope : Scope) (index : Nat) : Operation → Layout → Layout → Prop
  | push {layout : Layout} {operand : Operand} {piece : Piece} :
      Pushed scope layout.code.length operand piece →
      Step scope index ⟨.push, 1, some operand⟩ layout (layout.push piece)
  | apply {operator : Operator} {arity : Int} {layout layout' : Layout} :
      operator ≠ .push →
      Layout.Applied scope index operator (neededSlots operator arity.toNat) layout layout' →
      Step scope index ⟨operator, arity, none⟩ layout layout'
  | pushApply {operator : Operator} {arity : Int} {operand : Operand} {piece : Piece}
      {layout layout' : Layout} :
      operator ≠ .push → Pushed scope layout.code.length operand piece →
      Layout.Applied scope index operator (neededSlots operator arity.toNat) (layout.push piece)
        layout' →
      Step scope index ⟨operator, arity, some operand⟩ layout layout'

/-- What operations do to a layout one after the other; the first of them has an index. -/
inductive Layout.Steps (scope : Scope) : Nat → List Operation → Layout → Layout → Prop
  | nil {index : Nat} {layout : Layout} : Steps scope index [] layout layout
  | cons {index : Nat} {operation : Operation} {later : List Operation}
      {layout between layout' : Layout} :
      Layout.Step scope index operation layout between →
      Steps scope (index + 1) later between layout' →
      Steps scope index (operation :: later) layout layout'

/-- What an operator other than `POP` does: the pieces of its operands become one piece. -/
theorem Layout.Applied.combined {scope : Scope} {index : Nat} {operator : Operator}
    {needed : Nat} {layout layout' : Layout}
    (happlied : Layout.Applied scope index operator needed layout layout')
    (hpop : operator ≠ .pop) :
    ∃ (lower : Layout) (operands : List Piece) (piece : Piece),
      Combined scope index operator operands piece ∧
      needed = operands.length ∧ layout = lower.pushAll operands ∧ layout' = lower.push piece := by
  cases happlied with
  | discard hoperator => exact absurd hoperator hpop
  | combine lower hcombined => exact ⟨lower, _, _, hcombined, rfl, rfl, rfl⟩

/-- An operator that finds the pieces it needs on top makes one piece of them. -/
theorem Layout.Step.applied {scope : Scope} {index : Nat} {operator : Operator} {arity : Int}
    {layout layout' : Layout} (operands : List Piece)
    (hstep : Layout.Step scope index (.apply operator arity) (layout.pushAll operands) layout')
    (hpop : operator ≠ .pop) (hneeded : neededSlots operator arity.toNat = operands.length) :
    ∃ piece, Combined scope index operator operands piece ∧ layout' = layout.push piece := by
  cases hstep with
  | apply _ happlied =>
      obtain ⟨lower, others, piece, hcombined, hothers, hlayout, rfl⟩ := happlied.combined hpop
      obtain ⟨rfl, rfl⟩ := Layout.pushAll_inj hlayout (hneeded.symm.trans hothers)
      exact ⟨piece, hcombined, rfl⟩

/-- What pushing an operand without an operator does. -/
theorem Layout.Step.pushed {scope : Scope} {index : Nat} {operand : Operand}
    {layout layout' : Layout}
    (hstep : Layout.Step scope index (.push operand) layout layout') :
    ∃ piece, Pushed scope layout.code.length operand piece ∧ layout' = layout.push piece := by
  cases hstep with
  | push hpushed => exact ⟨_, hpushed, rfl⟩
  | pushApply hpush => exact absurd rfl hpush

theorem Layout.Steps.split {scope : Scope} {index : Nat} {first second : List Operation}
    {layout layout' : Layout} (h : Layout.Steps scope index (first ++ second) layout layout') :
    ∃ between, Layout.Steps scope index first layout between ∧
      Layout.Steps scope (index + first.length) second between layout' := by
  induction first generalizing index layout with
  | nil => exact ⟨layout, .nil, h⟩
  | cons operation first ih =>
      obtain _ | ⟨hstep, hsteps⟩ := h
      obtain ⟨between, hfirst, hsecond⟩ := ih hsteps
      rw [Nat.add_right_comm, Nat.add_assoc] at hsecond
      exact ⟨between, .cons hstep hfirst, hsecond⟩

/-- Reading a path of columns from variable 0 leaves one piece: that of the variable or, behind a
column, what reading the last column makes. -/
theorem Layout.Steps.readPath {scope : Scope} {index : Nat} {path : List String}
    {layout layout' : Layout} {onPiece : Piece → Prop}
    (h : Layout.Steps scope index (Operation.readPath path) layout layout')
    (hvariable : ∀ start piece, Pushed scope start (.variableAt 0) piece → onPiece piece)
    (hcolumn : ∀ index record name piece, Combined scope index .getValue [record, name] piece →
      onPiece piece) : ∃ piece, layout' = layout.push piece ∧ onPiece piece := by
  have hfollow : ∀ {index : Nat} {names : List String} {record : Piece}, onPiece record →
      Layout.Steps scope index (names.flatMap Operation.readColumn) (layout.push record) layout' →
      ∃ piece, layout' = layout.push piece ∧ onPiece piece := by
    intro index names
    induction names generalizing index with
    | nil =>
        intro record hrecord hsteps
        cases hsteps
        exact ⟨record, rfl, hrecord⟩
    | cons name names ih =>
        intro record _ hsteps
        obtain _ | ⟨hname, _ | ⟨hget, hlater⟩⟩ := hsteps
        obtain ⟨constant, _, rfl⟩ := hname.pushed
        obtain ⟨column, hcombined, rfl⟩ :=
          Layout.Step.applied [record, constant] hget (by decide) rfl
        exact ih (hcolumn _ _ _ _ hcombined) hlater
  obtain _ | ⟨hpush, hlater⟩ := h
  obtain ⟨record, hrecord, rfl⟩ := hpush.pushed
  exact hfollow (hvariable _ _ hrecord) hlater

end RecordQuery.Compile

import RecordQuery.Proofs.Compile.Step
import RecordQuery.Proofs.Except

/-!
# Compiling operations takes the steps of layouts

The draft of a compiler always has a layout (`Draft.Holds`), and every operation that compiles turns
it into the draft of a layout that `Layout.Step` leads to (`Draft.Holds.add`).  The lemmas follow
the functions of the compiler one by one; `compile_layout` puts them together for whole expressions.
-/

namespace RecordQuery.Compile

theorem Slot.isValue_of_requireValue {slot : Slot} {index : Nat}
    (h : slot.requireValue index = .ok ()) : slot.IsValue := by
  unfold requireValue at h
  unfold IsValue
  split at h <;> simp_all

theorem Slot.isValue_of_requireValues {slots : List Slot} {index : Nat}
    (h : requireValues index slots = .ok ()) : ∀ slot ∈ slots, slot.IsValue := by
  induction slots with
  | nil => exact fun _ hmem => absurd hmem List.not_mem_nil
  | cons slot later ih =>
      simp only [requireValues] at h
      split at h
      · cases h
      · rename_i hslot
        intro other hmem
        rcases List.mem_cons.mp hmem with rfl | hmem
        · exact isValue_of_requireValue hslot
        · exact ih h other hmem

/-! ## Pushing operands -/

namespace Draft.Holds

variable {draft draft' : Draft} {scope : Scope} {index : Nat} {layout : Layout}

theorem pushObject (h : draft.Holds layout []) (object : ObjectRef) :
    (draft.pushObject scope object).Holds
      (layout.push (.ofObject scope layout.code.length object)) [] := by
  have hsize := h.size_code
  have hunknown {slot : Slot} {code : List Op} (hslot : slot.constant = none) :
      Piece.Known ⟨slot, code⟩ := by
    intro value hvalue
    simp [hslot] at hvalue
  cases object with
  | table t =>
      simp only [Draft.pushObject, Piece.ofObject, hsize]
      exact h.pushSlot rfl (hunknown rfl)
  | function f =>
      simp only [Draft.pushObject, Piece.ofObject, hsize]
      exact h.pushSlot rfl (hunknown rfl)
  | column c =>
      simp only [Draft.pushObject, Piece.ofObject, hsize]
      split
      · exact ((h.emit _).emit _).pushSlot rfl (hunknown rfl)
      · exact h.pushSlot rfl (hunknown rfl)

theorem pushOperand (h : draft.Holds layout []) {operand : Operand}
    (hpush : draft.pushOperand scope index operand = .ok draft') :
    ∃ piece, Pushed scope layout.code.length operand piece ∧
      draft'.Holds (layout.push piece) [] := by
  have hsize := h.size_code
  -- A variable or a constant adds its own step; objects and names differ only in how they are
  -- found.
  cases operand with
  | variableAt position =>
      simp only [Draft.pushOperand, hsize] at hpush
      split at hpush
      · cases hpush
      · rename_i domain hdomain
        split at hpush
        · cases hpush
        · cases hpush
          refine ⟨_, .variableAt hdomain, (h.emit _).pushSlot rfl ?_⟩
          intro value hvalue
          cases hvalue
  | constant cell =>
      simp only [Draft.pushOperand, hsize] at hpush
      cases hpush
      refine ⟨_, .constant, (h.emit _).pushSlot rfl ?_⟩
      intro value hvalue
      cases hvalue
      rfl
  | object object =>
      cases hpush
      exact ⟨_, .object, h.pushObject object⟩
  | name name =>
      simp only [Draft.pushOperand] at hpush
      split at hpush
      · cases hpush
      · rename_i object hobject
        cases hpush
        exact ⟨_, .name hobject, h.pushObject object⟩

/-- A result slot that starts where the layout ends takes the steps behind it, folded if
possible. -/
theorem pushResult [Regexp.Matcher] {code : List Op} (h : draft.Holds layout code) (source : Source)
    (slot : Slot)
    (hstart : slot.start = layout.code.length) (hslot : slot.constant = none) (foldable : Bool) :
    (draft.pushResult source slot foldable).Holds
      (layout.push (.settled source slot code foldable)) [] := by
  have hcode : draft.ops.toList.drop slot.start = code := by
    rw [h.ops, hstart, List.drop_left]
  cases hfold : (if foldable then Draft.foldedValue? source code else none) with
  | none =>
      simp only [Draft.pushResult, Piece.settled, hcode, hfold]
      refine h.pushSlot hstart ?_
      intro value hvalue
      simp [hslot] at hvalue
  | some value =>
      simp only [Draft.pushResult, Piece.settled, hcode, hfold]
      refine ((Holds.truncate [] h ?_).emit (.load value)).pushSlot hstart ?_
      · simpa using hstart
      · intro other hother
        cases hother
        rfl

end Draft.Holds

/-! ## Operands of an operator -/

/-- Whether pieces in a row start one behind the other from a number of steps on. -/
def StartsAt (start : Nat) : List Piece → Prop
  | [] => True
  | piece :: later => piece.slot.start = start ∧ StartsAt (start + piece.code.length) later

/-- The draft has taken the slots of operands off a layout; their steps are behind it. -/
structure Draft.HoldsOperands (draft : Draft) (lower : Layout) (operands : List Piece) : Prop where
  /-- The draft has the layout and, behind it, the steps of the operands. -/
  holds : draft.Holds lower (operands.flatMap (·.code))
  /-- The operands start one behind the other. -/
  starts : StartsAt lower.code.length operands
  /-- Constants among the operands are pushed by the first of their steps. -/
  known : ∀ operand ∈ operands, operand.Known

namespace Draft.HoldsOperands

variable {draft draft' : Draft} {scope : Scope} {index : Nat} {lower : Layout}
  {operands : List Piece}

theorem takeSlot {piece : Piece} (h : draft.HoldsOperands (lower.push piece) operands) :
    ({ draft with slots := lower.pieces.map (·.slot) } : Draft).HoldsOperands lower
      (piece :: operands) := by
  obtain ⟨hholds, hstart, hknown⟩ := h.holds.popSlot
  refine ⟨hholds, ⟨hstart, ?_⟩, ?_⟩
  · rw [← List.length_append, ← Layout.code_push]
    exact h.starts
  · intro operand hmem
    rcases List.mem_cons.mp hmem with rfl | hmem
    · exact hknown
    · exact h.known operand hmem

theorem takeTop {layout : Layout} {count : Nat} {slots below : List Slot}
    (h : draft.HoldsOperands layout operands)
    (htake : takeTop draft.slots count (operands.map (·.slot)) = some (slots, below)) :
    ∃ (lower : Layout) (taken : List Piece), slots = taken.map (·.slot) ∧
      layout.pushAll operands = lower.pushAll taken ∧
      taken.length = count + operands.length ∧
      ({ draft with slots := below } : Draft).HoldsOperands lower taken := by
  -- Every step makes the topmost slot of the layout the first operand, so both change.
  induction count generalizing draft layout operands with
  | zero =>
      simp only [Compile.takeTop, Option.some.injEq, Prod.mk.injEq] at htake
      obtain ⟨rfl, rfl⟩ := htake
      exact ⟨layout, operands, rfl, rfl, (Nat.zero_add _).symm, h⟩
  | succ count ih =>
      obtain ⟨spare, pieces⟩ := layout
      have hslots := h.holds.slots
      cases pieces with
      | nil => simp [Compile.takeTop, hslots] at htake
      | cons piece pieces =>
          simp only [List.map_cons] at hslots
          simp only [Compile.takeTop, hslots] at htake
          have htop : draft.HoldsOperands (Layout.push ⟨spare, pieces⟩ piece) operands := h
          obtain ⟨lower, taken, hmap, hpush, hlength, hlower⟩ := ih htop.takeSlot htake
          refine ⟨lower, taken, hmap, hpush, ?_, hlower⟩
          rw [hlength, List.length_cons]
          omega

/-! ### Single operators -/

theorem discard {piece : Piece} (h : draft.HoldsOperands lower [piece]) :
    (draft.discard piece.slot).Holds (lower.discard piece) [] := by
  have hholds : draft.Holds lower piece.code := by
    simpa using h.holds
  have hcut : (if piece.slot.isConstant then draft.truncate piece.slot.start
      else draft.emit .pop).Holds
      (if piece.slot.isConstant then lower else lower.absorb (piece.code ++ [.pop])) [] := by
    split
    · exact Draft.Holds.truncate [] hholds (by simpa using h.starts.1)
    · exact (hholds.emit .pop).absorb
  cases hcontent : piece.slot.content with
  | value => simpa only [Draft.discard, Layout.discard, hcontent] using hcut
  | table t => simpa only [Draft.discard, Layout.discard, hcontent] using hholds.absorb
  | function f => simpa only [Draft.discard, Layout.discard, hcontent] using hholds.absorb
  | column c materialized =>
      cases materialized with
      | true => simpa only [Draft.discard, Layout.discard, hcontent] using hcut
      | false => simpa only [Draft.discard, Layout.discard, hcontent] using hholds.absorb

variable [Regexp.Matcher]

theorem readColumn {record name : Piece} (h : draft.HoldsOperands lower [record, name])
    (hread : draft.readColumn scope index record.slot name.slot = .ok draft') :
    ∃ piece, Combined scope index .getValue [record, name] piece ∧
      draft'.Holds (lower.push piece) [] := by
  have hholds : draft.Holds lower (record.code ++ name.code) := by
    simpa using h.holds
  obtain ⟨hrecord, hname, _⟩ := h.starts
  simp only [Draft.readColumn] at hread
  split at hread
  · cases hread
  rename_i hvalue
  split at hread
  · cases hread
  rename_i hdomain
  split at hread
  · cases hread
  · -- A column that is known takes the steps of the name away; else these stay and the run looks it
    -- up.
    rename_i column hcolumn
    cases hread
    refine ⟨_, .member (Slot.isValue_of_requireValue hvalue) hdomain hcolumn, ?_⟩
    refine ((Draft.Holds.truncate _ hholds ?_).emit _).pushSlot hrecord fun value hconstant => ?_
    · rw [hname, List.length_append]
    · cases hconstant
  · rename_i hcolumn
    cases hread
    refine ⟨_, .getValue (Slot.isValue_of_requireValue hvalue) hdomain hcolumn, ?_⟩
    rw [← List.append_assoc]
    refine (hholds.emit _).pushSlot hrecord fun value hconstant => ?_
    cases hconstant

theorem call {target : Piece} {arguments : List Piece}
    (h : draft.HoldsOperands lower (target :: arguments))
    (hcall : draft.call scope index target.slot (arguments.map (·.slot)) = .ok draft') :
    ∃ piece, Combined scope index .call (target :: arguments) piece ∧
      draft'.Holds (lower.push piece) [] := by
  have hholds : draft.Holds lower (target.code ++ arguments.flatMap (·.code)) := h.holds
  simp only [Draft.call, List.length_map] at hcall
  split at hcall
  · rename_i function hfunction
    split at hcall
    · cases hcall
    rename_i hcount
    split at hcall
    · cases hcall
    rename_i hmost
    split at hcall
    · cases hcall
    rename_i hvalues
    cases hcall
    have hall : ∀ argument ∈ arguments, argument.slot.IsValue := fun argument hmem =>
      Slot.isValue_of_requireValues hvalues argument.slot (List.mem_map_of_mem hmem)
    refine ⟨_, .call hfunction hcount (Nat.not_lt.mp hmost) hall, ?_⟩
    -- The steps of the function itself are none, so its arguments begin where it does.
    have hresult := (hholds.emit (.call function arguments.length)).pushResult scope.source
      (.ofDomain target.slot.domain target.slot.start) h.starts.1 rfl
      (arguments.all (·.slot.isConstant) && function.isDeterministic)
    simpa [List.all_map, Function.comp_def, List.append_assoc] using hresult
  · cases hcall

theorem connect {operator : Operator} {connective : Connective} {first : Piece}
    {later : List Piece} (hoperator : operator.connective? = some connective)
    (h : draft.HoldsOperands lower (first :: later))
    (hconnect : draft.connect scope index operator connective ((first :: later).map (·.slot)) =
      .ok draft') :
    ∃ piece, Combined scope index operator (first :: later) piece ∧
      draft'.Holds (lower.push piece) [] := by
  simp only [Draft.connect, List.length_map] at hconnect
  split at hconnect
  · cases hconnect
  rename_i hvalues
  split at hconnect
  · cases hconnect
  rename_i hmost
  cases hconnect
  have hall : ∀ operand ∈ first :: later, operand.slot.IsValue := fun operand hmem =>
    Slot.isValue_of_requireValues hvalues operand.slot (List.mem_map_of_mem hmem)
  refine ⟨_, .connect hoperator (Nat.not_lt.mp hmost) hall, ?_⟩
  have hresult := (h.holds.emit (.connect connective (first :: later).length)).pushResult
    scope.source (connectedSlot connective first.slot.start ((first :: later).map (·.slot)))
    h.starts.1 rfl ((first :: later).all (·.slot.isConstant))
  simpa [connectedSlot, List.all_map, Function.comp_def] using hresult

theorem invert {operand : Piece} (h : draft.HoldsOperands lower [operand])
    (hnot : draft.invert scope index operand.slot = .ok draft') :
    ∃ piece, Combined scope index .not [operand] piece ∧
      draft'.Holds (lower.push piece) [] := by
  have hholds : draft.Holds lower operand.code := by
    simpa using h.holds
  simp only [Draft.invert] at hnot
  split at hnot
  · cases hnot
  rename_i hvalue
  cases hnot
  exact ⟨_, .not (Slot.isValue_of_requireValue hvalue),
    (hholds.emit .not).pushResult scope.source
      (.ofDomain (.scalar .boolean) operand.slot.start) h.starts.1 rfl _⟩

theorem negate {operand : Piece} (h : draft.HoldsOperands lower [operand])
    (hnegate : draft.negate scope index operand.slot = .ok draft') :
    ∃ piece, Combined scope index .negate [operand] piece ∧
      draft'.Holds (lower.push piece) [] := by
  have hholds : draft.Holds lower operand.code := by
    simpa using h.holds
  simp only [Draft.negate] at hnegate
  split at hnegate
  · cases hnegate
  rename_i hvalue
  split at hnegate
  · cases hnegate
  rename_i hnumber
  cases hnegate
  exact ⟨_, .negate (Slot.isValue_of_requireValue hvalue) hnumber,
    (hholds.emit .negate).pushResult scope.source
      (.ofDomain operand.slot.domain operand.slot.start) h.starts.1 rfl _⟩

end Draft.HoldsOperands

/-! ### Operations on two values -/

section Compared

variable {draft draft' : Draft} {scope : Scope} {index : Nat} {lower : Layout} {domain : Domain}
  {piece left right : Piece} {operator : Operator} {operation : Binary}

@[simp] theorem Piece.start_beside : (piece.beside domain).slot.start = piece.slot.start := by
  unfold beside
  split
  · split <;> rfl
  · rfl

@[simp] theorem Piece.content_beside :
    (piece.beside domain).slot.content = piece.slot.content := by
  unfold beside
  split
  · split <;> rfl
  · rfl

/-- A piece that steps follow is turned into a reference by overwriting its first step. -/
theorem Draft.Holds.beside (before : List Op) {behind : List Op} {slot : Slot}
    (h : draft.Holds lower (before ++ (piece.code ++ behind)))
    (hstart : piece.slot.start = (lower.code ++ before).length) (hknown : piece.Known)
    (hbeside : draft.besideRecord index domain piece.slot = .ok (draft', slot)) :
    slot = (piece.beside domain).slot ∧
      draft'.Holds lower (before ++ ((piece.beside domain).code ++ behind)) := by
  simp only [Draft.besideRecord] at hbeside
  split at hbeside
  · rename_i table
    simp only [Draft.asRecordOf] at hbeside
    split at hbeside
    · rename_i n hconstant
      split at hbeside
      · cases hbeside
      · -- The first step of a constant pushes it, and this is the step that is overwritten.
        rename_i record hrecord
        cases hbeside
        have hhead := hknown _ hconstant
        obtain ⟨code, hcode⟩ := List.head?_eq_some_iff.mp hhead
        have hbesidePiece : piece.beside (.table table) =
            ⟨{ piece.slot with constant := some record, domain := .table table },
              piece.code.set 0 (.load record)⟩ := by
          simp only [Piece.beside, hconstant, hrecord]
        rw [hcode] at h
        rw [hbesidePiece, hcode]
        exact ⟨rfl, h.setOp hstart _⟩
    · rename_i hinteger
      cases hbeside
      -- What is no integer stays as it is, and so does everything beside no record.
      have hsame : piece.beside (.table table) = piece := by
        unfold Piece.beside
        split
        · rename_i n _ hconstant
          exact absurd hconstant (hinteger n)
        · rfl
      rw [hsame]
      exact ⟨rfl, h⟩
  · rename_i hdomain
    cases hbeside
    have hsame : piece.beside domain = piece := by
      unfold Piece.beside
      split
      · exact absurd rfl (hdomain _)
      · rfl
    rw [hsame]
    exact ⟨rfl, h⟩

theorem Draft.HoldsOperands.comparedOperands {slots : Slot × Slot}
    (h : draft.HoldsOperands lower [left, right])
    (hcompared : (if operator.isComparison then
      draft.comparedOperands index left.slot right.slot else .ok (draft, left.slot, right.slot)) =
      .ok (draft', slots)) :
    slots = ((comparedPieces operator left right).1.slot,
        (comparedPieces operator left right).2.slot) ∧
      draft'.Holds lower ((comparedPieces operator left right).1.code ++
        (comparedPieces operator left right).2.code) := by
  have hholds : draft.Holds lower (left.code ++ (right.code ++ [])) := by
    simpa using h.holds
  obtain ⟨hleft, hright, _⟩ := h.starts
  unfold comparedPieces
  split at hcompared
  · rename_i hcomparison
    rw [if_pos hcomparison]
    simp only [Draft.comparedOperands] at hcompared
    split at hcompared
    · cases hcompared
    rename_i first slot hfirst
    split at hcompared
    · cases hcompared
    rename_i second slot' hsecond
    cases hcompared
    -- The right operand is looked at first; the left one lies in front of the code it has now.
    obtain ⟨rfl, hfirstHolds⟩ := Draft.Holds.beside left.code hholds
      (by rw [hright, List.length_append]) (h.known right (by simp)) hfirst
    obtain ⟨rfl, hsecondHolds⟩ := Draft.Holds.beside [] hfirstHolds
      (by simpa using hleft) (h.known left (by simp)) hsecond
    exact ⟨rfl, by simpa using hsecondHolds⟩
  · rename_i hcomparison
    rw [if_neg hcomparison]
    cases hcompared
    exact ⟨rfl, by simpa using hholds⟩

/-- An operation gets its own step unless its constant pattern becomes part of one. -/
theorem Draft.emitBinary_cases [Regexp.Matcher] {leftSlot rightSlot : Slot}
    (hemit : draft.emitBinary index operation leftSlot rightSlot = .ok draft') :
    draft' = draft.emit (.binary operation) ∨
      ∃ source regexp, operation = .regexp ∧ rightSlot.constant = some (.text source) ∧
        Regexp.ofText? source = some regexp ∧ leftSlot.isConstant = false ∧
        draft' = (draft.truncate rightSlot.start).emit (.matchesRegexp regexp) := by
  simp only [Draft.emitBinary] at hemit
  split at hemit
  · rename_i source hconstant
    split at hemit
    · cases hemit
    · rename_i regexp hregexp
      split at hemit
      · cases hemit
        exact Or.inl rfl
      · rename_i hleft
        cases hemit
        exact Or.inr ⟨source, regexp, rfl, hconstant, hregexp, by simpa using hleft, rfl⟩
  · cases hemit
    exact Or.inl rfl

theorem Draft.HoldsOperands.combine [Regexp.Matcher]
    (hoperator : operator.binary? = some operation)
    (h : draft.HoldsOperands lower [left, right])
    (hcombine : draft.combine scope index operator operation left.slot right.slot = .ok draft') :
    ∃ piece, Combined scope index operator [left, right] piece ∧
      draft'.Holds (lower.push piece) [] := by
  simp only [Draft.combine] at hcombine
  split at hcombine
  · cases hcombine
  rename_i hvalues
  have hrightValue : right.slot.IsValue :=
    Slot.isValue_of_requireValues hvalues right.slot (by simp)
  have hleftValue : left.slot.IsValue :=
    Slot.isValue_of_requireValues hvalues left.slot (by simp)
  split at hcombine
  · cases hcombine
  rename_i between leftSlot rightSlot hcompared
  obtain ⟨hslots, hholds⟩ := h.comparedOperands hcompared
  simp only [Prod.mk.injEq] at hslots
  obtain ⟨rfl, rfl⟩ := hslots
  split at hcombine
  · cases hcombine
  rename_i emitted hemit
  cases hcombine
  -- The step is the operation itself, or the operation with its constant pattern.
  rcases Draft.emitBinary_cases hemit with
    rfl | ⟨source, regexp, rfl, hconstant, hregexp, hleft, rfl⟩
  · have hstart : (comparedPieces operator left right).1.slot.start = lower.code.length := by
      refine Eq.trans ?_ h.starts.1
      unfold comparedPieces
      split
      · exact Piece.start_beside
      · rfl
    refine ⟨_, .binary hoperator hleftValue hrightValue rfl, ?_⟩
    rw [← List.append_assoc]
    exact (hholds.emit _).pushResult scope.source
      (binarySlot operator (comparedPieces operator left right).1.slot
        (comparedPieces operator left right).2.slot) hstart rfl _
  · -- Only `REGEXP` has this operation, and it compares nothing.
    obtain rfl : operator = .regexp := by
      cases operator <;> cases hoperator
      rfl
    change left.slot.isConstant = false at hleft
    change right.slot.constant = some (.text source) at hconstant
    refine ⟨_, .pattern hleftValue hrightValue hconstant hregexp hleft, ?_⟩
    have hcut : right.slot.start = (lower.code ++ left.code).length := by
      rw [h.starts.2.1, List.length_append]
    have hemitted := (Draft.Holds.truncate left.code hholds hcut).emit (.matchesRegexp regexp)
    have hresult := hemitted.pushResult scope.source (binarySlot .regexp left.slot right.slot)
      h.starts.1 rfl (left.slot.isConstant && right.slot.isConstant)
    simpa [hleft, Piece.settled, comparedPieces, Operator.isComparison, binarySlot] using hresult

end Compared

/-! ### Operators and operations -/

variable [Regexp.Matcher]

section Operations

variable {draft draft' : Draft} {scope : Scope} {index : Nat} {layout lower : Layout}
  {operands : List Piece} {operator : Operator}

theorem Draft.HoldsOperands.applyTo (hpositive : operator.connective? ≠ none → operands ≠ [])
    (h : draft.HoldsOperands lower operands)
    (happly : draft.applyTo scope index operator (operands.map (·.slot)) = .ok draft') :
    ∃ layout', Layout.Applied scope index operator (neededSlots operator operands.length)
        (lower.pushAll operands) layout' ∧
      draft'.Holds layout' [] := by
  -- The cases are the rows of `applyTo`, told apart by the operator and the number of operands.
  unfold Draft.applyTo at happly
  split at happly
  · rename_i slot hslots
    obtain ⟨piece, rfl, rfl⟩ := List.map_eq_singleton_iff.mp hslots
    cases happly
    exact ⟨_, .discard rfl, h.discard⟩
  · rename_i recordSlot nameSlot hslots
    obtain ⟨record, later, rfl, rfl, hlater⟩ := List.map_eq_cons_iff.mp hslots
    obtain ⟨name, rfl, rfl⟩ := List.map_eq_singleton_iff.mp hlater
    obtain ⟨piece, hpiece, hholds⟩ := h.readColumn happly
    exact ⟨_, .combine lower hpiece, hholds⟩
  · rename_i slot hslots
    obtain ⟨operand, rfl, rfl⟩ := List.map_eq_singleton_iff.mp hslots
    obtain ⟨piece, hpiece, hholds⟩ := h.invert happly
    exact ⟨_, .combine lower hpiece, hholds⟩
  · rename_i slot hslots
    obtain ⟨operand, rfl, rfl⟩ := List.map_eq_singleton_iff.mp hslots
    obtain ⟨piece, hpiece, hholds⟩ := h.negate happly
    exact ⟨_, .combine lower hpiece, hholds⟩
  · -- The function of a call is the slot below its arguments.
    obtain ⟨spare, pieces⟩ := lower
    have hslots := h.holds.slots
    cases pieces with
    | nil =>
        rw [hslots] at happly
        cases happly
    | cons target pieces =>
        rw [hslots] at happly
        have htop : draft.HoldsOperands (Layout.push ⟨spare, pieces⟩ target) operands := h
        obtain ⟨piece, hpiece, hholds⟩ := htop.takeSlot.call happly
        exact ⟨_, .combine ⟨spare, pieces⟩ hpiece, hholds⟩
  · rename_i operator _ _ hcall _ _ _ _
    rw [show neededSlots operator operands.length = operands.length from if_neg hcall]
    split at happly
    · rename_i connective slots hconnective
      obtain ⟨first, later, rfl⟩ : ∃ first later, operands = first :: later := by
        refine List.exists_cons_of_ne_nil (hpositive ?_)
        simp [hconnective]
      obtain ⟨piece, hpiece, hholds⟩ := h.connect hconnective happly
      exact ⟨_, .combine lower hpiece, hholds⟩
    · rename_i operation leftSlot rightSlot hoperation hslots _
      obtain ⟨left, later, rfl, rfl, hlater⟩ := List.map_eq_cons_iff.mp hslots
      obtain ⟨right, rfl, rfl⟩ := List.map_eq_singleton_iff.mp hlater
      obtain ⟨piece, hpiece, hholds⟩ := h.combine hoperation happly
      exact ⟨_, .combine lower hpiece, hholds⟩
    · cases happly

omit [Regexp.Matcher] in
theorem one_le_of_connective {arity : Int} (hconnective : operator.connective? ≠ none)
    (harity : operator.acceptsArity arity = true) : 1 ≤ arity := by
  have hleast := (Operator.acceptsArity_iff.mp harity).1
  cases operator with
  | and | or | andNot => exact hleast
  | _ => exact absurd rfl hconnective

/-- An operator whose arity is accepted changes the layout in one of the ways it can. -/
theorem Draft.Holds.apply {arity : Int} (h : draft.Holds layout [])
    (harity : operator.acceptsArity arity = true)
    (happly : draft.apply scope index operator arity.toNat = .ok draft') :
    ∃ layout', Layout.Applied scope index operator (neededSlots operator arity.toNat) layout
        layout' ∧
      draft'.Holds layout' [] := by
  simp only [Draft.apply] at happly
  split at happly
  · cases happly
  split at happly
  · rename_i slots below htake
    have hstart : draft.HoldsOperands layout [] := ⟨h, trivial, by simp⟩
    obtain ⟨lower, operands, rfl, hlayout, hlength, hoperands⟩ := hstart.takeTop htake
    rw [Layout.pushAll_nil] at hlayout
    rw [hlayout, show arity.toNat = operands.length from hlength.symm]
    refine hoperands.applyTo ?_ happly
    -- The result of a connective starts where its first operand does, so there has to be one.
    intro hconnective hnil
    have hleast := one_le_of_connective hconnective harity
    rw [hnil, List.length_nil] at hlength
    omega
  · cases happly

/-- Every operation that compiles makes a step from one layout to the next. -/
theorem Draft.Holds.add {operation : Operation} (h : draft.Holds layout [])
    (hadd : draft.add scope index operation = .ok draft') :
    ∃ layout', Layout.Step scope index operation layout layout' ∧ draft'.Holds layout' [] := by
  -- An operand is pushed first; then either `PUSH` is done or the operator is applied.
  obtain ⟨operator, arity, operand⟩ := operation
  simp only [Draft.add] at hadd
  split at hadd
  · split at hadd
    · cases hadd
    rename_i hpush
    split at hadd
    · rename_i harity
      obtain ⟨layout', happlied, hholds⟩ := h.apply harity hadd
      exact ⟨layout', .apply hpush happlied, hholds⟩
    · cases hadd
  · split at hadd
    · cases hadd
    rename_i pushed hpushed
    obtain ⟨piece, hpiece, hholds⟩ := h.pushOperand hpushed
    split at hadd
    · rename_i hpush
      split at hadd
      · rename_i harity
        cases hadd
        subst hpush harity
        exact ⟨_, .push hpiece, hholds⟩
      · cases hadd
    · rename_i hpush
      split at hadd
      · rename_i harity
        obtain ⟨layout', happlied, hholds⟩ := hholds.apply harity hadd
        exact ⟨layout', .pushApply hpush hpiece happlied, hholds⟩
      · cases hadd

end Operations

/-! ## Whole lists of operations -/

theorem Draft.Holds.addAll {draft draft' : Draft} {scope : Scope} {index : Nat} {layout : Layout}
    {operations : List Operation} (h : draft.Holds layout [])
    (hadd : draft.addAll scope index operations = .ok draft') :
    ∃ layout', Layout.Steps scope index operations layout layout' ∧ draft'.Holds layout' [] := by
  induction operations generalizing draft index layout with
  | nil =>
      cases hadd
      exact ⟨layout, .nil, h⟩
  | cons operation later ih =>
      simp only [Draft.addAll] at hadd
      split at hadd
      · cases hadd
      · rename_i between hbetween
        obtain ⟨middle, hstep, hmiddle⟩ := h.add hbetween
        obtain ⟨layout', hsteps, hholds⟩ := ih hmiddle hadd
        exact ⟨layout', .cons hstep hsteps, hholds⟩

/-- A compiled expression comes from a draft with one slot, which stands for a value. -/
theorem exists_draft_of_compile {source : Source} {vars : Variables}
    {operations : List Operation} {compiled : Compiled}
    (h : compile source vars operations = .ok compiled) :
    ∃ (draft : Draft) (slot : Slot), Draft.start.addAll ⟨source, vars⟩ 0 operations = .ok draft ∧
      draft.slots = [slot] ∧ slot.IsValue ∧
      compiled = ⟨.ofOps draft.ops.toList, slot.domain, Snippet.distinct slot.keywords⟩ := by
  simp only [compile] at h
  split at h
  · cases h
  split at h
  · cases h
  rename_i draft hdraft
  simp only [Draft.conclude] at h
  split at h
  · rename_i slot hslots
    obtain ⟨_, hvalue, hcompiled⟩ := exists_of_map_eq_ok h
    exact ⟨draft, slot, hdraft, hslots, Slot.isValue_of_requireValue hvalue, hcompiled.symm⟩
  · cases h

/-- A compiled expression comes from a layout with one piece, which stands for a value. -/
theorem compile_layout {source : Source} {vars : Variables} {operations : List Operation}
    {compiled : Compiled} (h : compile source vars operations = .ok compiled) :
    ∃ spare piece, Layout.Steps ⟨source, vars⟩ 0 operations .empty ⟨spare, [piece]⟩ ∧
      piece.slot.IsValue ∧
      compiled = ⟨.ofOps (spare ++ piece.code), piece.slot.domain,
        Snippet.distinct piece.slot.keywords⟩ := by
  obtain ⟨draft, slot, hdraft, hslots, hvalue, rfl⟩ := exists_draft_of_compile h
  obtain ⟨⟨spare, pieces⟩, hsteps, hholds⟩ := Draft.Holds.start.addAll hdraft
  obtain ⟨piece, rfl, rfl⟩ := List.map_eq_singleton_iff.mp (hholds.slots.symm.trans hslots)
  have hops : draft.ops.toList = spare ++ piece.code := hholds.ops_code
  exact ⟨spare, piece, hsteps, hvalue, by rw [hops]⟩

end RecordQuery.Compile

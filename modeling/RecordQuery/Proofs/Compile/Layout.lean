import RecordQuery.Compile.Basic

/-!
# Layouts of drafts

A draft keeps its steps in one array and its slots in another list.  A layout puts the two together:
every slot becomes a `Piece` with the steps from its start to the start of the slot above it, and
the steps below the lowest slot are spare.  `Draft.Holds draft layout code` says that the draft has
this layout and, behind it, the steps `code` of slots that are being combined at the moment.

Every change that the compiler makes to a draft has one lemma here that says what becomes of the
layout, so that later proofs never look at indices.
-/

namespace RecordQuery.Compile

/-- A slot with the steps from its start on. -/
structure Piece where
  slot : Slot
  /-- Its steps. -/
  code : List Op

/-- The slots of a draft with their steps. -/
structure Layout where
  /-- The steps below the lowest slot. -/
  spare : List Op
  /-- The pieces, the top first. -/
  pieces : List Piece

namespace Layout

/-- The steps of pieces on top of spare ones. -/
def codeOver (spare : List Op) : List Piece → List Op
  | [] => spare
  | piece :: below => codeOver spare below ++ piece.code

/-- All steps of a layout. -/
def code (layout : Layout) : List Op := codeOver layout.spare layout.pieces

/-- Whether every piece on top of spare steps starts where the steps below it end. -/
def PlacedOver (spare : List Op) : List Piece → Prop
  | [] => True
  | piece :: below => piece.slot.start = (codeOver spare below).length ∧ PlacedOver spare below

theorem PlacedOver.start_add_le {spare : List Op} {pieces : List Piece}
    (h : PlacedOver spare pieces) :
    ∀ piece ∈ pieces, piece.slot.start + piece.code.length ≤ (codeOver spare pieces).length := by
  induction pieces with
  | nil => exact fun _ hmem => absurd hmem List.not_mem_nil
  | cons piece below ih =>
      intro other hmem
      rw [codeOver, List.length_append]
      rcases List.mem_cons.mp hmem with rfl | hmem
      · exact Nat.le_of_eq (congrArg (· + other.code.length) h.1)
      · exact Nat.le_add_right_of_le (ih h.2 other hmem)

/-- The layout before the first operation. -/
def empty : Layout := ⟨[], []⟩

/-- The layout with one more piece. -/
def push (layout : Layout) (piece : Piece) : Layout :=
  { layout with pieces := piece :: layout.pieces }

@[simp] theorem code_push (layout : Layout) (piece : Piece) :
    (layout.push piece).code = layout.code ++ piece.code := rfl

@[simp] theorem spare_push (layout : Layout) (piece : Piece) :
    (layout.push piece).spare = layout.spare := rfl

@[simp] theorem pieces_push (layout : Layout) (piece : Piece) :
    (layout.push piece).pieces = piece :: layout.pieces := rfl

/-- The layout with more pieces, the first of which becomes the lowest. -/
def pushAll (layout : Layout) (operands : List Piece) : Layout :=
  operands.foldl push layout

@[simp] theorem pushAll_nil (layout : Layout) : layout.pushAll [] = layout := rfl

@[simp] theorem pushAll_cons (layout : Layout) (piece : Piece) (operands : List Piece) :
    layout.pushAll (piece :: operands) = (layout.push piece).pushAll operands := rfl

theorem spare_pushAll (layout : Layout) (operands : List Piece) :
    (layout.pushAll operands).spare = layout.spare := by
  induction operands generalizing layout with
  | nil => rfl
  | cons piece operands ih => rw [pushAll_cons, ih, spare_push]

theorem pieces_pushAll (layout : Layout) (operands : List Piece) :
    (layout.pushAll operands).pieces = operands.reverse ++ layout.pieces := by
  induction operands generalizing layout with
  | nil => rfl
  | cons piece operands ih => simp [ih]

/-- The operands on top of a layout are told apart from what is below by their number. -/
theorem pushAll_inj {layout lower : Layout} {operands others : List Piece}
    (h : layout.pushAll operands = lower.pushAll others)
    (hlength : operands.length = others.length) : layout = lower ∧ operands = others := by
  have hpieces := congrArg Layout.pieces h
  have hspare := congrArg Layout.spare h
  rw [pieces_pushAll, pieces_pushAll] at hpieces
  rw [spare_pushAll, spare_pushAll] at hspare
  obtain ⟨hoperands, hbelow⟩ := List.append_inj hpieces (by simpa using hlength)
  obtain ⟨spare, pieces⟩ := layout
  obtain ⟨spare', pieces'⟩ := lower
  obtain rfl : spare = spare' := hspare
  obtain rfl : pieces = pieces' := hbelow
  exact ⟨rfl, List.reverse_inj.mp hoperands⟩

/-- The layout with steps added to its topmost piece, or to the spare ones. -/
def absorb (layout : Layout) (extra : List Op) : Layout :=
  match layout.pieces with
  | [] => { layout with spare := layout.spare ++ extra }
  | piece :: below =>
    { layout with pieces := { piece with code := piece.code ++ extra } :: below }

theorem code_absorb (layout : Layout) (extra : List Op) :
    (layout.absorb extra).code = layout.code ++ extra := by
  obtain ⟨spare, pieces⟩ := layout
  cases pieces with
  | nil => rfl
  | cons piece below => simp [absorb, code, codeOver]

end Layout

/-! ## Conditions on all pieces -/

/-- Whether the spare steps of a layout and all its pieces satisfy conditions. -/
structure Layout.All (onSpare : List Op → Prop) (onPiece : Piece → Prop) (layout : Layout) :
    Prop where
  /-- The condition on the spare steps. -/
  spare : onSpare layout.spare
  /-- The condition on the pieces. -/
  pieces : ∀ piece ∈ layout.pieces, onPiece piece

namespace Layout.All

variable {onSpare : List Op → Prop} {onPiece : Piece → Prop} {layout : Layout}

theorem empty (h : onSpare []) : Layout.empty.All onSpare onPiece :=
  ⟨h, fun _ hmem => absurd hmem List.not_mem_nil⟩

theorem push {piece : Piece} (h : layout.All onSpare onPiece) (hpiece : onPiece piece) :
    (layout.push piece).All onSpare onPiece := by
  refine ⟨h.spare, fun other hmem => ?_⟩
  rcases List.mem_cons.mp hmem with rfl | hmem
  · exact hpiece
  · exact h.pieces other hmem

theorem of_pushAll {operands : List Piece} (h : (layout.pushAll operands).All onSpare onPiece) :
    layout.All onSpare onPiece ∧ ∀ operand ∈ operands, onPiece operand := by
  have hpieces := h.pieces
  have hspare := h.spare
  rw [spare_pushAll] at hspare
  simp only [pieces_pushAll, List.mem_append, List.mem_reverse] at hpieces
  exact ⟨⟨hspare, fun piece hmem => hpieces piece (Or.inr hmem)⟩,
    fun operand hmem => hpieces operand (Or.inl hmem)⟩

end Layout.All

/-! ## Drafts with a layout -/

/-- Whether a constant piece begins with the step that pushes its value. -/
def Piece.Known (piece : Piece) : Prop :=
  ∀ value, piece.slot.constant = some value → piece.code.head? = some (.load value)

/-- The draft has a layout and, behind its steps, some that belong to no slot yet. -/
structure Draft.Holds (draft : Draft) (layout : Layout) (code : List Op) : Prop where
  /-- The steps are those of the layout and then the ones that are behind it. -/
  ops : draft.ops.toList = layout.code ++ code
  /-- The slots are those of the pieces. -/
  slots : draft.slots = layout.pieces.map (·.slot)
  /-- Every slot starts where the steps below it end. -/
  placed : Layout.PlacedOver layout.spare layout.pieces
  /-- Constants are pushed by the first of their steps. -/
  known : ∀ piece ∈ layout.pieces, piece.Known

namespace Draft.Holds

variable {draft : Draft} {layout : Layout} {code : List Op}

theorem size (h : draft.Holds layout code) :
    draft.ops.size = (layout.code ++ code).length := by
  rw [← h.ops, Array.length_toList]

theorem ops_code (h : draft.Holds layout []) : draft.ops.toList = layout.code := by
  rw [h.ops, List.append_nil]

theorem size_code (h : draft.Holds layout []) : draft.ops.size = layout.code.length := by
  rw [h.size, List.append_nil]

theorem start : Draft.start.Holds Layout.empty [] :=
  ⟨rfl, rfl, trivial, fun _ hmem => absurd hmem List.not_mem_nil⟩

theorem withOps (h : draft.Holds layout code) {ops : Array Op} {code' : List Op}
    (hops : ops.toList = layout.code ++ code') :
    ({ draft with ops := ops } : Draft).Holds layout code' :=
  ⟨hops, h.slots, h.placed, h.known⟩

theorem emit (h : draft.Holds layout code) (op : Op) :
    (draft.emit op).Holds layout (code ++ [op]) :=
  h.withOps (by rw [Array.toList_push, h.ops, List.append_assoc])

theorem truncate (kept : List Op) {dropped : List Op} (h : draft.Holds layout (kept ++ dropped))
    {start : Nat} (hstart : start = (layout.code ++ kept).length) :
    (draft.truncate start).Holds layout kept :=
  h.withOps (by
    rw [Array.take_eq_extract, Array.toList_extract, List.extract_eq_take_drop, List.drop_zero,
      Nat.sub_zero, h.ops, ← List.append_assoc, hstart, List.take_left])

theorem setOp {before : List Op} {op : Op} {behind : List Op}
    (h : draft.Holds layout (before ++ op :: behind)) {start : Nat}
    (hstart : start = (layout.code ++ before).length) (op' : Op) :
    ({ draft with ops := draft.ops.setIfInBounds start op' } : Draft).Holds layout
      (before ++ op' :: behind) :=
  h.withOps (by
    rw [Array.toList_setIfInBounds, h.ops, hstart, ← List.append_assoc,
      List.set_append_right _ _ (Nat.le_refl _)]
    simp)

theorem pushSlot (h : draft.Holds layout code) {slot : Slot}
    (hstart : slot.start = layout.code.length) (hknown : Piece.Known ⟨slot, code⟩) :
    (draft.push slot).Holds (layout.push ⟨slot, code⟩) [] := by
  refine ⟨?_, ?_, ⟨hstart, h.placed⟩, ?_⟩
  · rw [Layout.code_push, List.append_nil]
    exact h.ops
  · simp [Draft.push, h.slots]
  · intro piece hmem
    rcases List.mem_cons.mp hmem with rfl | hmem
    · exact hknown
    · exact h.known piece hmem

theorem popSlot {piece : Piece} (h : draft.Holds (layout.push piece) code) :
    ({ draft with slots := layout.pieces.map (·.slot) } : Draft).Holds layout
        (piece.code ++ code) ∧
      piece.slot.start = layout.code.length ∧ piece.Known := by
  obtain ⟨hops, _, ⟨hstart, hplaced⟩, hknown⟩ := h
  refine ⟨⟨?_, rfl, hplaced, ?_⟩, hstart, hknown piece (List.mem_cons_self ..)⟩
  · rw [hops, Layout.code_push, List.append_assoc]
  · exact fun other hmem => hknown other (List.mem_cons_of_mem _ hmem)

/-- The steps behind a layout become part of its topmost piece, or spare. -/
theorem absorb (h : draft.Holds layout code) : draft.Holds (layout.absorb code) [] := by
  have hops : draft.ops.toList = (layout.absorb code).code ++ [] := by
    rw [Layout.code_absorb, List.append_nil, h.ops]
  obtain ⟨spare, pieces⟩ := layout
  cases pieces with
  | nil => exact ⟨hops, h.slots, trivial, h.known⟩
  | cons piece below =>
      refine ⟨hops, h.slots, h.placed, fun other hmem => ?_⟩
      rcases List.mem_cons.mp hmem with rfl | hmem
      · intro value hvalue
        have hhead := h.known piece (List.mem_cons_self ..) value hvalue
        simp [List.head?_append, hhead]
      · exact h.known other (List.mem_cons_of_mem _ hmem)

end Draft.Holds

end RecordQuery.Compile

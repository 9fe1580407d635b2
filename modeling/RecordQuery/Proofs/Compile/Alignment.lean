import RecordQuery.Proofs.Compile.Locality
import RecordQuery.Proofs.Compile.StackSafety
import RecordQuery.Proofs.Program.Splicing
import RecordQuery.Regexp.Standard

/-!
# The steps of slots

The compiler cuts off, overwrites and computes the steps of its operands by the numbers at which
their slots start.  These numbers are right at any time (`Draft.Aligned`): the slots start one
behind the other, what is between two starts leaves the value of its slot on top of whatever the
stack holds, and a constant is pushed by the step at its start.  The steps that `POP` leaves behind
are among those of the slot below them and do not disturb it.

So an operation that takes slots off changes no step below the lowest of them (`Draft.Replaced`).
-/

namespace RecordQuery

theorem Lifts.sum_stackEffect {limit depth last : Nat} {ops : List Op}
    (h : Lifts limit depth ops last) : depth + (ops.map Op.stackEffect).sum = (last : Int) := by
  induction h with
  | nil => simp
  | @cons kept last op rest _ _ ih =>
      rw [List.map_cons, List.sum_cons, Op.stackEffect_eq]
      omega

namespace Compile

/-! ## Aligned drafts -/

/-- The steps leave the value of a slot on top of any stack, and nothing for a slot that no step
stands for. -/
structure Slot.LeftBy [Regexp.Matcher] (slot : Slot) (code : List Op) : Prop where
  /-- The effects of the steps add up to the number of values. -/
  effect : (code.map Op.stackEffect).sum = slot.height
  /-- On top of a stack the steps do what they do on an empty one. -/
  above : ∀ env state,
    Machine.steps env state code = Machine.runOver state (Machine.steps env .start code)
  /-- A run that does not fail leaves the value. -/
  leaves : ∀ env next, Machine.steps env .start code = .ok next → next.stack.length = slot.height
  /-- Every step that is reached finds its values above the stack that the run started with. -/
  finds : ∀ env state done op later next, code = done ++ op :: later →
    Machine.steps env state done = .ok next →
    state.stack.length + op.taken ≤ next.stack.length

/-- Where the steps of a slot end that has a place from the top: where those of the slot above it
begin, or behind the last step. -/
def Draft.stop (draft : Draft) : Nat → Nat
  | 0 => draft.ops.size
  | place + 1 => (draft.slots[place]?.map (·.start)).getD draft.ops.size

/-- The steps of a slot that has a place from the top. -/
def Draft.segment (draft : Draft) (place : Nat) (slot : Slot) : List Op :=
  draft.ops.toList.extract slot.start (draft.stop place)

/-- The starts of the slots fit the steps of a draft. -/
structure Draft.Aligned [Regexp.Matcher] (draft : Draft) : Prop where
  /-- No slot starts before the ones below it. -/
  ordered : draft.slots.Pairwise fun upper lower => lower.start ≤ upper.start
  /-- No slot starts behind the last step. -/
  within : ∀ slot ∈ draft.slots, slot.start ≤ draft.ops.size
  /-- The steps between two starts leave the value of their slot. -/
  segments : ∀ place (slot : Slot), draft.slots[place]? = some slot →
    slot.LeftBy (draft.segment place slot)
  /-- A constant is pushed by the step at its start. -/
  constants : ∀ slot ∈ draft.slots, ∀ value, slot.constant = some value →
    draft.ops[slot.start]? = some (.load value)

/-- Where the steps of the topmost slots begin. -/
def Draft.floor (draft : Draft) (consumed : List Slot) : Nat :=
  (consumed.getLast?.map (·.start)).getD draft.ops.size

/-- The next draft has other slots in place of the topmost ones, and the same steps below the lowest
of these. -/
structure Draft.Replaced (draft next : Draft) (consumed kept made : List Slot) : Prop where
  /-- The slots that are taken off are the topmost ones. -/
  slots : draft.slots = consumed ++ kept
  /-- The others are kept as they are. -/
  slots_next : next.slots = made ++ kept
  /-- What is made of them starts where the lowest of them did; only the steps from there on are
  computed ahead. -/
  made_start : ∀ slot ∈ made, slot.start = draft.floor consumed
  /-- There are as many steps below the lowest of them. -/
  floor_le : draft.floor consumed ≤ next.ops.size
  /-- They are the same as before. -/
  below : next.ops.toList.take (draft.floor consumed) =
    draft.ops.toList.take (draft.floor consumed)

/-- The number of slots of a draft that an operation takes off: all that its operator needs, but for
the one of its own operand. -/
def consumedSlots (operation : Operation) : Nat :=
  neededSlots operation.operator operation.arity.toNat -
    if operation.operand.isSome then 1 else 0

/-- The number of slots that an operation puts in their place. -/
def producedSlots (operation : Operation) : Nat := if operation.operator = .pop then 0 else 1

/-! ## The steps of pieces -/

theorem Piece.Balanced.leftBy [Regexp.Matcher] {limit : Nat} {piece : Piece}
    (h : piece.Balanced limit) : piece.slot.LeftBy piece.code := by
  refine ⟨?_, fun env state => Machine.steps_above h.lifts state, fun env next hsteps => ?_, ?_⟩
  · simpa using h.lifts.sum_stackEffect
  · exact Machine.steps_lifts h.lifts rfl hsteps
  · intro env state done op later next hcode hsteps
    have hlifts := h.lifts
    rw [hcode] at hlifts
    obtain ⟨depth, hdone, hrest⟩ := hlifts.split
    obtain ⟨_, kept, rfl, _⟩ := hrest.head
    -- The depth before a step is known above any stack, the one the run starts with included.
    have hdepth := Machine.steps_lifts (hdone.above state.stack.length) (Nat.add_zero _).symm hsteps
    omega

namespace Layout

variable {spare : List Op} {pieces : List Piece} {layout : Layout}

theorem codeOver_drop_prefix (spare : List Op) (pieces : List Piece) (count : Nat) :
    codeOver spare (pieces.drop count) <+: codeOver spare pieces := by
  induction pieces generalizing count with
  | nil => simp
  | cons piece below ih =>
      cases count with
      | zero => exact List.prefix_rfl
      | succ count => exact (ih count).trans (List.prefix_append ..)

theorem PlacedOver.start_eq (h : PlacedOver spare pieces) {place : Nat} {piece : Piece}
    (hpiece : pieces[place]? = some piece) :
    piece.slot.start = (codeOver spare (pieces.drop (place + 1))).length := by
  induction pieces generalizing place with
  | nil => cases hpiece
  | cons top below ih =>
      cases place with
      | zero =>
          cases hpiece
          exact h.1
      | succ place => exact ih h.2 hpiece

theorem codeOver_drop {place : Nat} {piece : Piece} (hpiece : pieces[place]? = some piece) :
    codeOver spare (pieces.drop place) =
      codeOver spare (pieces.drop (place + 1)) ++ piece.code := by
  obtain ⟨hlt, rfl⟩ := List.getElem?_eq_some_iff.mp hpiece
  rw [List.drop_eq_getElem_cons hlt]
  rfl

theorem PlacedOver.pairwise_start (h : PlacedOver spare pieces) :
    pieces.Pairwise fun upper lower => lower.slot.start ≤ upper.slot.start := by
  induction pieces with
  | nil => exact .nil
  | cons piece below ih =>
      refine List.pairwise_cons.mpr ⟨fun lower hmem => ?_, ih h.2⟩
      have hend := h.2.start_add_le lower hmem
      rw [h.1]
      omega

end Layout

section Holds

variable {draft : Draft} {layout : Layout} {place : Nat} {piece : Piece}

theorem Draft.Holds.stop_eq (h : draft.Holds layout []) (hplace : place ≤ layout.pieces.length) :
    draft.stop place = (Layout.codeOver layout.spare (layout.pieces.drop place)).length := by
  cases place with
  | zero => exact h.size_code
  | succ place =>
      have hpiece : layout.pieces[place]? = some layout.pieces[place] := getElem?_pos ..
      have hslot : draft.slots[place]? = some layout.pieces[place].slot := by
        rw [h.slots, List.getElem?_map, hpiece]
        rfl
      simp only [Draft.stop, hslot, Option.map_some, Option.getD_some]
      exact h.placed.start_eq hpiece

/-- The steps between the starts of two slots are those of the piece. -/
theorem Draft.Holds.segment_eq (h : draft.Holds layout [])
    (hpiece : layout.pieces[place]? = some piece) :
    draft.segment place piece.slot = piece.code := by
  obtain ⟨hlt, _⟩ := List.getElem?_eq_some_iff.mp hpiece
  obtain ⟨above, habove⟩ := Layout.codeOver_drop_prefix layout.spare layout.pieces place
  have hops : draft.ops.toList =
      Layout.codeOver layout.spare (layout.pieces.drop (place + 1)) ++ (piece.code ++ above) :=
    calc draft.ops.toList
        _ = Layout.codeOver layout.spare layout.pieces := h.ops_code
        _ = Layout.codeOver layout.spare (layout.pieces.drop place) ++ above := habove.symm
        _ = _ := by rw [Layout.codeOver_drop hpiece, List.append_assoc]
  rw [Draft.segment, h.stop_eq (Nat.le_of_lt hlt), h.placed.start_eq hpiece, hops,
    Layout.codeOver_drop hpiece, List.extract_eq_take_drop, List.drop_left, List.length_append,
    Nat.add_sub_cancel_left, List.take_left]

/-- A draft with a balanced layout is aligned. -/
theorem Draft.Holds.aligned [Regexp.Matcher] {limit : Nat} (h : draft.Holds layout [])
    (hbalanced : layout.Balanced limit) : draft.Aligned := by
  -- The slots of the draft are those of the pieces of the layout, in the same order.
  have hslot {place : Nat} {slot : Slot} (hplace : draft.slots[place]? = some slot) :
      ∃ piece, layout.pieces[place]? = some piece ∧ piece.slot = slot := by
    rw [h.slots, List.getElem?_map] at hplace
    exact Option.map_eq_some_iff.mp hplace
  refine ⟨?_, fun slot hmem => ?_, fun place slot hplace => ?_, fun slot hmem value hvalue => ?_⟩
  · rw [h.slots]
    exact List.pairwise_map.mpr h.placed.pairwise_start
  · rw [h.slots] at hmem
    obtain ⟨piece, hpiece, rfl⟩ := List.mem_map.mp hmem
    calc piece.slot.start
        _ ≤ piece.slot.start + piece.code.length := Nat.le_add_right ..
        _ ≤ layout.code.length := h.placed.start_add_le piece hpiece
        _ = draft.ops.size := h.size_code.symm
  · obtain ⟨piece, hpiece, rfl⟩ := hslot hplace
    rw [h.segment_eq hpiece]
    exact (hbalanced.pieces piece (List.mem_of_getElem? hpiece)).leftBy
  · -- The first step of a piece is the one at the start of its slot.
    obtain ⟨place, hplace⟩ := List.mem_iff_getElem?.mp hmem
    obtain ⟨piece, hpiece, rfl⟩ := hslot hplace
    have hhead := h.known piece (List.mem_of_getElem? hpiece) value hvalue
    rw [← h.segment_eq hpiece, Draft.segment, List.extract_eq_take_drop, List.head?_take] at hhead
    split at hhead
    · cases hhead
    · rwa [List.head?_drop, Array.getElem?_toList] at hhead

end Holds

/-! ## Operations -/

namespace Layout

variable {lower layout : Layout}

/-- What becomes of the layout below the operands of an operator: it gets a piece for the result, or
its topmost piece gets the steps that `POP` leaves behind. -/
inductive Extends (lower : Layout) : Operator → Layout → Prop
  | push {operator : Operator} (piece : Piece) :
      operator ≠ .pop → Extends lower operator (lower.push piece)
  | absorb (extra : List Op) : Extends lower .pop (lower.absorb extra)

theorem absorb_nil (layout : Layout) : layout.absorb [] = layout := by
  obtain ⟨spare, pieces⟩ := layout
  cases pieces <;> simp [absorb]

theorem slots_absorb (layout : Layout) (extra : List Op) :
    (layout.absorb extra).pieces.map (·.slot) = layout.pieces.map (·.slot) := by
  obtain ⟨spare, pieces⟩ := layout
  cases pieces <;> rfl

theorem extends_discard (layout : Layout) (piece : Piece) :
    layout.Extends .pop (layout.discard piece) := by
  have hkept : layout.Extends .pop layout := by
    have habsorb : layout.Extends .pop (layout.absorb []) := .absorb []
    rwa [absorb_nil] at habsorb
  unfold discard
  split
  · exact .absorb _
  · exact .absorb _
  · exact .absorb _
  · split
    · exact hkept
    · exact .absorb _

theorem code_pushAll (layout : Layout) (operands : List Piece) :
    (layout.pushAll operands).code = layout.code ++ operands.flatMap (·.code) := by
  induction operands generalizing layout with
  | nil => simp
  | cons piece operands ih => simp [ih]

theorem PlacedOver.of_pushAll (operands : List Piece)
    (h : PlacedOver (layout.pushAll operands).spare (layout.pushAll operands).pieces) :
    PlacedOver layout.spare layout.pieces := by
  induction operands generalizing layout with
  | nil => exact h
  | cons piece operands ih => exact (ih h).2

theorem push_eq_pushAll {piece : Piece} {operands : List Piece} (hsome : operands ≠ [])
    (h : layout.push piece = lower.pushAll operands) :
    ∃ earlier, operands = earlier ++ [piece] ∧ layout = lower.pushAll earlier := by
  obtain ⟨earlier, last, rfl⟩ := (List.eq_nil_or_concat operands).resolve_left hsome
  have hlast : lower.pushAll (earlier.concat last) = (lower.pushAll earlier).push last := by
    simp [pushAll]
  have htop : layout.pushAll [piece] = (lower.pushAll earlier).pushAll [last] := h.trans hlast
  obtain ⟨rfl, hpiece⟩ := pushAll_inj htop rfl
  exact ⟨earlier, by simpa using hpiece.symm, rfl⟩

end Layout

section Steps

variable [Regexp.Matcher]

theorem Combined.ne_nil {scope : Scope} {index : Nat} {operator : Operator}
    {operands : List Piece} {piece : Piece}
    (h : Combined scope index operator operands piece) : operands ≠ [] := by
  cases h <;> exact List.cons_ne_nil _ _

theorem Combined.ne_pop {scope : Scope} {index : Nat} {operator : Operator}
    {operands : List Piece} {piece : Piece}
    (h : Combined scope index operator operands piece) : operator ≠ .pop := by
  rintro rfl
  cases h with
  | connect hconnective => cases hconnective
  | binary hbinary => cases hbinary

section Operations

variable {scope : Scope} {index : Nat} {operator : Operator} {operation : Operation}
  {layout layout' : Layout}

/-- An operator takes as many pieces off as it needs, and one at least. -/
theorem Layout.Applied.extends {needed : Nat}
    (h : Layout.Applied scope index operator needed layout layout') :
    ∃ (lower : Layout) (operands : List Piece), layout = lower.pushAll operands ∧
      operands.length = needed ∧ operands ≠ [] ∧ lower.Extends operator layout' := by
  cases h with
  | @discard lower piece hpop =>
      subst hpop
      exact ⟨lower, [piece], rfl, rfl, List.cons_ne_nil _ _, lower.extends_discard piece⟩
  | combine lower hcombined =>
      exact ⟨lower, _, rfl, rfl, hcombined.ne_nil, .push _ hcombined.ne_pop⟩

/-- An operation takes pieces off and extends the layout below them. -/
theorem Layout.Step.extends (h : Layout.Step scope index operation layout layout') :
    ∃ (lower : Layout) (operands : List Piece), layout = lower.pushAll operands ∧
      operands.length = consumedSlots operation ∧ lower.Extends operation.operator layout' := by
  cases h with
  | push _ => exact ⟨layout, [], rfl, rfl, .push _ nofun⟩
  | apply _ happlied =>
      obtain ⟨lower, operands, rfl, hlength, _, hextends⟩ := happlied.extends
      exact ⟨lower, operands, rfl, hlength, hextends⟩
  | pushApply _ _ happlied =>
      -- The operand of the operation itself is the topmost of those that its operator needs.
      obtain ⟨lower, operands, hlayout, hlength, hsome, hextends⟩ := happlied.extends
      obtain ⟨earlier, rfl, rfl⟩ := Layout.push_eq_pushAll hsome hlayout
      refine ⟨lower, earlier, rfl, ?_, hextends⟩
      rw [List.length_append] at hlength
      simp only [consumedSlots, Option.isSome_some, if_true, ← hlength]
      rfl

omit [Regexp.Matcher] in
/-- The steps of operands begin where those of the layout below them end. -/
theorem Draft.Holds.floor_eq {draft : Draft} {lower : Layout} {operands : List Piece}
    (h : draft.Holds (lower.pushAll operands) []) :
    draft.floor (operands.reverse.map (·.slot)) = lower.code.length := by
  unfold Draft.floor
  cases operands with
  | nil => exact h.size_code
  | cons first later =>
      have hplaced : Layout.PlacedOver (lower.push first).spare (lower.push first).pieces :=
        Layout.PlacedOver.of_pushAll later h.placed
      have hlowest : (((first :: later).reverse.map (·.slot)).getLast?.map (·.start)).getD
          draft.ops.size = first.slot.start := by simp
      exact hlowest.trans hplaced.1

/-- Every operation that compiles leaves the steps below its operands alone. -/
theorem Draft.Holds.replaced {draft next : Draft} (h : draft.Holds layout [])
    (hadd : draft.add scope index operation = .ok next) :
    ∃ consumed kept made, consumed.length = consumedSlots operation ∧
      made.length = producedSlots operation ∧ draft.Replaced next consumed kept made := by
  obtain ⟨layout', hstep, hnext⟩ := h.add hadd
  obtain ⟨lower, operands, rfl, hlength, hextends⟩ := hstep.extends
  have hslots : draft.slots =
      operands.reverse.map (·.slot) ++ lower.pieces.map (·.slot) := by
    rw [h.slots, Layout.pieces_pushAll, List.map_append]
  have hops : draft.ops.toList = lower.code ++ operands.flatMap (·.code) := by
    rw [h.ops_code, Layout.code_pushAll]
  -- Either way the next layout has the steps of the lower one and more behind them.
  have hbelow {made : List Slot} {extra : List Op}
      (hnextSlots : next.slots = made ++ lower.pieces.map (·.slot))
      (hnextOps : next.ops.toList = lower.code ++ extra)
      (hstart : ∀ slot ∈ made, slot.start = lower.code.length) :
      draft.Replaced next (operands.reverse.map (·.slot)) (lower.pieces.map (·.slot)) made := by
    refine ⟨hslots, hnextSlots, ?_, ?_, ?_⟩
    · rw [h.floor_eq]
      exact hstart
    · rw [h.floor_eq, ← Array.length_toList, hnextOps, List.length_append]
      exact Nat.le_add_right _ _
    · rw [h.floor_eq, hnextOps, hops, List.take_left, List.take_left]
  have hconsumed : (operands.reverse.map (·.slot)).length = consumedSlots operation := by
    rw [List.length_map, List.length_reverse, hlength]
  generalize hoperator : operation.operator = operator at hextends
  cases hextends with
  | push piece hpop =>
      have hproduced : producedSlots operation = 1 := if_neg (hoperator ▸ hpop)
      have hnextOps : next.ops.toList = lower.code ++ piece.code := hnext.ops_code
      refine ⟨_, _, [piece.slot], hconsumed, hproduced.symm,
        hbelow hnext.slots hnextOps fun slot hmem => ?_⟩
      rw [List.mem_singleton.mp hmem]
      exact hnext.placed.1
  | absorb extra =>
      have hproduced : producedSlots operation = 0 := if_pos hoperator
      have hnextSlots : next.slots = [] ++ lower.pieces.map (·.slot) := by
        rw [hnext.slots, Layout.slots_absorb]
        rfl
      have hnextOps : next.ops.toList = lower.code ++ extra := by
        rw [hnext.ops_code, Layout.code_absorb]
      exact ⟨_, _, [], hconsumed, hproduced.symm,
        hbelow hnextSlots hnextOps fun slot hmem => absurd hmem List.not_mem_nil⟩

end Operations

/-! ## Whole lists of operations -/

/-- After the first of some operations that compile, the draft is aligned.  The next operation takes
the slots of its operands off, makes one for its result unless it is `POP`, and leaves alone what is
below its operands. -/
theorem addAll_aligned {scope : Scope} {before after : List Operation} {last : Draft}
    (h : Draft.start.addAll scope 0 (before ++ after) = .ok last) :
    ∃ draft, Draft.start.addAll scope 0 before = .ok draft ∧ draft.Aligned ∧
      ∀ operation later, after = operation :: later →
        ∃ next consumed kept made, draft.add scope before.length operation = .ok next ∧
          consumed.length = consumedSlots operation ∧ made.length = producedSlots operation ∧
          draft.Replaced next consumed kept made := by
  rw [Draft.addAll_append] at h
  split at h
  · cases h
  rename_i draft hdraft
  obtain ⟨layout, hsteps, hholds⟩ := Draft.Holds.start.addAll hdraft
  refine ⟨draft, hdraft, hholds.aligned (hsteps.balanced .empty), ?_⟩
  rintro operation later rfl
  rw [Nat.zero_add, Draft.addAll] at h
  split at h
  · cases h
  · rename_i next hnext
    obtain ⟨consumed, kept, made, hreplaced⟩ := hholds.replaced hnext
    exact ⟨next, consumed, kept, made, hnext, hreplaced⟩

end Steps

/-- A sum of constants above a column and a discarded variable: it is computed in place of the
constants, and the steps of the column stay as they are, with those that `POP` left behind. -/
theorem addAll_aligned_sum :
    let title : ColumnRef := ⟨⟨1⟩, .stored 0, "Docs.title", .scalar .text⟩
    let scope : Scope :=
      ⟨⟨fun _ => .ok (.column title), fun _ _ => .ok title, fun _ _ => .ok (.text "Needle"),
          fun _ => none, none⟩,
        Variables.empty.define none (.table ⟨1⟩)⟩
    let before : List Operation :=
      [.push (.name "title"), .push (.variableAt 0), .apply .pop 1,
        .push (.ofValue (.integer 7)), .push (.ofValue (.integer 1))]
    let sum : Operation := .apply .plus 2
    ∃ draft next consumed kept made, Draft.start.addAll scope 0 before = .ok draft ∧
      draft.slots.map (·.start) = [5, 4, 0] ∧ draft.ops.size = 6 ∧ draft.Aligned ∧
      draft.add scope 5 sum = .ok next ∧ consumed.length = 2 ∧ made.length = 1 ∧
      draft.Replaced next consumed kept made ∧
      next.slots.map (·.start) = [4, 0] ∧ next.ops.size = 5 := by
  intro title scope before sum
  obtain ⟨last, hlast⟩ : ∃ last, Draft.start.addAll scope 0 (before ++ [sum]) = .ok last :=
    ⟨_, rfl⟩
  obtain ⟨draft, hdraft, haligned, hnext⟩ := addAll_aligned hlast
  -- The theorem speaks of the sum as the next operation; what it replaced is computed below.
  obtain ⟨next, consumed, kept, made, hadd, hlength, hmade, hreplaced⟩ := hnext sum [] rfl
  have hstarts : draft.slots.map (·.start) = [5, 4, 0] ∧ draft.ops.size = 6 := by
    cases hdraft
    exact ⟨rfl, rfl⟩
  have hresult : next.slots.map (·.start) = [4, 0] ∧ next.ops.size = 5 := by
    cases hdraft
    cases hadd
    exact ⟨rfl, rfl⟩
  exact ⟨draft, next, consumed, kept, made, hdraft, hstarts.1, hstarts.2, haligned, hadd, hlength,
    hmade, hreplaced, hresult.1, hresult.2⟩

end Compile

end RecordQuery

import Mathlib.Data.List.Basic
import RecordQuery.Proofs.Compile.Inversion
import RecordQuery.Proofs.Compile.SlotCount
import RecordQuery.Proofs.Except

/-!
# What the compiler refuses

Before it looks at what slots hold, the compiler refuses operations whose arity or operand does not
fit, operators that find too few slots, and lists that do not end with one slot
(`Error.IsStructural`).  It counts slots as `slotsAfter?` does (`Layout.Step.slots`), so sound
operations that end with one slot are never refused for such a reason (`not_isStructural_compile`).
-/

namespace RecordQuery

/-- Whether an error says that operations do not fit together whatever they are about. -/
def Error.IsStructural : Error → Prop
  | .emptyExpression | .invalidArity .. | .stackUnderflow .. | .unbalancedStack ..
  | .compile _ .pushNeedsOperand => True
  | _ => False

namespace Compile

/-! ## Layouts have as many pieces as slots are counted -/

variable [Regexp.Matcher]

theorem Layout.Applied.slots {scope : Scope} {index : Nat} {operator : Operator} {needed : Nat}
    {layout layout' : Layout}
    (happlied : Layout.Applied scope index operator needed layout layout') :
    needed ≤ layout.pieces.length ∧ layout'.pieces.length =
      layout.pieces.length - needed + if operator = .pop then 0 else 1 := by
  -- `POP` takes a piece off and leaves at most steps, every other operator makes one piece.
  cases happlied with
  | @discard base piece hpop =>
      have habsorb (extra : List Op) : (base.absorb extra).pieces.length = base.pieces.length := by
        unfold Layout.absorb
        split
        · rfl
        · rename_i hpieces
          simp [hpieces]
      have hdiscard : (base.discard piece).pieces.length = base.pieces.length := by
        unfold Layout.discard
        split
        all_goals first | exact habsorb _ | split
        all_goals first | exact habsorb _ | rfl
      simp [hpop, hdiscard]
  | @combine base operands piece hcombined =>
      have hpop : operator ≠ .pop := by
        rintro rfl
        cases hcombined with
        | connect hoperator => cases hoperator
        | binary hoperator => cases hoperator
      simp [Layout.pieces_pushAll, hpop]

theorem Layout.Step.slots {scope : Scope} {index : Nat} {operation : Operation}
    {layout layout' : Layout} (hstep : Layout.Step scope index operation layout layout') :
    slotsAfter? layout.pieces.length operation = some layout'.pieces.length := by
  cases hstep with
  | push _ => rfl
  | apply hpush happlied =>
      obtain ⟨hneeded, hlength⟩ := happlied.slots
      simp [slotsAfter?, hpush, Nat.not_lt.mpr hneeded, hlength]
  | pushApply hpush _ happlied =>
      obtain ⟨hneeded, hlength⟩ := happlied.slots
      rw [Layout.pieces_push, List.length_cons] at hneeded hlength
      simp [slotsAfter?, hpush, Nat.not_lt.mpr hneeded, hlength]

/-! ## Refusals of single operators

Whatever the compiler refuses once arities, operands and numbers of slots fit, it refuses for what
the slots hold. -/

section Refusals

variable {draft : Draft} {scope : Scope} {index : Nat} {error : Error}

omit [Regexp.Matcher] in
theorem not_isStructural_requireValue {slot : Slot}
    (h : slot.requireValue index = .error error) : ¬ error.IsStructural := by
  unfold Slot.requireValue at h
  split at h <;> cases h <;> exact id

omit [Regexp.Matcher] in
theorem not_isStructural_requireValues {slots : List Slot}
    (h : Slot.requireValues index slots = .error error) : ¬ error.IsStructural := by
  induction slots with
  | nil => cases h
  | cons slot later ih =>
      simp only [Slot.requireValues] at h
      split at h
      · rename_i hslot
        cases h
        exact not_isStructural_requireValue hslot
      · exact ih h

omit [Regexp.Matcher] in
theorem not_isStructural_pushOperand {operand : Operand}
    (h : draft.pushOperand scope index operand = .error error) : ¬ error.IsStructural := by
  cases operand with
  | variableAt position =>
      simp only [Draft.pushOperand] at h
      split at h
      · cases h
        exact id
      · split at h <;> cases h
        exact id
  | constant cell => cases h
  | object object => cases h
  | name name =>
      simp only [Draft.pushOperand] at h
      split at h <;> cases h
      exact id

omit [Regexp.Matcher] in
theorem not_isStructural_readColumn {record name : Slot}
    (h : draft.readColumn scope index record name = .error error) : ¬ error.IsStructural := by
  simp only [Draft.readColumn] at h
  split at h
  · rename_i hrecord
    cases h
    exact not_isStructural_requireValue hrecord
  · split at h
    · rename_i hdomain
      cases h
      unfold requireRecord at hdomain
      split at hdomain <;> cases hdomain
      exact id
    · split at h
      · rename_i hcolumn
        cases h
        unfold columnOf at hcolumn
        repeat' split at hcolumn
        all_goals cases hcolumn
        all_goals exact id
      · cases h
      · cases h

theorem not_isStructural_call {target : Slot} {arguments : List Slot}
    (h : draft.call scope index target arguments = .error error) : ¬ error.IsStructural := by
  simp only [Draft.call] at h
  split at h
  · split at h
    · cases h
      exact id
    · split at h
      · cases h
        exact id
      · split at h
        · rename_i harguments
          cases h
          exact not_isStructural_requireValues harguments
        · cases h
  · cases h
    exact id

theorem not_isStructural_connect {operator : Operator} {connective : Connective}
    {operands : List Slot}
    (h : draft.connect scope index operator connective operands = .error error) :
    ¬ error.IsStructural := by
  simp only [Draft.connect] at h
  split at h
  · rename_i hoperands
    cases h
    exact not_isStructural_requireValues hoperands
  · split at h <;> cases h
    exact id

theorem not_isStructural_invert {operand : Slot}
    (h : draft.invert scope index operand = .error error) : ¬ error.IsStructural := by
  simp only [Draft.invert] at h
  split at h
  · rename_i hoperand
    cases h
    exact not_isStructural_requireValue hoperand
  · cases h

theorem not_isStructural_negate {operand : Slot}
    (h : draft.negate scope index operand = .error error) : ¬ error.IsStructural := by
  simp only [Draft.negate] at h
  split at h
  · rename_i hoperand
    cases h
    exact not_isStructural_requireValue hoperand
  · split at h
    · rename_i hnumber
      cases h
      unfold requireNumber at hnumber
      split at hnumber
      · cases hnumber
      · cases hnumber
      · split at hnumber <;> cases hnumber
        exact id
    · cases h

omit [Regexp.Matcher] in
theorem not_isStructural_besideRecord {domain : Domain} {slot : Slot}
    (h : draft.besideRecord index domain slot = .error error) : ¬ error.IsStructural := by
  simp only [Draft.besideRecord, Draft.asRecordOf] at h
  split at h
  · split at h
    · split at h <;> cases h
      exact id
    · cases h
  · cases h

theorem not_isStructural_combine {operator : Operator} {operation : Binary} {left right : Slot}
    (h : draft.combine scope index operator operation left right = .error error) :
    ¬ error.IsStructural := by
  -- In the order of the checks: the operands, what they are compared as, and the pattern.
  simp only [Draft.combine] at h
  split at h
  · rename_i hoperands
    cases h
    exact not_isStructural_requireValues hoperands
  · split at h
    · rename_i hcompared
      cases h
      split at hcompared
      · simp only [Draft.comparedOperands] at hcompared
        split at hcompared
        · rename_i hright
          cases hcompared
          exact not_isStructural_besideRecord hright
        · split at hcompared
          · rename_i hleft
            cases hcompared
            exact not_isStructural_besideRecord hleft
          · cases hcompared
      · cases hcompared
    · split at h
      · rename_i hemit
        cases h
        simp only [Draft.emitBinary] at hemit
        split at hemit
        · split at hemit
          · cases hemit
            exact id
          · split at hemit <;> cases hemit
        · cases hemit
      · cases h

omit [Regexp.Matcher] in
theorem arity_eq_of_bounds (count : Nat) {operator : Operator} {operands : List Slot}
    (hbounds : operator.arityBounds = ((count : Int), (count : Int)))
    (hcount : (count : Int) ≠ Operator.unboundedArity)
    (harity : operator.acceptsArity operands.length = true) : operands.length = count := by
  have haccepts := Operator.acceptsArity_iff.mp harity
  rw [hbounds] at haccepts
  obtain ⟨hleast, hgreatest⟩ := haccepts
  have hmost := hgreatest.resolve_left hcount
  simp only at hleast hmost
  omega

/-- An operator that is no push and has an accepted number of operands is only refused for what they
hold. -/
theorem not_isStructural_applyTo {operator : Operator} {operands : List Slot}
    (hpush : operator ≠ .push) (harity : operator.acceptsArity operands.length = true)
    (h : draft.applyTo scope index operator operands = .error error) : ¬ error.IsStructural := by
  -- Every row of `applyTo` has its own refusals; a structural one could only come from the last.
  unfold Draft.applyTo at h
  split at h
  · cases h
  · exact not_isStructural_readColumn h
  · exact not_isStructural_invert h
  · exact not_isStructural_negate h
  · split at h
    · exact not_isStructural_call h
    · cases h
      exact id
  · rename_i hcall hpop hgetValue hnot hnegate
    split at h
    · exact not_isStructural_connect h
    · exact not_isStructural_combine h
    · -- All that is left are operators with a number of operands that they do not accept.
      rename_i hconnective hbinary
      have hone (hbounds : operator.arityBounds = (1, 1)) := List.length_eq_one_iff.mp
        (arity_eq_of_bounds 1 hbounds (by decide) harity)
      have htwo (hbounds : operator.arityBounds = (2, 2)) := List.length_eq_two.mp
        (arity_eq_of_bounds 2 hbounds (by decide) harity)
      cases operator with
      | push => exact absurd rfl hpush
      | call => exact (hcall rfl).elim
      | and | or | andNot => exact (hconnective _ rfl).elim
      | pop =>
          obtain ⟨operand, rfl⟩ := hone rfl
          exact (hpop operand rfl rfl).elim
      | not =>
          obtain ⟨operand, rfl⟩ := hone rfl
          exact (hnot operand rfl rfl).elim
      | negate =>
          obtain ⟨operand, rfl⟩ := hone rfl
          exact (hnegate operand rfl rfl).elim
      | getValue =>
          obtain ⟨record, name, rfl⟩ := htwo rfl
          exact (hgetValue record name rfl rfl).elim
      | _ =>
          obtain ⟨left, right, rfl⟩ := htwo rfl
          exact (hbinary _ left right rfl rfl).elim

omit [Regexp.Matcher] in
theorem length_takeTop {slots operands below : List Slot} {count : Nat} {taken : List Slot}
    (htake : takeTop slots count taken = some (operands, below)) :
    operands.length = count + taken.length := by
  induction count generalizing slots taken with
  | zero =>
      simp only [takeTop, Option.some.injEq, Prod.mk.injEq] at htake
      rw [← htake.1, Nat.zero_add]
  | succ count ih =>
      cases slots with
      | nil => cases htake
      | cons slot below =>
          rw [ih htake, List.length_cons]
          omega

omit [Regexp.Matcher] in
theorem takeTop_ne_none {slots : List Slot} {count : Nat} (hcount : count ≤ slots.length)
    (taken : List Slot) : takeTop slots count taken ≠ none := by
  induction count generalizing slots taken with
  | zero => simp [takeTop]
  | succ count ih =>
      cases slots with
      | nil => cases hcount
      | cons slot below => exact ih (Nat.le_of_succ_le_succ hcount) _

theorem not_isStructural_apply {operator : Operator} {arity : Nat} (hpush : operator ≠ .push)
    (harity : operator.acceptsArity arity = true)
    (hneeded : neededSlots operator arity ≤ draft.slots.length)
    (h : draft.apply scope index operator arity = .error error) : ¬ error.IsStructural := by
  have henough : ¬ (draft.slots.take (neededSlots operator arity)).length <
      neededSlots operator arity := by
    rw [List.length_take]
    omega
  have hcount : arity ≤ draft.slots.length := by
    unfold neededSlots at hneeded
    split at hneeded <;> omega
  simp only [Draft.apply, if_neg henough] at h
  split at h
  · rename_i operands below htake
    have hlength := length_takeTop htake
    rw [List.length_nil, Nat.add_zero] at hlength
    exact not_isStructural_applyTo hpush (hlength ▸ harity) h
  · rename_i htake
    exact absurd htake (takeTop_ne_none hcount [])

/-- A sound operation that finds the slots that it needs is only refused for what they hold. -/
theorem not_isStructural_add {operation : Operation} (hsound : operation.Sound)
    (hslots : slotsAfter? draft.slots.length operation ≠ none)
    (h : draft.add scope index operation = .error error) : ¬ error.IsStructural := by
  obtain ⟨operator, arity, operand⟩ := operation
  obtain ⟨harity, hoperand⟩ := hsound
  simp only at harity hoperand
  simp only [Draft.add, harity, if_true] at h
  -- Accepted arities are natural numbers, so nothing is lost by counting with them.
  have hpositive : (arity.toNat : Int) = arity := by
    have hleast := (Operator.acceptsArity_iff.mp harity).1
    have hbounds : 0 ≤ operator.arityBounds.1 := by
      cases operator <;> decide
    omega
  cases operand with
  | none =>
      have hpush : operator ≠ .push := by simpa using hoperand
      simp only [if_neg hpush] at h
      simp [slotsAfter?, hpush] at hslots
      exact not_isStructural_apply hpush (hpositive.symm ▸ harity) hslots h
  | some operand =>
      obtain rfl : operator = .push := hoperand.mp rfl
      have harityOne : arity = 1 := by
        have hbounds := Operator.acceptsArity_iff.mp harity
        simp [Operator.arityBounds, Operator.unboundedArity] at hbounds
        omega
      simp only [harityOne, if_true] at h
      split at h
      · rename_i hoperand
        cases h
        exact not_isStructural_pushOperand hoperand
      · cases h

/-- Sound operations that find the slots that they need are only refused for what these hold. -/
theorem not_isStructural_addAll {layout : Layout} {operations : List Operation}
    (hholds : draft.Holds layout []) (hsound : ∀ operation ∈ operations, operation.Sound)
    (hslots : slotsAfterAll? layout.pieces.length operations ≠ none)
    (h : draft.addAll scope index operations = .error error) : ¬ error.IsStructural := by
  induction operations generalizing draft index layout with
  | nil => cases h
  | cons operation later ih =>
      have hlength : draft.slots.length = layout.pieces.length := by
        rw [hholds.slots, List.length_map]
      rw [slotsAfterAll?_cons] at hslots
      -- The slots are counted on along the layouts that the operations lead to.
      simp only [Draft.addAll] at h
      split at h
      · rename_i hadd
        cases h
        refine not_isStructural_add (hsound _ (List.mem_cons_self ..)) ?_ hadd
        rw [hlength]
        rintro hnone
        simp [hnone] at hslots
      · rename_i between hadd
        obtain ⟨layout', hstep, hholds'⟩ := hholds.add hadd
        rw [hstep.slots] at hslots
        exact ih hholds' (fun other hmem => hsound other (List.mem_cons_of_mem _ hmem)) hslots h

end Refusals

/-! ## Whole lists of operations -/

theorem Layout.Steps.slots {scope : Scope} {index : Nat} {operations : List Operation}
    {layout layout' : Layout} (hsteps : Layout.Steps scope index operations layout layout') :
    slotsAfterAll? layout.pieces.length operations = some layout'.pieces.length := by
  induction hsteps with
  | nil => rfl
  | cons hstep _ ih =>
      rw [slotsAfterAll?_cons, hstep.slots]
      exact ih

/-- Sound operations that leave one slot are never refused because they do not fit together. -/
theorem not_isStructural_compile {source : Source} {vars : Variables} {operations : List Operation}
    {error : Error} (hsound : ∀ operation ∈ operations, operation.Sound)
    (hslots : slotsAfterAll? 0 operations = some 1)
    (h : compile source vars operations = .error error) : ¬ error.IsStructural := by
  have hnonempty : operations.isEmpty = false := by
    cases operations with
    | nil => cases hslots
    | cons operation later => rfl
  simp only [compile, hnonempty, Bool.false_eq_true, if_false] at h
  split at h
  · rename_i hadd
    cases h
    refine not_isStructural_addAll Draft.Holds.start hsound ?_ hadd
    rw [Layout.empty, List.length_nil, hslots]
    exact Option.some_ne_none _
  · -- Counting slots is counting pieces, so one slot is left and only its kind can be wrong.
    rename_i draft hadd
    obtain ⟨layout, hsteps, hholds⟩ := Draft.Holds.start.addAll hadd
    have hone : layout.pieces.length = 1 := by
      have hcount := hsteps.slots
      rw [Layout.empty, List.length_nil, hslots] at hcount
      exact (Option.some.inj hcount).symm
    obtain ⟨piece, hpiece⟩ := List.length_eq_one_iff.mp hone
    have hslot : draft.slots = [piece.slot] := by
      rw [hholds.slots, hpiece]
      rfl
    simp only [Draft.conclude, hslot] at h
    exact not_isStructural_requireValue (eq_error_of_map_eq_error h)

/-! ## Accepted arities -/

theorem Draft.acceptsArity_of_add {draft draft' : Draft} {scope : Scope} {index : Nat}
    {operation : Operation} (h : draft.add scope index operation = .ok draft') :
    operation.operator.acceptsArity operation.arity = true := by
  obtain ⟨operator, arity, operand⟩ := operation
  simp only [add] at h
  split at h
  · split at h
    · cases h
    · split at h
      · assumption
      · cases h
  · split at h
    · cases h
    · split at h
      · rename_i hpush
        split at h
        · rename_i hone
          subst hpush hone
          rfl
        · cases h
      · split at h
        · assumption
        · cases h

theorem Draft.acceptsArity_of_addAll {draft draft' : Draft} {scope : Scope} {index : Nat}
    {operations : List Operation} (h : draft.addAll scope index operations = .ok draft') :
    ∀ operation ∈ operations, operation.operator.acceptsArity operation.arity = true := by
  induction operations generalizing draft index with
  | nil => exact fun _ hmem => absurd hmem List.not_mem_nil
  | cons operation later ih =>
      simp only [addAll] at h
      split at h
      · cases h
      · rename_i hadd
        exact List.forall_mem_cons.mpr ⟨acceptsArity_of_add hadd, ih h⟩

/-- What compiles has accepted arities and leaves one slot. -/
theorem slots_of_compile {source : Source} {vars : Variables} {operations : List Operation}
    {compiled : Compiled} (h : compile source vars operations = .ok compiled) :
    (∀ operation ∈ operations, operation.operator.acceptsArity operation.arity = true) ∧
      slotsAfterAll? 0 operations = some 1 := by
  obtain ⟨spare, piece, hsteps, _⟩ := compile_layout h
  obtain ⟨draft, slot, hadded, _⟩ := exists_draft_of_compile h
  exact ⟨Draft.acceptsArity_of_addAll hadded, hsteps.slots⟩

end Compile

end RecordQuery

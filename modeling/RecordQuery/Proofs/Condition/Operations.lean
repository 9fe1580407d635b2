import RecordQuery.Proofs.Compile.Refusal
import RecordQuery.Proofs.Condition.Meaning
import RecordQuery.Proofs.Expression.Parsing

/-!
# The operations of conditions

A condition that is proper, so that no set in it is empty and its queries can be read, adds the
operations of its members and then an operator for as many operands (`Condition.addTo_eq`).  These
stand for one value (`Condition.addsSlot`), unless a comparison calls its operands: such a condition
leaves too few slots and is never compiled (`Condition.fits_of_slots`).
-/

namespace RecordQuery

/-! ## Adding operations -/

namespace Expression

variable {e : Expression}

/-- The expression with more operations. -/
def extend (e : Expression) (operations : List Operation) : Expression :=
  { e with operations := e.operations ++ operations }

@[simp] theorem vars_extend (operations : List Operation) :
    (e.extend operations).vars = e.vars := rfl

@[simp] theorem extend_nil : e.extend [] = e := by simp [extend]

theorem extend_extend (first later : List Operation) :
    (e.extend first).extend later = e.extend (first ++ later) := by
  have hoperations : e.operations ++ first ++ later = e.operations ++ (first ++ later) :=
    Array.toList_inj.mp (by simp)
  simp [extend, hoperations]

theorem append_eq (hbuilding : e.stage = .building) (operation : Operation) :
    e.append operation = .ok (e.extend [operation]) := by
  simp [append, requireBuilding, hbuilding, extend]

theorem appendAll_eq (hbuilding : e.stage = .building) (operations : List Operation) :
    e.appendAll operations = .ok (e.extend operations) := by
  induction operations generalizing e with
  | nil => simp [appendAll]
  | cons operation later ih =>
      have hlater : (e.extend [operation]).appendAll later =
          .ok ((e.extend [operation]).extend later) := ih hbuilding
      simp only [appendAll, append_eq hbuilding, hlater, extend_extend, List.singleton_append]

theorem parse_eq (hbuilding : e.stage = .building) {text : String} {options : ParseOptions}
    (hoptions : options.check = .ok ()) {count : Nat}
    (hread : (parseText options (e.vars.size != 0) text).outcome = .ok count) :
    e.parse text options =
      (e.extend (parseText options (e.vars.size != 0) text).operations, .ok ()) := by
  simp [parse, requireBuilding, hbuilding, hoptions, hread, extend]

end Expression

namespace Condition

mutual

/-- Whether no set in a condition is empty and all its queries can be read. -/
def Proper : Condition → Prop
  | comparison _ _ _ => True
  | query text options =>
    options.check = .ok () ∧ ∃ count, (parseText options true text).outcome = .ok count
  | all members | any members => members ≠ [] ∧ AllProper members

/-- Whether this holds of several conditions. -/
def AllProper : List Condition → Prop
  | [] => True
  | member :: later => member.Proper ∧ AllProper later

end

mutual

/-- The operations of a condition. -/
def operations : Condition → List Operation
  | comparison operator name constant => comparisonOperations operator name constant
  | query text options => (parseText options true text).operations
  | all members => operationsOfAll members ++ [.apply .and members.length]
  | any members => operationsOfAll members ++ [.apply .or members.length]

/-- The operations of several conditions in a row. -/
def operationsOfAll : List Condition → List Operation
  | [] => []
  | member :: later => member.operations ++ operationsOfAll later

end

theorem joinMembers_eq {members : List Condition} (hnonempty : members ≠ []) {e : Expression}
    (hbuilding : e.stage = .building) (operator : Operator) :
    joinMembers operator members.length (e.extend (operationsOfAll members)) =
      .ok (e.extend (operationsOfAll members ++ [.apply operator members.length])) := by
  have hcount : members.length ≠ 0 := by simpa using hnonempty
  have hextended : (e.extend (operationsOfAll members)).stage = .building := hbuilding
  rw [joinMembers, if_neg hcount, Expression.appendOperation, Expression.append_eq hextended,
    Expression.extend_extend]

mutual

/-- A proper condition adds its operations. -/
theorem addTo_eq : (condition : Condition) → condition.Proper → {e : Expression} →
    e.stage = .building → e.vars.size ≠ 0 → condition.addTo e = .ok (e.extend condition.operations)
  | comparison _ _ _, _, _, hbuilding, _ => Expression.appendAll_eq hbuilding _
  | query text options, ⟨hoptions, count, hread⟩, e, hbuilding, hvars => by
    have hrecord : (e.vars.size != 0) = true := by simpa using hvars
    rw [← hrecord] at hread
    rw [addTo, Expression.parse_eq hbuilding hoptions hread, hrecord]
    rfl
  | all members, ⟨hnonempty, hmembers⟩, e, hbuilding, hvars => by
    have hjoined := addMembersTo_eq members hmembers hbuilding hvars
    simp only [addTo, hjoined]
    exact joinMembers_eq hnonempty hbuilding .and
  | any members, ⟨hnonempty, hmembers⟩, e, hbuilding, hvars => by
    have hjoined := addMembersTo_eq members hmembers hbuilding hvars
    simp only [addTo, hjoined]
    exact joinMembers_eq hnonempty hbuilding .or

theorem addMembersTo_eq : (members : List Condition) → AllProper members → {e : Expression} →
    e.stage = .building → e.vars.size ≠ 0 →
    addMembersTo members e = .ok (e.extend (operationsOfAll members))
  | [], _, e, _, _ => by simp [addMembersTo, operationsOfAll]
  | member :: later, ⟨hmember, hlater⟩, e, hbuilding, hvars => by
    have hfirst := addTo_eq member hmember hbuilding hvars
    have hrest : addMembersTo later (e.extend member.operations) =
        .ok ((e.extend member.operations).extend (operationsOfAll later)) :=
      addMembersTo_eq later hlater hbuilding hvars
    simp only [addMembersTo, hfirst, hrest, Expression.extend_extend, operationsOfAll]

end

/-! ## Counting slots -/

mutual

/-- Whether all operators of comparisons join two values. -/
def Fits : Condition → Prop
  | comparison operator _ _ => operator.JoinsTwo
  | query _ _ => True
  | all members | any members => AllFit members

/-- Whether this holds of several conditions. -/
def AllFit : List Condition → Prop
  | [] => True
  | member :: later => member.Fits ∧ AllFit later

end

theorem comparisonOperations_addsSlot {operator : Operator} (h : operator.JoinsTwo)
    (name : String) (constant : Value) :
    AddsSlots 1 (comparisonOperations operator name constant) :=
  (AddsSlots.readPath [name]).binary (.pushValue constant) h

theorem neededSlots_of_connective {operator : Operator} {connective : Connective}
    (h : operator.connective? = some connective) (count : Nat) :
    operator ≠ .push ∧ operator ≠ .pop ∧ Compile.neededSlots operator count = count := by
  cases operator <;> cases h <;> exact ⟨by decide, by decide, rfl⟩

theorem addsSlot_set {operator : Operator} {connective : Connective} {count : Nat}
    {operations : List Operation} (hoperator : operator.connective? = some connective)
    (hpositive : count ≠ 0) (h : AddsSlots count operations) :
    AddsSlots 1 (operations ++ [.apply operator count]) := by
  obtain ⟨hpush, hpop, hneeded⟩ := neededSlots_of_connective hoperator count
  have hbounds : operator.arityBounds = (1, Operator.unboundedArity) := by
    cases operator <;> cases hoperator <;> rfl
  have harity : operator.acceptsArity count = true := by
    rw [Operator.acceptsArity_iff, hbounds]
    exact ⟨by simp only; omega, Or.inl rfl⟩
  have hoperands : AddsSlots (Compile.neededSlots operator count) operations := hneeded.symm ▸ h
  exact hoperands.apply hpush hpop harity

mutual

/-- The operations of a condition stand for one value. -/
theorem addsSlot : (condition : Condition) → condition.Proper → condition.Fits →
    AddsSlots 1 condition.operations
  | comparison _ name constant, _, h => comparisonOperations_addsSlot h name constant
  | query text options, ⟨hoptions, count, hread⟩, _ => by
    rcases parseText_addsSlot hoptions true text with h | ⟨_, error, herror⟩
    · exact h
    · cases hread.symm.trans herror
  | all members, ⟨hnonempty, hmembers⟩, h =>
    addsSlot_set rfl (by simpa using hnonempty) (addsSlots_operationsOfAll members hmembers h)
  | any members, ⟨hnonempty, hmembers⟩, h =>
    addsSlot_set rfl (by simpa using hnonempty) (addsSlots_operationsOfAll members hmembers h)

theorem addsSlots_operationsOfAll : (members : List Condition) → AllProper members →
    AllFit members → AddsSlots members.length (operationsOfAll members)
  | [], _, _ => .nil
  | member :: later, ⟨hmember, hlater⟩, ⟨hfirst, hrest⟩ => by
    have hall := (addsSlot member hmember hfirst).append
      (addsSlots_operationsOfAll later hlater hrest)
    rwa [Nat.add_comm] at hall

end

/-- A comparison that calls its operands takes a slot more than it adds. -/
theorem slots_comparison {operator : Operator} {name : String} {constant : Value}
    {depth after : Nat} (haccepts : operator.acceptsArity 2 = true)
    (h : Compile.slotsAfterAll? depth (comparisonOperations operator name constant) = some after) :
    after ≤ depth + 1 ∧ (after = depth + 1 → operator.JoinsTwo) := by
  by_cases hcall : operator = .call
  · subst hcall
    have hoperands : AddsSlots 2 (Operation.readPath [name] ++ [.pushValue constant]) :=
      (AddsSlots.readPath [name]).append (.pushValue constant)
    have hsplit : comparisonOperations .call name constant =
        (Operation.readPath [name] ++ [.pushValue constant]) ++ [.apply .call 2] := by
      simp [comparisonOperations]
    rw [hsplit, Compile.slotsAfterAll?_append, hoperands.slots, Option.bind_some,
      Compile.slotsAfterAll?_cons] at h
    obtain ⟨left, hleft, hafter⟩ := Option.bind_eq_some_iff.mp h
    obtain rfl : left = after := Option.some.inj hafter
    simp only [Compile.slotsAfter?, Operation.apply, Compile.neededSlots] at hleft
    simp at hleft
    omega
  · have hjoins : operator.JoinsTwo := ⟨haccepts, hcall⟩
    rw [(comparisonOperations_addsSlot hjoins name constant).slots] at h
    exact ⟨Nat.le_of_eq (Option.some.inj h).symm, fun _ => hjoins⟩

/-- A connective of members leaves one slot if it finds one for each of them. -/
theorem slots_set {operator : Operator} {connective : Connective} {count depth after : Nat}
    {operations : List Operation} (hoperator : operator.connective? = some connective)
    (h : Compile.slotsAfterAll? depth (operations ++ [.apply operator count]) = some after) :
    ∃ between, Compile.slotsAfterAll? depth operations = some between ∧ count ≤ between ∧
      after = between - count + 1 := by
  obtain ⟨hpush, hpop, hneeded⟩ := neededSlots_of_connective hoperator count
  rw [Compile.slotsAfterAll?_append] at h
  obtain ⟨between, hbetween, hlast⟩ := Option.bind_eq_some_iff.mp h
  rw [Compile.slotsAfterAll?_cons] at hlast
  obtain ⟨left, hleft, hafter⟩ := Option.bind_eq_some_iff.mp hlast
  obtain rfl : left = after := Option.some.inj hafter
  simp [Compile.slotsAfter?, Operation.apply, hpush, hpop, hneeded] at hleft
  exact ⟨between, hbetween, by omega⟩

/-- Whether operations whose arities are accepted add no more than a number of slots, and as many
only if something holds. -/
def AddsAtMost (count : Nat) (holds : Prop) (operations : List Operation) : Prop :=
  (∀ operation ∈ operations, operation.operator.acceptsArity operation.arity = true) →
    ∀ {depth after : Nat}, Compile.slotsAfterAll? depth operations = some after →
      after ≤ depth + count ∧ (after = depth + count → holds)

namespace AddsAtMost

variable {first later : Nat} {holds also : Prop} {left right operations : List Operation}

theorem of_addsSlots (h : AddsSlots first operations) : AddsAtMost first True operations := by
  intro _ depth after hafter
  rw [h.slots] at hafter
  exact ⟨Nat.le_of_eq (Option.some.inj hafter).symm, fun _ => trivial⟩

theorem imp (h : AddsAtMost first holds operations) (himp : holds → also) :
    AddsAtMost first also operations := by
  intro haccepts depth after hafter
  obtain ⟨hmost, hholds⟩ := h haccepts hafter
  exact ⟨hmost, fun hall => himp (hholds hall)⟩

/-- Fewer slots than the number are never as many. -/
theorem of_lt (h : AddsAtMost first holds operations) (hless : first < later) :
    AddsAtMost later also operations := by
  intro haccepts depth after hafter
  obtain ⟨hmost, -⟩ := h haccepts hafter
  exact ⟨by omega, fun hall => by omega⟩

theorem append (hleft : AddsAtMost first holds left) (hright : AddsAtMost later also right) :
    AddsAtMost (first + later) (holds ∧ also) (left ++ right) := by
  intro haccepts depth after hafter
  obtain ⟨hleftAccepts, hrightAccepts⟩ := List.forall_mem_append.mp haccepts
  rw [Compile.slotsAfterAll?_append] at hafter
  obtain ⟨between, hbetween, hafter⟩ := Option.bind_eq_some_iff.mp hafter
  obtain ⟨hleftMost, hholds⟩ := hleft hleftAccepts hbetween
  obtain ⟨hrightMost, halso⟩ := hright hrightAccepts hafter
  exact ⟨by omega, fun hall => ⟨hholds (by omega), halso (by omega)⟩⟩

/-- As many slots as members are needed for a connective, so members that leave fewer take slots
from elsewhere. -/
theorem set {operator : Operator} {connective : Connective}
    (hoperator : operator.connective? = some connective)
    (h : AddsAtMost first holds operations) :
    AddsAtMost 1 holds (operations ++ [.apply operator first]) := by
  intro haccepts depth after hafter
  obtain ⟨between, hbetween, hcount, rfl⟩ := slots_set hoperator hafter
  obtain ⟨hmost, hholds⟩ := h (List.forall_mem_append.mp haccepts).1 hbetween
  exact ⟨by omega, fun hone => hholds (by omega)⟩

theorem comparison (operator : Operator) (name : String) (constant : Value) :
    AddsAtMost 1 operator.JoinsTwo (comparisonOperations operator name constant) := by
  intro haccepts depth after hafter
  exact slots_comparison (haccepts (.apply operator 2) (by simp [comparisonOperations])) hafter

end AddsAtMost

mutual

/-- The operations of a condition add one slot at most, and one only if no comparison calls its
operands. -/
theorem fits_of_slots : (condition : Condition) → condition.Proper →
    AddsAtMost 1 condition.Fits condition.operations
  | comparison operator name constant, _ => .comparison operator name constant
  | query text options, hproper => .of_addsSlots (addsSlot (query text options) hproper trivial)
  | all members, ⟨_, hmembers⟩ => (allFit_of_slots members hmembers).set rfl
  | any members, ⟨_, hmembers⟩ => (allFit_of_slots members hmembers).set rfl

theorem allFit_of_slots : (members : List Condition) → AllProper members →
    AddsAtMost members.length (AllFit members) (operationsOfAll members)
  | [], _ => .of_addsSlots .nil
  | member :: later, ⟨hmember, hlater⟩ => by
    have hall := (fits_of_slots member hmember).append (allFit_of_slots later hlater)
    rwa [Nat.add_comm] at hall

end

end Condition

end RecordQuery

import RecordQuery.Compile.Operator

/-!
# Counting slots

Whether operations fit together can be told without looking at what they are about: every arity has
to be one that the operator accepts, pushes and only pushes have operands, and every operator has to
find the slots that it needs.  `slotsAfter?` counts slots as the compiler does.

Operations that stand for values add as many slots to any number of slots, push no objects of the
store and discard nothing (`AddsSlots`).  Two rows of them one after the other add up
(`AddsSlots.append`), and an operator behind its operands makes one value of them
(`AddsSlots.apply`); the other lemmas are put together from these two.
-/

namespace RecordQuery

/-- Whether an operation has an arity that its operator accepts, and an operand just when it is a
push. -/
structure Operation.Sound (operation : Operation) : Prop where
  /-- The operator accepts the arity. -/
  arity : operation.operator.acceptsArity operation.arity = true
  /-- Pushes and only pushes have operands. -/
  operand : operation.operand.isSome = true ↔ operation.operator = .push

theorem Operation.sound_push (operand : Operand) : (Operation.push operand).Sound :=
  ⟨rfl, by simp [Operation.push]⟩

theorem Operation.sound_apply {operator : Operator} {arity : Int} (hpush : operator ≠ .push)
    (harity : operator.acceptsArity arity = true) : (Operation.apply operator arity).Sound :=
  ⟨harity, by simp [Operation.apply, hpush]⟩

namespace Compile

/-- The number of slots after an operation, if its operator finds the slots that it needs. -/
def slotsAfter? (depth : Nat) (operation : Operation) : Option Nat :=
  let depth := if operation.operand.isSome then depth + 1 else depth
  let needed := neededSlots operation.operator operation.arity.toNat
  if operation.operator = .push then some depth
  else if depth < needed then none
  else some (depth - needed + if operation.operator = .pop then 0 else 1)

/-- The number of slots after operations one after the other. -/
def slotsAfterAll? (depth : Nat) (operations : List Operation) : Option Nat :=
  operations.foldlM slotsAfter? depth

theorem slotsAfterAll?_append (depth : Nat) (first second : List Operation) :
    slotsAfterAll? depth (first ++ second) =
      (slotsAfterAll? depth first).bind fun between => slotsAfterAll? between second :=
  List.foldlM_append ..

theorem slotsAfterAll?_cons (depth : Nat) (operation : Operation) (later : List Operation) :
    slotsAfterAll? depth (operation :: later) =
      (slotsAfter? depth operation).bind fun between => slotsAfterAll? between later :=
  List.foldlM_cons ..

theorem slotsAfter?_apply {operator : Operator} (hpush : operator ≠ .push) (hpop : operator ≠ .pop)
    (depth arity : Nat) :
    slotsAfter? (depth + neededSlots operator arity) (.apply operator arity) =
      some (depth + 1) := by
  have henough : ¬ depth + neededSlots operator arity < neededSlots operator arity := by omega
  simp [slotsAfter?, Operation.apply, hpush, hpop, henough]

end Compile

/-! ## Operations that add slots -/

/-- Whether an operator makes one value of two. -/
def Operator.JoinsTwo (operator : Operator) : Prop :=
  operator.acceptsArity 2 = true ∧ operator ≠ .call

instance (operator : Operator) : Decidable operator.JoinsTwo :=
  inferInstanceAs (Decidable (_ ∧ _))

/-- Whether an operand is one that texts are read into: no object of the store, and of constants
those of any domain. -/
def Operand.Plain : Operand → Prop
  | variableAt _ | name _ => True
  | constant cell => cell.domain = .any
  | object _ => False

/-- Whether an operation discards nothing and pushes a plain operand if any. -/
structure Operation.Plain (operation : Operation) : Prop where
  /-- The operator is not `POP`. -/
  operator : operation.operator ≠ .pop
  /-- The operand is plain. -/
  operand : ∀ operand ∈ operation.operand, operand.Plain

theorem Operation.plain_push {operand : Operand} (h : operand.Plain) :
    (Operation.push operand).Plain := by
  refine ⟨by simp [Operation.push], fun other hother => ?_⟩
  obtain rfl : operand = other := Option.some.inj hother
  exact h

theorem Operation.plain_apply {operator : Operator} (hpop : operator ≠ .pop) (arity : Int) :
    (Operation.apply operator arity).Plain :=
  ⟨hpop, fun operand hother => absurd hother (Option.not_mem_none operand)⟩

/-- Sound operations that add a number of slots to any number of slots. -/
structure AddsSlots (count : Nat) (operations : List Operation) : Prop where
  /-- The operations are sound. -/
  sound : ∀ operation ∈ operations, operation.Sound
  /-- The operations discard nothing and push no objects. -/
  plain : ∀ operation ∈ operations, operation.Plain
  /-- They leave as many slots more. -/
  slots : ∀ depth, Compile.slotsAfterAll? depth operations = some (depth + count)

namespace AddsSlots

variable {operator : Operator} {operations left right : List Operation}

theorem nil : AddsSlots 0 [] :=
  ⟨fun _ hmem => absurd hmem List.not_mem_nil, fun _ hmem => absurd hmem List.not_mem_nil,
    fun _ => rfl⟩

theorem ne_nil (h : AddsSlots 1 operations) : operations ≠ [] := by
  rintro rfl
  have hslots := h.slots 0
  cases hslots

theorem push {operand : Operand} (h : operand.Plain) : AddsSlots 1 [.push operand] := by
  refine ⟨fun operation hmem => ?_, fun operation hmem => ?_, fun depth => rfl⟩
  · rw [List.mem_singleton.mp hmem]
    exact Operation.sound_push operand
  · rw [List.mem_singleton.mp hmem]
    exact Operation.plain_push h

theorem pushValue (value : Value) : AddsSlots 1 [.pushValue value] := push rfl

theorem append {first later : Nat} (hleft : AddsSlots first left)
    (hright : AddsSlots later right) : AddsSlots (first + later) (left ++ right) := by
  refine ⟨List.forall_mem_append.mpr ⟨hleft.sound, hright.sound⟩,
    List.forall_mem_append.mpr ⟨hleft.plain, hright.plain⟩, fun depth => ?_⟩
  · rw [Compile.slotsAfterAll?_append, hleft.slots, Option.bind_some, hright.slots,
      Nat.add_assoc]

/-- An operator behind the operands that it needs. -/
theorem apply {arity : Nat} (h : AddsSlots (Compile.neededSlots operator arity) operations)
    (hpush : operator ≠ .push) (hpop : operator ≠ .pop)
    (harity : operator.acceptsArity arity = true) :
    AddsSlots 1 (operations ++ [.apply operator arity]) := by
  have hlast := Operation.sound_apply hpush harity
  refine ⟨List.forall_mem_append.mpr ⟨h.sound, fun operation hmem => ?_⟩,
    List.forall_mem_append.mpr ⟨h.plain, fun operation hmem => ?_⟩, fun depth => ?_⟩
  · exact List.mem_singleton.mp hmem ▸ hlast
  · exact List.mem_singleton.mp hmem ▸ Operation.plain_apply hpop arity
  · rw [Compile.slotsAfterAll?_append, h.slots, Option.bind_some, Compile.slotsAfterAll?_cons,
      Compile.slotsAfter?_apply hpush hpop]
    rfl

theorem unary (h : AddsSlots 1 operations) (hoperator : operator = .not ∨ operator = .negate) :
    AddsSlots 1 (operations ++ [.apply operator 1]) := by
  rcases hoperator with rfl | rfl
  · have hoperand : AddsSlots (Compile.neededSlots .not 1) operations := h
    exact hoperand.apply (by decide) (by decide) rfl
  · have hoperand : AddsSlots (Compile.neededSlots .negate 1) operations := h
    exact hoperand.apply (by decide) (by decide) rfl

theorem binary (hleft : AddsSlots 1 left) (hright : AddsSlots 1 right)
    (hoperator : operator.JoinsTwo) : AddsSlots 1 (left ++ (right ++ [.apply operator 2])) := by
  obtain ⟨harity, hcall⟩ := hoperator
  have hpush : operator ≠ .push := by
    rintro rfl
    exact absurd harity (by decide)
  have hpop : operator ≠ .pop := by
    rintro rfl
    exact absurd harity (by decide)
  have hneeded : Compile.neededSlots operator 2 = 2 := if_neg hcall
  have hoperands : AddsSlots (Compile.neededSlots operator 2) (left ++ right) := by
    rw [hneeded]
    exact hleft.append hright
  rw [← List.append_assoc]
  exact hoperands.apply hpush hpop harity

theorem call {count : Nat} (h : AddsSlots count operations) (function : String) :
    AddsSlots 1 (.push (.name function) :: (operations ++ [.apply .call count])) := by
  have hoperands : AddsSlots (Compile.neededSlots .call count)
      ([.push (.name function)] ++ operations) := by
    have hneeded : Compile.neededSlots .call count = 1 + count := Nat.add_comm count 1
    rw [hneeded]
    have hfunction : (Operand.name function).Plain := trivial
    exact (push hfunction).append h
  have harity : Operator.call.acceptsArity count = true :=
    Operator.acceptsArity_iff.mpr ⟨Int.natCast_nonneg count, Or.inl rfl⟩
  exact hoperands.apply (by decide) (by decide) harity

theorem readColumn (h : AddsSlots 1 operations) (name : String) :
    AddsSlots 1 (operations ++ Operation.readColumn name) :=
  h.binary (pushValue (.text name)) ⟨rfl, by decide⟩

/-- Following a path of columns from variable 0 gives one value. -/
theorem readPath (path : List String) : AddsSlots 1 (Operation.readPath path) := by
  have hfollow (names : List String) : ∀ {start : List Operation}, AddsSlots 1 start →
      AddsSlots 1 (start ++ names.flatMap Operation.readColumn) := by
    induction names with
    | nil =>
        intro start hstart
        simpa using hstart
    | cons name names ih =>
        intro start hstart
        rw [List.flatMap_cons, ← List.append_assoc]
        exact ih (hstart.readColumn name)
  have hrecord : (Operand.variableAt 0).Plain := trivial
  exact hfollow path (push hrecord)

end AddsSlots

end RecordQuery

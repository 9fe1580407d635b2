import RecordQuery.Proofs.Compile.Locality
import RecordQuery.Proofs.Query.Resolution

/-!
# Formulas compile where anything may be the record

A formula that compiles for records of a table compiles for a variable 0 of any domain as well
(`exists_compile_formula`).  There no name is resolved before the run, so the only thing that can
be wrong with a formula is a pattern, and a wrong pattern is refused for records of a table too
(`Draft.isPattern_of_formula`).
-/

namespace RecordQuery

open Query

/-- Whether the pattern of a term that matches one can be read. -/
def Query.Term.IsPattern [Regexp.Matcher] (term : Term) : Prop :=
  term.mode = .regexp → ∀ pattern, term.value = .text pattern →
    ∃ regexp, Regexp.ofText? pattern = some regexp

namespace Compile

variable {scope : Scope} {index : Nat}

/-! ## Slots of values that are no constants -/

/-- Whether a slot is a value that is known only at the run. -/
structure Slot.IsOpen (slot : Slot) : Prop where
  /-- The slot is a value. -/
  content : slot.content = .value
  /-- The value is no constant. -/
  constant : slot.constant = none

theorem Slot.isOpen_ofDomain (domain : Domain) (start : Nat) : (ofDomain domain start).IsOpen :=
  ⟨rfl, rfl⟩

theorem Slot.IsOpen.isValue {slot : Slot} (h : slot.IsOpen) : slot.IsValue := by
  unfold Slot.IsValue
  rw [h.content]
  trivial

namespace Draft

variable {draft draft' : Draft} {slot left right : Slot} {below : List Slot}

/-- Whether what compiling answers is a draft with one slot, which satisfies a condition, on top of
others. -/
def Adds (answered : Except Error Draft) (below : List Slot) (onSlot : Slot → Prop) : Prop :=
  ∃ draft slot, answered = .ok draft ∧ draft.slots = slot :: below ∧ onSlot slot

variable [Regexp.Matcher]

theorem Adds.append {first second : List Operation} {lower : List Slot}
    {onFirst onSecond : Slot → Prop} (h : Adds (draft.addAll scope index first) below onFirst)
    (hsecond : ∀ (between : Draft) (index : Nat) (slot : Slot), between.slots = slot :: below →
      onFirst slot → Adds (between.addAll scope index second) lower onSecond) :
    Adds (draft.addAll scope index (first ++ second)) lower onSecond := by
  obtain ⟨between, slot, hbetween, hslots, hslot⟩ := h
  rw [addAll_append, hbetween]
  exact hsecond between _ slot hslots hslot

/-! ## One operation -/

theorem addAll_singleton (operation : Operation) :
    draft.addAll scope index [operation] = draft.add scope index operation := by
  simp only [addAll]
  cases draft.add scope index operation <;> rfl

theorem add_joinsTwo {operator : Operator} (hoperator : operator.JoinsTwo)
    (hslots : draft.slots = right :: left :: below) :
    draft.add scope index (.apply operator 2) =
      { draft with slots := below }.applyTo scope index operator [left, right] := by
  have hpush : operator ≠ .push := by
    rintro rfl
    exact absurd hoperator.1 (by decide)
  have hneeded : neededSlots operator 2 = 2 := if_neg hoperator.2
  have harity : (2 : Int).toNat = 2 := rfl
  rw [add_apply hpush, if_pos hoperator.1]
  simp [apply, harity, hneeded, hslots, takeTop]

/-- The name of a column of anything is left to the run. -/
theorem adds_getValue (hrecord : left.IsOpen) (hany : left.domain = .any)
    (hname : right.content = .value) (hslots : draft.slots = right :: left :: below) :
    Adds (draft.add scope index (.apply .getValue 2)) below
      fun slot => slot.IsOpen ∧ slot.domain = .any := by
  have hcolumn : columnOf scope.source index right .any = .ok none := by
    simp only [columnOf, hname]
    split
    · rename_i hdomain
      cases hdomain
    · rfl
  have hadd : draft.add scope index (.apply .getValue 2) =
      .ok (({ draft with slots := below }.emit .getValue).push (.ofDomain .any left.start)) := by
    rw [add_joinsTwo ⟨rfl, by decide⟩ hslots]
    simp only [applyTo, readColumn, Slot.requireValue_of_isValue hrecord.isValue, hany, hcolumn]
    rfl
  exact ⟨_, _, hadd, rfl, Slot.isOpen_ofDomain .any left.start, rfl⟩

theorem adds_connective {operator : Operator} (hoperator : operator.isConnective = true)
    (hleft : left.IsOpen) (hright : right.IsOpen) (hslots : draft.slots = right :: left :: below) :
    Adds (draft.add scope index (.apply operator 2)) below Slot.IsOpen := by
  obtain ⟨connective, hconnective⟩ : ∃ connective, operator.connective? = some connective := by
    cases operator <;> first | exact ⟨_, rfl⟩ | cases hoperator
  have hvalues : ∀ slot ∈ [left, right], slot.IsValue := by
    simp [hleft.isValue, hright.isValue]
  have hfew : ¬ maxCount < [left, right].length := by simp [maxCount]
  have hopen : [left, right].all Slot.isConstant = false := by
    simp [Slot.isConstant, hleft.constant]
  have hadd : draft.add scope index (.apply operator 2) =
      .ok (({ draft with slots := below }.emit (.connect connective 2)).push
        { Slot.ofDomain (.scalar .boolean) left.start with
          keywords := connectedKeywords connective [left, right] }) := by
    rw [add_joinsTwo (joinsTwo_of_isConnective hoperator) hslots,
      applyTo_of_connective hconnective]
    simp only [connect, Slot.requireValues_of_isValue hvalues, if_neg hfew, hopen]
    rfl
  exact ⟨_, _, hadd, rfl, rfl, rfl⟩

theorem adds_not (hslot : slot.IsOpen) (hslots : draft.slots = slot :: below) :
    Adds (draft.add scope index (.apply .not 1)) below Slot.IsOpen := by
  have hconstant : slot.isConstant = false := by simp [Slot.isConstant, hslot.constant]
  have hadd : draft.add scope index (.apply .not 1) =
      .ok (({ draft with slots := below }.emit .not).push
        (.ofDomain (.scalar .boolean) slot.start)) := by
    have happly : draft.add scope index (.apply .not 1) =
        { draft with slots := below }.invert scope index slot := by
      simp [add, Operation.apply, apply, neededSlots, hslots, takeTop, applyTo,
        Operator.acceptsArity, Operator.arityBounds]
    rw [happly]
    simp only [invert, Slot.requireValue_of_isValue hslot.isValue, hconstant]
    rfl
  exact ⟨_, _, hadd, rfl, rfl, rfl⟩

omit [Regexp.Matcher] in
theorem besideRecord_of_none (h : slot.constant = none) (domain : Domain) :
    draft.besideRecord index domain slot = .ok (draft, slot) := by
  cases domain with
  | any | scalar type => rfl
  | table table => simp only [besideRecord, asRecordOf, h]

theorem exists_emitBinary {operation : Binary}
    (hpattern : operation = .regexp → ∀ pattern, right.constant = some (.text pattern) →
      ∃ regexp, Regexp.ofText? pattern = some regexp) :
    ∃ emitted, draft.emitBinary index operation left right = .ok emitted ∧
      emitted.slots = draft.slots := by
  unfold emitBinary
  split
  · rename_i pattern hconstant
    obtain ⟨regexp, hregexp⟩ := hpattern rfl pattern hconstant
    simp only [hregexp]
    split <;> exact ⟨_, rfl, rfl⟩
  · exact ⟨_, rfl, rfl⟩

/-- A test of anything that is no constant compiles unless its pattern is wrong. -/
theorem adds_mode {operator : Operator} (hmode : operator.isMode = true) (hleft : left.IsOpen)
    (hany : left.domain = .any) (hright : right.content = .value)
    (hpattern : operator = .regexp → ∀ pattern, right.constant = some (.text pattern) →
      ∃ regexp, Regexp.ofText? pattern = some regexp)
    (hslots : draft.slots = right :: left :: below) :
    Adds (draft.add scope index (.apply operator 2)) below Slot.IsOpen := by
  obtain ⟨operation, hoperation⟩ := Operator.exists_binary?_of_isMode hmode
  have hrightValue : right.IsValue := by
    unfold Slot.IsValue
    rw [hright]
    trivial
  have hvalues : ∀ slot ∈ [right, left], slot.IsValue := by
    simp [hleft.isValue, hrightValue]
  have hconstant : left.isConstant = false := by simp [Slot.isConstant, hleft.constant]
  -- The left operand is neither a constant nor of a table, so that none becomes a record.
  have hcompared (lower : Draft) :
      lower.comparedOperands index left right = .ok (lower, left, right) := by
    simp only [comparedOperands, besideRecord_of_none hleft.constant, hany]
    rfl
  have hpatterns : operation = .regexp → ∀ pattern, right.constant = some (.text pattern) →
      ∃ regexp, Regexp.ofText? pattern = some regexp := by
    rintro rfl
    exact hpattern (Binary.operator_of_binary? hoperation).symm
  obtain ⟨emitted, hemitted, hemittedSlots⟩ :
      ∃ emitted, emitBinary { draft with slots := below } index operation left right =
        .ok emitted ∧ emitted.slots = below := exists_emitBinary hpatterns
  have hadd : draft.add scope index (.apply operator 2) =
      .ok (emitted.push { Slot.ofDomain (.scalar .boolean) left.start with
        keywords := searchedKeywords operator left right }) := by
    rw [add_joinsTwo (joinsTwo_of_isMode hmode) hslots, applyTo_of_binary hoperation]
    simp only [combine, Slot.requireValues_of_isValue hvalues, hcompared, ite_self,
      hemitted, hconstant, Operator.isArithmetic_of_isMode hmode]
    rfl
  exact ⟨_, _, hadd, congrArg _ hemittedSlots, rfl, rfl⟩

/-! ## Formulas -/

/-- The draft with one more constant. -/
def pushConstant (draft : Draft) (value : Value) : Draft :=
  (draft.emit (.load value)).push
    { Slot.ofDomain (constantDomain (.free value)) draft.ops.size with constant := some value }

theorem addAll_pushValue (value : Value) (later : List Operation) :
    draft.addAll scope index (.pushValue value :: later) =
      (draft.pushConstant value).addAll scope (index + 1) later := rfl

/-- A path of columns from a variable of any domain compiles. -/
theorem adds_readPath (hany : scope.vars.domain? 0 = some .any) (path : List String) :
    Adds (draft.addAll scope index (Operation.readPath path)) draft.slots
      fun slot => slot.IsOpen ∧ slot.domain = .any := by
  have hfollow (names : List String) : ∀ (between : Draft) (index : Nat) (slot : Slot),
      between.slots = slot :: draft.slots → slot.IsOpen ∧ slot.domain = .any →
      Adds (between.addAll scope index (names.flatMap Operation.readColumn)) draft.slots
        fun slot => slot.IsOpen ∧ slot.domain = .any := by
    induction names with
    | nil => exact fun between index slot hslots hslot => ⟨between, slot, rfl, hslots, hslot⟩
    | cons name names ih =>
        intro between index slot hslots hslot
        refine Adds.append ?_ ih
        rw [Operation.readColumn, addAll_pushValue, addAll_singleton]
        exact adds_getValue hslot.1 hslot.2 rfl (congrArg _ hslots)
  have hvariable : draft.addAll scope index [.push (.variableAt 0)] =
      .ok ((draft.emit (.loadVariable 0)).push (.ofDomain .any draft.ops.size)) := by
    have hsmall : ¬ maxCount < 0 := Nat.not_lt_zero _
    simp only [addAll_singleton, add, Operation.push, pushOperand, hany, if_neg hsmall, if_true]
  have hfirst : Adds (draft.addAll scope index [.push (.variableAt 0)]) draft.slots
      fun slot => slot.IsOpen ∧ slot.domain = .any :=
    ⟨_, _, hvariable, rfl, Slot.isOpen_ofDomain _ _, rfl⟩
  exact hfirst.append (hfollow path)

/-- A formula whose patterns can be read compiles where anything may be the record. -/
theorem adds_formula (hany : scope.vars.domain? 0 = some .any) {formula : Formula}
    (hformula : formula.WellFormed) (hpatterns : ∀ term ∈ formula.terms, term.IsPattern) :
    Adds (draft.addAll scope index formula.operations) draft.slots Slot.IsOpen := by
  induction formula generalizing draft index with
  | term t =>
      refine (adds_readPath hany t.path).append fun between index slot hslots hslot => ?_
      rw [addAll_pushValue, addAll_singleton]
      refine adds_mode hformula hslot.1 hslot.2 rfl (fun hregexp pattern hpattern => ?_)
        (congrArg _ hslots)
      exact hpatterns t (List.mem_cons_self ..) hregexp pattern (Option.some.inj hpattern)
  | not operand ih =>
      refine (ih hformula hpatterns).append fun between index slot hslots hslot => ?_
      rw [addAll_singleton]
      exact adds_not hslot hslots
  | join connective left right ihleft ihright =>
      obtain ⟨hconnective, hleft, hright⟩ := hformula
      obtain ⟨hleftTerms, hrightTerms⟩ := List.forall_mem_append.mp hpatterns
      refine (ihleft hleft hleftTerms).append fun between index first hslots hfirst => ?_
      refine (ihright hright hrightTerms).append fun behind index second hsecondSlots hsecond => ?_
      rw [hslots] at hsecondSlots
      rw [addAll_singleton]
      exact adds_connective hconnective hfirst hsecond hsecondSlots

/-! ## Patterns -/

theorem constant_of_readPath {layout layout' : Layout} {path : List String}
    (hsteps : Layout.Steps scope index (Operation.readPath path) layout layout') :
    ∃ piece, layout' = layout.push piece ∧ piece.slot.constant = none := by
  refine hsteps.readPath (fun start piece hvariable => ?_) fun _ _ _ piece hcolumn => ?_
  · cases hvariable
    rfl
  · cases hcolumn with
    | member | getValue => rfl
    | connect hoperator => cases hoperator
    | binary hoperator => cases hoperator

/-- The pattern of a term that compiles can be read. -/
theorem isPattern_of_term {term : Term} {layout : Layout} (hholds : draft.Holds layout [])
    (h : draft.addAll scope index term.operations = .ok draft') : term.IsPattern := by
  intro hmode pattern hpattern
  rw [Term.operations, hmode, hpattern, addAll_append] at h
  split at h
  · cases h
  rename_i between hbetween
  obtain ⟨layout', hsteps, hlayout⟩ := hholds.addAll hbetween
  obtain ⟨column, rfl, hcolumn⟩ := constant_of_readPath hsteps
  have hslots : (between.pushConstant (.text pattern)).slots =
      _ :: column.slot :: layout.pieces.map (·.slot) := congrArg _ hlayout.slots
  have hjoins : Operator.regexp.JoinsTwo := by decide
  have hbinary : Operator.regexp.binary? = some .regexp := rfl
  rw [addAll_pushValue, addAll_singleton, add_joinsTwo hjoins hslots,
    applyTo_of_binary hbinary] at h
  simp only [combine] at h
  split at h
  · cases h
  -- A match is no comparison, so the operands stay as they are.
  simp only [Operator.isComparison, Bool.false_eq_true, if_false, emitBinary] at h
  cases hregexp : Regexp.ofText? pattern with
  | some regexp => exact ⟨regexp, rfl⟩
  | none =>
      simp only [hregexp] at h
      cases h

/-- The patterns of a formula that compiles can be read. -/
theorem isPattern_of_formula {formula : Formula} {layout : Layout} (hholds : draft.Holds layout [])
    (h : draft.addAll scope index formula.operations = .ok draft') :
    ∀ term ∈ formula.terms, term.IsPattern := by
  induction formula generalizing draft draft' index layout with
  | term t =>
      intro term hmem
      obtain rfl := List.mem_singleton.mp hmem
      exact isPattern_of_term hholds h
  | not operand ih =>
      rw [Formula.operations, addAll_append] at h
      split at h
      · cases h
      rename_i between hbetween
      exact ih hholds hbetween
  | join connective left right ihleft ihright =>
      rw [Formula.operations, addAll_append] at h
      split at h
      · cases h
      rename_i between hbetween
      rw [addAll_append] at h
      split at h
      · cases h
      rename_i behind hbehind
      obtain ⟨layout', _, hlayout⟩ := hholds.addAll hbetween
      exact List.forall_mem_append.mpr ⟨ihleft hholds hbetween, ihright hlayout hbehind⟩

end Draft

theorem addsSlot_formula {formula : Formula} (h : formula.WellFormed) :
    AddsSlots 1 formula.operations := by
  induction formula with
  | term t => exact Term.addsSlot (joinsTwo_of_isMode h)
  | not operand ih => exact (ih h).unary (Or.inl rfl)
  | join connective left right ihleft ihright =>
      obtain ⟨hconnective, hleft, hright⟩ := h
      exact (ihleft hleft).binary (ihright hright) (joinsTwo_of_isConnective hconnective)

/-- A formula that compiles for some variables compiles for variables of which the first one may
hold anything. -/
theorem exists_compile_formula [Regexp.Matcher] {source : Source} {vars others : Variables}
    {formula : Formula} {compiled : Compiled} (hformula : formula.WellFormed)
    (h : compile source vars formula.operations = .ok compiled)
    (hany : others.domain? 0 = some .any) :
    ∃ compiled, compile source others formula.operations = .ok compiled := by
  obtain ⟨draft, _, hdraft, _⟩ := exists_draft_of_compile h
  have hpatterns := Draft.isPattern_of_formula Draft.Holds.start hdraft
  obtain ⟨alone, slot, halone, hslots, hslot⟩ :
      Draft.Adds (Draft.start.addAll ⟨source, others⟩ 0 formula.operations) [] Slot.IsOpen :=
    Draft.adds_formula hany hformula hpatterns
  exact compile_of_slot (addsSlot_formula hformula).ne_nil halone hslots hslot.isValue

/-- A compiled formula makes truths, and a run of it leaves what its tree evaluates to. -/
theorem run_compile_formula [Regexp.Matcher] {source : Source} {vars : Variables}
    {formula : Formula} {compiled : Compiled} (hformula : formula.WellFormed)
    (h : compile source vars formula.operations = .ok compiled) :
    compiled.range = .scalar .boolean ∧
      ∀ env, Machine.run env compiled.program =
        (formula.tree.eval ⟨source, vars⟩ env).outcome := by
  have hpop : ∀ operation ∈ formula.operations, operation.operator ≠ .pop :=
    fun operation hmem => ((addsSlot_formula hformula).plain operation hmem).operator
  obtain ⟨item, tree, hitems, htree, hrange, hrun⟩ := exists_item_of_compile hpop h
  have hitem : [Item.tree formula.tree] = [item] :=
    Option.some.inj ((foldlM_formula hformula).symm.trans hitems)
  obtain rfl := List.singleton_inj.mp hitem
  obtain rfl : formula.tree = tree := Option.some.inj htree
  exact ⟨hrange.trans (Formula.domain_static_tree hformula), hrun⟩

end Compile

end RecordQuery

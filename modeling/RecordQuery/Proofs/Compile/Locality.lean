import RecordQuery.Proofs.Compile.Refusal

/-!
# Operations compile alone as they do on top of others

What the compiler makes of an operation depends on the slots that the operation takes, but neither
on the slots below them nor on the number of the steps before theirs.  A draft can be put on top of
another one (`Draft.over`): what is accepted there is accepted alone as well, and leads to the same
(`Draft.Local`).  There is one lemma for each function of the compiler, and at the end the operands
of a connective compile alone if the whole of them does (`compile_operands`).

Refusals are not compared, since they tell the index of the operation.
-/

namespace RecordQuery.Compile

/-! ## Checks that succeed whatever the index -/

section Checks

variable {index other : Nat}

theorem Slot.requireValue_of_isValue {slot : Slot} (h : slot.IsValue) (index : Nat) :
    slot.requireValue index = .ok () := by
  unfold IsValue at h
  unfold requireValue
  split at h <;> simp_all

theorem Slot.requireValues_of_isValue {slots : List Slot} (h : ∀ slot ∈ slots, slot.IsValue)
    (index : Nat) : requireValues index slots = .ok () := by
  induction slots with
  | nil => rfl
  | cons slot later ih =>
      simp only [requireValues, requireValue_of_isValue (h slot (List.mem_cons_self ..)) index]
      exact ih fun next hmem => h next (List.mem_cons_of_mem _ hmem)

theorem requireRecord_of_ok {domain : Domain} (h : requireRecord index domain = .ok ()) :
    requireRecord other domain = .ok () := by
  unfold requireRecord at h ⊢
  split at h <;> first | rfl | cases h

theorem requireNumber_of_ok {domain : Domain} (h : requireNumber index domain = .ok ()) :
    requireNumber other domain = .ok () := by
  unfold requireNumber at h ⊢
  split at h
  · rfl
  · rfl
  · split at h
    · rename_i hnumeric
      exact if_pos hnumeric
    · cases h

theorem columnOf_of_ok {source : Source} {name : Slot} {domain : Domain} {found : Option ColumnRef}
    (h : columnOf source index name domain = .ok found) :
    columnOf source other name domain = .ok found := by
  unfold columnOf at h ⊢
  split at h
  · split at h
    · split at h
      · rename_i htable
        rw [← h]
        exact if_pos htable
      · cases h
    · exact h
  · split at h
    · split at h <;> first | exact h | cases h
    · exact h
  · cases h

end Checks

/-! ## Drafts on top of others -/

/-- The slot as it is behind more steps. -/
def Slot.raise (count : Nat) (slot : Slot) : Slot := { slot with start := count + slot.start }

theorem Slot.requireValue_of_raise {slot : Slot} {index other count : Nat}
    (h : (slot.raise count).requireValue index = .ok ()) : slot.requireValue other = .ok () := by
  have hvalue : (slot.raise count).IsValue := isValue_of_requireValue h
  exact requireValue_of_isValue hvalue other

theorem Slot.requireValues_of_raise {slots : List Slot} {index other count : Nat}
    (h : requireValues index (slots.map (.raise count)) = .ok ()) :
    requireValues other slots = .ok () := by
  refine requireValues_of_isValue (fun slot hmem => ?_) other
  exact isValue_of_requireValues h (slot.raise count) (List.mem_map_of_mem hmem)

/-- The steps and slots of a draft on top of those of another one. -/
def Draft.over (draft lower : Draft) : Draft :=
  ⟨lower.ops ++ draft.ops, draft.slots.map (.raise lower.ops.size) ++ lower.slots⟩

/-- What is accepted on top of a draft is accepted alone, and leads to the same. -/
def Draft.Local (lower : Draft) (onTop alone : Except Error Draft) : Prop :=
  ∀ draft', onTop = .ok draft' → ∃ inner : Draft, alone = .ok inner ∧ draft' = inner.over lower

namespace Draft

variable {draft lower : Draft} {scope : Scope} {index other : Nat}

theorem start_over (lower : Draft) : Draft.start.over lower = lower := by
  simp [Draft.over, start]

theorem emit_over (op : Op) : (draft.over lower).emit op = (draft.emit op).over lower := by
  simp [Draft.over, emit]

theorem truncate_over (start : Nat) :
    (draft.over lower).truncate (lower.ops.size + start) = (draft.truncate start).over lower := by
  have hops : (lower.ops ++ draft.ops).take (lower.ops.size + start) =
      lower.ops ++ draft.ops.take start := by
    refine Array.toList_inj.mp ?_
    have hbelow : lower.ops.toList.take (lower.ops.size + start) = lower.ops.toList :=
      List.take_of_length_le (by simp)
    simp [Array.take_eq_extract, List.extract_eq_take_drop, hbelow]
  simp [Draft.over, truncate, hops]

theorem push_over (slot : Slot) :
    (draft.over lower).push (slot.raise lower.ops.size) = (draft.push slot).over lower := rfl

theorem setOp_over (start : Nat) (op : Op) :
    ({ draft.over lower with
        ops := (draft.over lower).ops.setIfInBounds (lower.ops.size + start) op } : Draft) =
      ({ draft with ops := draft.ops.setIfInBounds start op } : Draft).over lower := by
  have hops : (lower.ops ++ draft.ops).setIfInBounds (lower.ops.size + start) op =
      lower.ops ++ draft.ops.setIfInBounds start op := by
    refine Array.toList_inj.mp ?_
    simp
  simp [Draft.over, hops]

theorem pushResult_over [Regexp.Matcher] (source : Source) (slot : Slot) (foldable : Bool) :
    (draft.over lower).pushResult source (slot.raise lower.ops.size) foldable =
      (draft.pushResult source slot foldable).over lower := by
  have hcode : (draft.over lower).ops.toList.drop (slot.raise lower.ops.size).start =
      draft.ops.toList.drop slot.start := by
    simp [Draft.over, Slot.raise, List.drop_append]
  simp only [pushResult, hcode]
  split
  · exact push_over slot
  · rename_i value _
    have hslot : (slot.raise lower.ops.size).start = lower.ops.size + slot.start := rfl
    rw [hslot, truncate_over, emit_over]
    exact push_over { slot with
      domain := if slot.domain = .any then .scalar value.dataType else slot.domain
      constant := some value }

theorem pushObject_over (object : ObjectRef) :
    (draft.over lower).pushObject scope object = (draft.pushObject scope object).over lower := by
  have hsize : (draft.over lower).ops.size = lower.ops.size + draft.ops.size := Array.size_append
  cases object with
  | table t =>
      simp only [pushObject, hsize]
      exact push_over ⟨.table t, .table t.id, none, [], draft.ops.size⟩
  | function f =>
      simp only [pushObject, hsize]
      exact push_over ⟨.function f, f.range, none, [], draft.ops.size⟩
  | column c =>
      simp only [pushObject, hsize]
      split
      · rw [emit_over, emit_over]
        exact push_over ⟨.column c true, c.range, none, [], draft.ops.size⟩
      · exact push_over ⟨.column c false, c.range, none, [], draft.ops.size⟩

theorem local_pushOperand (operand : Operand) :
    Local lower ((draft.over lower).pushOperand scope index operand)
      (draft.pushOperand scope other operand) := by
  -- A slot begins behind all steps, those of the lower draft included: this is what raises it.
  have hsize : (draft.over lower).ops.size = lower.ops.size + draft.ops.size := Array.size_append
  intro draft' h
  cases operand with
  | variableAt position =>
      simp only [pushOperand, hsize, emit_over] at h ⊢
      split at h
      · cases h
      · rename_i domain hdomain
        split at h
        · cases h
        · rename_i hposition
          cases h
          refine ⟨_, by rw [if_neg hposition], ?_⟩
          exact push_over (.ofDomain domain draft.ops.size)
  | constant cell =>
      simp only [pushOperand, hsize, emit_over] at h ⊢
      cases h
      exact ⟨_, rfl, push_over
        { Slot.ofDomain (constantDomain cell) draft.ops.size with constant := some cell.value }⟩
  | object object =>
      cases h
      exact ⟨_, rfl, pushObject_over object⟩
  | name name =>
      simp only [pushOperand] at h ⊢
      split at h
      · cases h
      · cases h
        exact ⟨_, rfl, pushObject_over _⟩

/-! ## Operators on top of others -/

theorem local_readColumn (record name : Slot) :
    Local lower
      ((draft.over lower).readColumn scope index (record.raise lower.ops.size)
        (name.raise lower.ops.size))
      (draft.readColumn scope other record name) := by
  intro draft' h
  simp only [readColumn] at h ⊢
  split at h
  · cases h
  rename_i hvalue
  split at h
  · cases h
  rename_i hrecord
  -- The checks look at kinds and domains only, which raising a slot does not change.
  have hrecordValue : record.requireValue other = .ok () := Slot.requireValue_of_raise hvalue
  have hrecordDomain : requireRecord other record.domain = .ok () := requireRecord_of_ok hrecord
  simp only [hrecordValue, hrecordDomain]
  split at h
  · cases h
  · rename_i column hcolumn
    have hname : columnOf scope.source other name record.domain = .ok (some column) :=
      columnOf_of_ok hcolumn
    cases h
    simp only [hname]
    refine ⟨_, rfl, ?_⟩
    have hstart : (name.raise lower.ops.size).start = lower.ops.size + name.start := rfl
    rw [hstart, truncate_over, emit_over]
    exact push_over (.ofDomain column.range record.start)
  · rename_i hcolumn
    have hname : columnOf scope.source other name record.domain = .ok none := columnOf_of_ok hcolumn
    cases h
    simp only [hname]
    refine ⟨_, rfl, ?_⟩
    rw [emit_over]
    exact push_over (.ofDomain .any record.start)

variable [Regexp.Matcher]

theorem local_call (target : Slot) (arguments : List Slot) :
    Local lower
      ((draft.over lower).call scope index (target.raise lower.ops.size)
        (arguments.map (.raise lower.ops.size)))
      (draft.call scope other target arguments) := by
  -- Whether the call is computed ahead depends on constants, and these are not raised.
  have hconstants : (arguments.map (.raise lower.ops.size)).all Slot.isConstant =
      arguments.all Slot.isConstant := by
    rw [List.all_map]
    rfl
  intro draft' h
  simp only [call, List.length_map, hconstants] at h ⊢
  split at h
  · rename_i function hfunction
    have htarget : target.content = .function function := hfunction
    split at h
    · cases h
    rename_i hcount
    split at h
    · cases h
    rename_i hmost
    split at h
    · cases h
    rename_i hvalues
    have harguments : Slot.requireValues other arguments = .ok () :=
      Slot.requireValues_of_raise hvalues
    cases h
    simp only [htarget, hcount, if_neg hmost, harguments]
    refine ⟨_, rfl, ?_⟩
    rw [emit_over]
    exact pushResult_over scope.source (.ofDomain target.domain target.start) _
  · cases h

theorem local_connect {operator : Operator} (connective : Connective) {operands : List Slot}
    (hnonempty : operands ≠ []) :
    Local lower
      ((draft.over lower).connect scope index operator connective
        (operands.map (.raise lower.ops.size)))
      (draft.connect scope other operator connective operands) := by
  obtain ⟨first, later, rfl⟩ := List.exists_cons_of_ne_nil hnonempty
  have hconstants : ((first :: later).map (.raise lower.ops.size)).all Slot.isConstant =
      (first :: later).all Slot.isConstant := by
    rw [List.all_map]
    rfl
  -- Raising a slot changes where its steps start, so neither constants nor keywords.
  have hkeywords : connectedKeywords connective
      ((first :: later).map (.raise lower.ops.size)) =
        connectedKeywords connective (first :: later) := by
    cases connective with
    | and | or => simp [connectedKeywords, List.flatMap_map, Slot.raise]
    | andNot => simp [connectedKeywords, Slot.raise]
  intro draft' h
  simp only [connect, List.length_map, hconstants, hkeywords] at h ⊢
  split at h
  · cases h
  rename_i hvalues
  split at h
  · cases h
  rename_i hmost
  have hoperands : Slot.requireValues other (first :: later) = .ok () :=
    Slot.requireValues_of_raise hvalues
  cases h
  simp only [hoperands, if_neg hmost]
  refine ⟨_, rfl, ?_⟩
  rw [emit_over]
  exact pushResult_over scope.source { Slot.ofDomain (.scalar .boolean) first.start with
    keywords := connectedKeywords connective (first :: later) } _

theorem local_invert (operand : Slot) :
    Local lower ((draft.over lower).invert scope index (operand.raise lower.ops.size))
      (draft.invert scope other operand) := by
  intro draft' h
  simp only [invert] at h ⊢
  split at h
  · cases h
  rename_i hvalue
  have hoperand : operand.requireValue other = .ok () := Slot.requireValue_of_raise hvalue
  cases h
  simp only [hoperand]
  refine ⟨_, rfl, ?_⟩
  rw [emit_over]
  exact pushResult_over scope.source (.ofDomain (.scalar .boolean) operand.start) _

theorem local_negate (operand : Slot) :
    Local lower ((draft.over lower).negate scope index (operand.raise lower.ops.size))
      (draft.negate scope other operand) := by
  intro draft' h
  simp only [negate] at h ⊢
  split at h
  · cases h
  rename_i hvalue
  split at h
  · cases h
  rename_i hnumber
  have hoperand : operand.requireValue other = .ok () := Slot.requireValue_of_raise hvalue
  have hdomain : requireNumber other operand.domain = .ok () := requireNumber_of_ok hnumber
  cases h
  simp only [hoperand, hdomain]
  refine ⟨_, rfl, ?_⟩
  rw [emit_over]
  exact pushResult_over scope.source (.ofDomain operand.domain operand.start) _

omit [Regexp.Matcher] in
theorem besideRecord_over {onTop : Draft} {domain : Domain} {slot taken : Slot} (other : Nat)
    (h : (draft.over lower).besideRecord index domain (slot.raise lower.ops.size) =
      .ok (onTop, taken)) :
    ∃ (inner : Draft) (changed : Slot),
      draft.besideRecord other domain slot = .ok (inner, changed) ∧
      onTop = inner.over lower ∧ taken = changed.raise lower.ops.size := by
  -- Only beside records, and only for a constant integer, is anything changed.
  cases domain with
  | any | scalar type =>
      cases h
      exact ⟨_, _, rfl, rfl, rfl⟩
  | table table =>
      simp only [besideRecord, asRecordOf] at h ⊢
      split at h
      · rename_i n hconstant
        have hslot : slot.constant = some (.integer n) := hconstant
        simp only [hslot]
        split at h
        · cases h
        · rename_i record _
          cases h
          exact ⟨_, _, rfl, setOp_over slot.start (.load record), rfl⟩
      · rename_i hconstant
        cases h
        refine ⟨draft, slot, ?_, rfl, rfl⟩
        split
        · rename_i n hslot
          exact absurd hslot (hconstant n)
        · rfl

omit [Regexp.Matcher] in
theorem comparedOperands_over {onTop : Draft} {left right first second : Slot} (other : Nat)
    (h : (draft.over lower).comparedOperands index (left.raise lower.ops.size)
      (right.raise lower.ops.size) = .ok (onTop, first, second)) :
    ∃ (inner : Draft) (l r : Slot), draft.comparedOperands other left right = .ok (inner, l, r) ∧
      onTop = inner.over lower ∧ first = l.raise lower.ops.size ∧
      second = r.raise lower.ops.size := by
  simp only [comparedOperands] at h ⊢
  split at h
  · cases h
  rename_i hright
  obtain ⟨between, r, hbetween, rfl, rfl⟩ := besideRecord_over other hright
  have hfirst : draft.besideRecord other left.domain right = .ok (between, r) := hbetween
  split at h
  · cases h
  rename_i hleft
  obtain ⟨inner, l, hinner, rfl, rfl⟩ := besideRecord_over other hleft
  have hsecond : between.besideRecord other r.domain left = .ok (inner, l) := hinner
  cases h
  simp only [hfirst, hsecond]
  exact ⟨inner, l, r, rfl, rfl, rfl, rfl⟩

theorem local_emitBinary (operation : Binary) (left right : Slot) :
    Local lower
      ((draft.over lower).emitBinary index operation (left.raise lower.ops.size)
        (right.raise lower.ops.size))
      (draft.emitBinary other operation left right) := by
  have hconstant : (right.raise lower.ops.size).constant = right.constant := rfl
  have hleft : (left.raise lower.ops.size).isConstant = left.isConstant := rfl
  have hstart : (right.raise lower.ops.size).start = lower.ops.size + right.start := rfl
  intro draft' h
  simp only [emitBinary, hconstant, hleft, hstart, truncate_over, emit_over] at h ⊢
  generalize right.constant = constant at h ⊢
  split at h
  · split at h
    · cases h
    · split at h
      · rename_i hfolded
        cases h
        exact ⟨_, if_pos hfolded, rfl⟩
      · rename_i hopen
        cases h
        exact ⟨_, if_neg hopen, rfl⟩
  · cases h
    exact ⟨_, rfl, rfl⟩

theorem local_combine {operator : Operator} (operation : Binary) (left right : Slot) :
    Local lower
      ((draft.over lower).combine scope index operator operation (left.raise lower.ops.size)
        (right.raise lower.ops.size))
      (draft.combine scope other operator operation left right) := by
  intro draft' h
  simp only [combine] at h ⊢
  split at h
  · cases h
  rename_i hvalues
  have hoperands : Slot.requireValues other [right, left] = .ok () :=
    have hraised : Slot.requireValues index ([right, left].map (.raise lower.ops.size)) = .ok () :=
      hvalues
    Slot.requireValues_of_raise hraised
  split at h
  · cases h
  rename_i onTop first second hcompared
  -- First the operands as they are compared, then the step, then its result.
  obtain ⟨compared, l, r, hcomparedAlone, rfl, rfl, rfl⟩ :
      ∃ (compared : Draft) (l r : Slot),
        (if operator.isComparison then draft.comparedOperands other left right
          else .ok (draft, left, right)) = .ok (compared, l, r) ∧
        onTop = compared.over lower ∧ first = l.raise lower.ops.size ∧
        second = r.raise lower.ops.size := by
    split at hcompared
    · rename_i hcomparison
      rw [if_pos hcomparison]
      exact comparedOperands_over other hcompared
    · rename_i hcomparison
      rw [if_neg hcomparison]
      cases hcompared
      exact ⟨_, _, _, rfl, rfl, rfl, rfl⟩
  split at h
  · cases h
  rename_i hemit
  obtain ⟨emitted, hemitted, rfl⟩ :
      ∃ emitted : Draft, compared.emitBinary other operation l r = .ok emitted ∧
        _ = emitted.over lower := local_emitBinary operation l r _ hemit
  cases h
  simp only [hoperands, hcomparedAlone, hemitted]
  refine ⟨_, rfl, ?_⟩
  exact pushResult_over scope.source
    { Slot.ofDomain
        (if operator.isArithmetic then arithmeticRange operator l.domain r.domain
          else .scalar .boolean) l.start with
      keywords := searchedKeywords operator l r } _

omit [Regexp.Matcher] in
theorem discard_over (slot : Slot) :
    (draft.over lower).discard (slot.raise lower.ops.size) = (draft.discard slot).over lower := by
  have hcontent : (slot.raise lower.ops.size).content = slot.content := rfl
  have hconstant : (slot.raise lower.ops.size).isConstant = slot.isConstant := rfl
  have hstart : (slot.raise lower.ops.size).start = lower.ops.size + slot.start := rfl
  simp only [discard, hcontent, hconstant, hstart, truncate_over, emit_over]
  split
  · rfl
  · rfl
  · rfl
  · split <;> rfl

/-! ## Operations on top of others -/

theorem applyTo_of_connective {operator : Operator} {connective : Connective}
    (h : operator.connective? = some connective) (draft : Draft) (operands : List Slot) :
    draft.applyTo scope index operator operands =
      draft.connect scope index operator connective operands := by
  cases operator <;> cases h <;> rfl

theorem applyTo_of_binary {operator : Operator} {operation : Binary}
    (h : operator.binary? = some operation) (draft : Draft) (left right : Slot) :
    draft.applyTo scope index operator [left, right] =
      draft.combine scope index operator operation left right := by
  cases operator <;> cases h <;> rfl

theorem local_applyTo {operator : Operator} {operands : List Slot}
    (hpositive : operator.connective? ≠ none → operands ≠ [])
    (hcall : operator = .call → draft.slots ≠ []) :
    Local lower
      ((draft.over lower).applyTo scope index operator (operands.map (.raise lower.ops.size)))
      (draft.applyTo scope other operator operands) := by
  intro draft' h
  -- The cases are the rows of `applyTo`: on each of them the slots on top are raised operands.
  unfold applyTo at h
  split at h
  · rename_i slot hslots
    obtain ⟨alone, rfl, rfl⟩ := List.map_eq_singleton_iff.mp hslots
    cases h
    exact ⟨_, rfl, discard_over alone⟩
  · rename_i recordSlot nameSlot hslots
    obtain ⟨record, later, rfl, rfl, hlater⟩ := List.map_eq_cons_iff.mp hslots
    obtain ⟨name, rfl, rfl⟩ := List.map_eq_singleton_iff.mp hlater
    exact local_readColumn record name draft' h
  · rename_i slot hslots
    obtain ⟨operand, rfl, rfl⟩ := List.map_eq_singleton_iff.mp hslots
    exact local_invert operand draft' h
  · rename_i slot hslots
    obtain ⟨operand, rfl, rfl⟩ := List.map_eq_singleton_iff.mp hslots
    exact local_negate operand draft' h
  · -- The function of a call is the slot below its arguments.
    obtain ⟨target, below, hslots⟩ := List.exists_cons_of_ne_nil (hcall rfl)
    have honTop : (draft.over lower).slots =
        target.raise lower.ops.size ::
          (below.map (.raise lower.ops.size) ++ lower.slots) := by
      simp [Draft.over, hslots]
    simp only [honTop] at h
    simp only [applyTo, hslots]
    have hbelow : ({ draft.over lower with
        slots := below.map (.raise lower.ops.size) ++ lower.slots } : Draft) =
          ({ draft with slots := below } : Draft).over lower := rfl
    rw [hbelow] at h
    exact local_call target operands draft' h
  · split at h
    · rename_i slots connective hconnective
      have hnonempty : operands ≠ [] := hpositive (by simp [hconnective])
      rw [applyTo_of_connective hconnective]
      exact local_connect connective hnonempty draft' h
    · rename_i operation leftSlot rightSlot hoperation hslots _
      obtain ⟨left, later, rfl, rfl, hlater⟩ := List.map_eq_cons_iff.mp hslots
      obtain ⟨right, rfl, rfl⟩ := List.map_eq_singleton_iff.mp hlater
      rw [applyTo_of_binary hoperation]
      exact local_combine operation left right draft' h
    · cases h

omit [Regexp.Matcher] in
theorem takeTop_eq_some {slots operands below : List Slot} {count : Nat} {taken : List Slot}
    (h : takeTop slots count taken = some (operands, below)) :
    operands = (slots.take count).reverse ++ taken ∧ below = slots.drop count := by
  induction count generalizing slots taken with
  | zero =>
      simp only [takeTop, Option.some.injEq, Prod.mk.injEq] at h
      obtain ⟨rfl, rfl⟩ := h
      exact ⟨rfl, rfl⟩
  | succ count ih =>
      cases slots with
      | nil => cases h
      | cons slot later =>
          obtain ⟨hoperands, hbelow⟩ := ih h
          exact ⟨by simp [hoperands], hbelow⟩

omit [Regexp.Matcher] in
theorem takeTop_of_le {slots : List Slot} {count : Nat} (hcount : count ≤ slots.length) :
    takeTop slots count [] = some ((slots.take count).reverse, slots.drop count) := by
  cases htaken : takeTop slots count [] with
  | none => exact absurd htaken (takeTop_ne_none hcount [])
  | some taken =>
      obtain ⟨hoperands, hbelow⟩ := takeTop_eq_some htaken
      rw [List.append_nil] at hoperands
      exact congrArg some (Prod.ext hoperands hbelow)

omit [Regexp.Matcher] in
theorem takeTop_map_append (raise : Slot → Slot) {slots : List Slot} {count : Nat}
    (hcount : count ≤ slots.length) (taken below : List Slot) :
    takeTop (slots.map raise ++ below) count (taken.map raise) =
      (takeTop slots count taken).map fun (operands, rest) =>
        (operands.map raise, rest.map raise ++ below) := by
  induction count generalizing slots taken with
  | zero => simp [takeTop]
  | succ count ih =>
      cases slots with
      | nil => cases hcount
      | cons slot later => exact ih (Nat.le_of_succ_le_succ hcount) (slot :: taken)

theorem local_apply {operator : Operator} {arity : Int}
    (harity : operator.acceptsArity arity = true)
    (hneeded : neededSlots operator arity.toNat ≤ draft.slots.length) :
    Local lower ((draft.over lower).apply scope index operator arity.toNat)
      (draft.apply scope other operator arity.toNat) := by
  intro draft' h
  have hcount : arity.toNat ≤ draft.slots.length := by
    unfold neededSlots at hneeded
    split at hneeded <;> omega
  -- The arity leaves slots on top of those of the lower draft, so none of these is taken off.
  have henough : ¬ (draft.slots.take (neededSlots operator arity.toNat)).length <
      neededSlots operator arity.toNat := by
    rw [List.length_take]
    omega
  have htake : takeTop (draft.over lower).slots arity.toNat [] = _ :=
    takeTop_map_append (.raise lower.ops.size) hcount [] lower.slots
  simp only [apply, if_neg henough, htake] at h ⊢
  split at h
  · cases h
  cases hslots : takeTop draft.slots arity.toNat [] with
  | none => exact absurd hslots (takeTop_ne_none hcount [])
  | some slots =>
      obtain ⟨operands, below⟩ := slots
      simp only [hslots, Option.map_some] at h ⊢
      have hlength : operands.length = arity.toNat := by
        rw [length_takeTop hslots, List.length_nil, Nat.add_zero]
      have hrest : below.length = draft.slots.length - arity.toNat := by
        rw [(takeTop_eq_some hslots).2, List.length_drop]
      have hbelow : ({ draft.over lower with
          slots := below.map (.raise lower.ops.size) ++ lower.slots } : Draft) =
            ({ draft with slots := below } : Draft).over lower := rfl
      rw [hbelow] at h
      refine local_applyTo (fun hconnective hnil => ?_) (fun hcall hnil => ?_) draft' h
      · have hleast := one_le_of_connective hconnective harity
        rw [hnil, List.length_nil] at hlength
        omega
      · have hone : neededSlots operator arity.toNat = arity.toNat + 1 := if_pos hcall
        have hempty : below = [] := hnil
        rw [hempty, List.length_nil] at hrest
        omega

omit [Regexp.Matcher] in
theorem slots_pushOperand {pushed : Draft} {operand : Operand}
    (h : draft.pushOperand scope index operand = .ok pushed) :
    ∃ slot, pushed.slots = slot :: draft.slots := by
  -- An object adds one slot, whether it is given or found by its name.
  have hobject (object : ObjectRef) :
      ∃ slot, (draft.pushObject scope object).slots = slot :: draft.slots := by
    cases object with
    | table t => exact ⟨_, rfl⟩
    | function f => exact ⟨_, rfl⟩
    | column c =>
        simp only [pushObject]
        split <;> exact ⟨_, rfl⟩
  cases operand with
  | variableAt position =>
      simp only [pushOperand] at h
      split at h
      · cases h
      · split at h <;> cases h
        exact ⟨_, rfl⟩
  | constant cell =>
      cases h
      exact ⟨_, rfl⟩
  | object object =>
      cases h
      exact hobject object
  | name name =>
      simp only [pushOperand] at h
      split at h <;> cases h
      exact hobject _

theorem local_add {operation : Operation}
    (hslots : slotsAfter? draft.slots.length operation ≠ none) :
    Local lower ((draft.over lower).add scope index operation)
      (draft.add scope other operation) := by
  -- With an operand, what it pushes comes on top first, and the operator is applied to that draft.
  obtain ⟨operator, arity, operand⟩ := operation
  intro draft' h
  cases operand with
  | none =>
      simp only [add] at h ⊢
      split at h
      · cases h
      rename_i hpush
      split at h
      · rename_i harity
        rw [if_neg hpush, if_pos harity]
        have hneeded : neededSlots operator arity.toNat ≤ draft.slots.length := by
          simpa [slotsAfter?, hpush] using hslots
        exact local_apply harity hneeded draft' h
      · cases h
  | some operand =>
      simp only [add] at h ⊢
      split at h
      · cases h
      rename_i hoperand
      obtain ⟨pushed, hpushed, rfl⟩ :
          ∃ pushed : Draft, draft.pushOperand scope other operand = .ok pushed ∧
            _ = pushed.over lower := local_pushOperand operand _ hoperand
      simp only [hpushed]
      split at h
      · rename_i hpush
        rw [if_pos hpush]
        split at h
        · rename_i hone
          cases h
          exact ⟨pushed, if_pos hone, rfl⟩
        · cases h
      · rename_i hpush
        rw [if_neg hpush]
        split at h
        · rename_i harity
          rw [if_pos harity]
          have hneeded : neededSlots operator arity.toNat ≤ pushed.slots.length := by
            obtain ⟨slot, hpushedSlots⟩ := slots_pushOperand hpushed
            rw [hpushedSlots, List.length_cons]
            simpa [slotsAfter?, hpush] using hslots
          exact local_apply harity hneeded draft' h
        · cases h

theorem local_addAll {layout : Layout} {operations : List Operation}
    (hholds : draft.Holds layout [])
    (hslots : slotsAfterAll? layout.pieces.length operations ≠ none) :
    Local lower ((draft.over lower).addAll scope index operations)
      (draft.addAll scope other operations) := by
  induction operations generalizing draft layout index other with
  | nil =>
      intro draft' h
      cases h
      exact ⟨draft, rfl, rfl⟩
  | cons operation later ih =>
      intro draft' h
      -- The count says that the operator finds its slots in the draft alone.
      have hlength : draft.slots.length = layout.pieces.length := by
        rw [hholds.slots, List.length_map]
      rw [slotsAfterAll?_cons] at hslots
      have hfirst : slotsAfter? draft.slots.length operation ≠ none := by
        rw [hlength]
        intro hnone
        simp [hnone] at hslots
      simp only [addAll] at h ⊢
      split at h
      · cases h
      rename_i hadd
      obtain ⟨between, hbetween, rfl⟩ :
          ∃ between : Draft, draft.add scope other operation = .ok between ∧
            _ = between.over lower := local_add hfirst _ hadd
      obtain ⟨layout', hstep, hlayout⟩ := hholds.add hbetween
      rw [hstep.slots] at hslots
      simp only [hbetween]
      exact ih hlayout hslots draft' h

theorem addAll_append (first second : List Operation) :
    draft.addAll scope index (first ++ second) =
      match draft.addAll scope index first with
      | .error error => .error error
      | .ok between => between.addAll scope (index + first.length) second := by
  induction first generalizing draft index with
  | nil => rfl
  | cons operation first ih =>
      simp only [List.cons_append, addAll, List.length_cons]
      cases draft.add scope index operation with
      | error error => rfl
      | ok between =>
          simp only [ih, Nat.add_assoc, Nat.add_comm 1]

end Draft

/-! ## Operands that compile alone -/

section Operands

variable [Regexp.Matcher] {scope : Scope} {index : Nat} {lower draft' : Draft}

/-- Operations that stand for one value add one slot, which they add alone as well. -/
theorem Draft.exists_alone {operations : List Operation} (hadds : AddsSlots 1 operations)
    (h : lower.addAll scope index operations = .ok draft') :
    ∃ (alone : Draft) (slot : Slot), Draft.start.addAll scope 0 operations = .ok alone ∧
      alone.slots = [slot] ∧ draft'.slots = slot.raise lower.ops.size :: lower.slots := by
  rw [← start_over lower] at h
  have hslots : slotsAfterAll? Layout.empty.pieces.length operations = some (0 + 1) :=
    hadds.slots 0
  obtain ⟨alone, halone, rfl⟩ :
      ∃ alone : Draft, Draft.start.addAll scope 0 operations = .ok alone ∧
        draft' = alone.over lower :=
    local_addAll Draft.Holds.start (by simp [hslots]) draft' h
  obtain ⟨layout, hsteps, hholds⟩ := Draft.Holds.start.addAll halone
  have hone : alone.slots.length = 1 := by
    rw [hholds.slots, List.length_map]
    exact Option.some.inj (hsteps.slots.symm.trans hslots)
  obtain ⟨slot, hslot⟩ := List.length_eq_one_iff.mp hone
  exact ⟨alone, slot, halone, hslot, by simp [Draft.over, hslot]⟩

/-- Operands one after the other add a slot each, and each of them adds its slot alone as well. -/
theorem Draft.exists_alone_all {rows : List (List Operation)}
    (hrows : ∀ row ∈ rows, AddsSlots 1 row)
    (h : lower.addAll scope index rows.flatten = .ok draft') :
    ∃ slots : List Slot, draft'.slots = slots.reverse ++ lower.slots ∧
      slots.length = rows.length ∧
      ((∀ slot ∈ slots, slot.IsValue) → ∀ row ∈ rows, ∃ (alone : Draft) (slot : Slot),
        Draft.start.addAll scope 0 row = .ok alone ∧ alone.slots = [slot] ∧ slot.IsValue) := by
  -- The induction goes along the rows: each adds its slot to the draft that the rows before leave.
  induction rows generalizing lower index with
  | nil =>
      cases h
      exact ⟨[], rfl, rfl, fun _ _ hmem => absurd hmem List.not_mem_nil⟩
  | cons row later ih =>
      rw [List.flatten_cons, addAll_append] at h
      split at h
      · cases h
      rename_i between hrow
      obtain ⟨alone, own, halone, hown, hbetween⟩ :=
        exists_alone (hrows row (List.mem_cons_self ..)) hrow
      obtain ⟨slots, hslots, hlength, hlater⟩ :=
        ih (fun other hmem => hrows other (List.mem_cons_of_mem _ hmem)) h
      refine ⟨own.raise lower.ops.size :: slots, ?_, by simp [hlength],
        fun hvalues other hmem => ?_⟩
      · rw [hslots, hbetween]
        simp
      · rcases List.mem_cons.mp hmem with rfl | hmem
        · have hvalue : own.IsValue := hvalues (own.raise lower.ops.size) (List.mem_cons_self ..)
          exact ⟨alone, own, halone, hown, hvalue⟩
        · exact hlater (fun slot hslot => hvalues slot (List.mem_cons_of_mem _ hslot)) other hmem

theorem compile_eq_of_slot {source : Source} {vars : Variables} {operations : List Operation}
    {alone : Draft} {slot : Slot} (hnonempty : operations ≠ [])
    (h : Draft.start.addAll ⟨source, vars⟩ 0 operations = .ok alone)
    (hslot : alone.slots = [slot]) (hvalue : slot.IsValue) :
    compile source vars operations =
      .ok ⟨.ofOps alone.ops.toList, slot.domain, Snippet.distinct slot.keywords⟩ := by
  have hsome : operations.isEmpty = false := by
    simpa using hnonempty
  simp only [compile, hsome, h, Draft.conclude, hslot, Slot.requireValue_of_isValue hvalue]
  rfl

/-- Operations that add one slot compile if this slot stands for a value. -/
theorem compile_of_slot {source : Source} {vars : Variables} {operations : List Operation}
    {alone : Draft} {slot : Slot} (hnonempty : operations ≠ [])
    (h : Draft.start.addAll ⟨source, vars⟩ 0 operations = .ok alone)
    (hslot : alone.slots = [slot]) (hvalue : slot.IsValue) :
    ∃ compiled, compile source vars operations = .ok compiled :=
  ⟨_, compile_eq_of_slot hnonempty h hslot hvalue⟩

theorem Draft.add_apply {draft : Draft} {operator : Operator} {arity : Int}
    (hpush : operator ≠ .push) :
    draft.add scope index (.apply operator arity) =
      if operator.acceptsArity arity then draft.apply scope index operator arity.toNat
      else .error (.invalidArity index operator arity) := if_neg hpush

/-- A connective is only accepted of slots that stand for values. -/
theorem Draft.isValue_of_connective {draft : Draft} {operator : Operator}
    {connective : Connective} {slots below : List Slot}
    (hoperator : operator.connective? = some connective)
    (hslots : draft.slots = slots.reverse ++ below)
    (h : draft.add scope index (.apply operator slots.length) = .ok draft') :
    ∀ slot ∈ slots, slot.IsValue := by
  have htake : takeTop draft.slots slots.length [] = some (slots, below) := by
    have hlength : slots.reverse.length = slots.length := List.length_reverse
    rw [Draft.takeTop_of_le (by simp [hslots]), hslots, List.take_left' hlength,
      List.reverse_reverse, List.drop_left' hlength]
  have hpush : operator ≠ .push := by
    rintro rfl
    cases hoperator
  rw [Draft.add_apply hpush] at h
  split at h
  · rw [Int.toNat_natCast] at h
    simp only [Draft.apply, htake, applyTo_of_connective hoperator] at h
    split at h
    · cases h
    · simp only [Draft.connect] at h
      split at h
      · cases h
      · rename_i hvalues
        exact Slot.isValue_of_requireValues hvalues
  · cases h

/-- If a connective of operands compiles, so does every operand alone. -/
theorem compile_operands {source : Source} {vars : Variables} {rows : List (List Operation)}
    {operator : Operator} {connective : Connective} {compiled : Compiled}
    (hoperator : operator.connective? = some connective) (hrows : ∀ row ∈ rows, AddsSlots 1 row)
    (h : compile source vars (rows.flatten ++ [.apply operator rows.length]) = .ok compiled) :
    ∀ row ∈ rows, ∃ alone, compile source vars row = .ok alone := by
  obtain ⟨last, _, hadded, _⟩ := exists_draft_of_compile h
  rw [Draft.addAll_append] at hadded
  split at hadded
  · cases hadded
  rename_i operands hoperands
  obtain ⟨slots, hslots, hlength, halone⟩ := Draft.exists_alone_all hrows hoperands
  simp only [Draft.addAll] at hadded
  split at hadded
  · cases hadded
  rename_i hconnective
  rw [← hlength] at hconnective
  have hvalues := Draft.isValue_of_connective hoperator hslots hconnective
  intro row hmem
  obtain ⟨alone, slot, hrow, hslot, hvalue⟩ := halone hvalues row hmem
  exact compile_of_slot (hrows row hmem).ne_nil hrow hslot hvalue

end Operands

end RecordQuery.Compile

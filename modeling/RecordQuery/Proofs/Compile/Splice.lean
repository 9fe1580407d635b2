import Mathlib.Data.List.Forall2
import RecordQuery.Proofs.Compile.Locality
import RecordQuery.Proofs.Program.Splicing

/-!
# Compiling beside spliced steps

Steps may be spliced into a draft behind a number of its steps (`Draft.OpsSpliced`).  The slots that
were there at that time stay as they are, and the steps of those that are pushed later start further
behind (`Slot.Moved`).  Every function of the compiler that accepts the draft accepts the longer one
as well, and what it does to them differs in the spliced steps alone; there is one lemma for each.

Two things would tell the drafts apart, and the lemmas leave them out.  The compiler cuts off the
steps of an operand that it needs no longer, and with them what was spliced in behind it
(`Draft.givesUpTop`); and it computes results of constants ahead, spliced steps included.  Where
computing fails without them it fails with them, so results that are not computed need no care.

Refusals are not compared, since they tell the index of the operation.
-/

namespace RecordQuery.Compile

open Machine (Discards)

variable {place : Nat} {extra : List Op}

/-! ## Slots beside spliced steps -/

variable [Regexp.Matcher]

/-- A slot that was there when steps were spliced in: those steps are among its own, or its own end
in front of them. -/
structure Slot.Below (place : Nat) (extra : List Op) (slot : Slot) : Prop where
  /-- What is spliced in leaves the stack as it was. -/
  discards : ∃ aside, Discards extra aside
  /-- Its steps start in front of the spliced ones. -/
  start : slot.start ≤ place
  /-- A constant has its first step there. -/
  constant : slot.isConstant = true → slot.start < place

omit [Regexp.Matcher] in
theorem Slot.start_raise_sub (slot : Slot) (place count : Nat) :
    (slot.raise count).start - place - count = slot.start - place := by
  simp only [Slot.raise]
  omega

/-- A slot and what it is beside the spliced steps: `true` for a slot pushed since, whose steps start
behind them, and `false` for one that was there before. -/
inductive Slot.Moved (place : Nat) (extra : List Op) : Bool → Slot → Slot → Prop
  | behind {slot : Slot} : place ≤ slot.start →
      Moved place extra true slot (slot.raise extra.length)
  | below {slot : Slot} : slot.Below place extra → Moved place extra false slot slot

namespace Slot.Moved

variable {side : Bool} {slot moved : Slot}

theorem eq_start (h : Moved place extra side slot moved) :
    moved = { slot with start := moved.start } := by
  cases h <;> rfl

theorem content_eq (h : Moved place extra side slot moved) : moved.content = slot.content := by
  rw [h.eq_start]

theorem domain_eq (h : Moved place extra side slot moved) : moved.domain = slot.domain := by
  rw [h.eq_start]

theorem constant_eq (h : Moved place extra side slot moved) : moved.constant = slot.constant := by
  rw [h.eq_start]

theorem keywords_eq (h : Moved place extra side slot moved) : moved.keywords = slot.keywords := by
  rw [h.eq_start]

theorem isConstant_eq (h : Moved place extra side slot moved) :
    moved.isConstant = slot.isConstant := by
  rw [isConstant, h.constant_eq, isConstant]

theorem requireValue {index : Nat} (h : Moved place extra side slot moved)
    (hvalue : slot.requireValue index = .ok ()) (other : Nat) :
    moved.requireValue other = .ok () := by
  have hslot : slot.IsValue := isValue_of_requireValue hvalue
  refine requireValue_of_isValue ?_ other
  unfold IsValue at hslot ⊢
  rwa [h.content_eq]

/-- A slot whose steps start where those of another one do is on the same side. -/
theorem withStart {other : Slot} (h : Moved place extra side slot moved)
    (hstart : other.start = slot.start) (hconstant : other.constant = none) :
    Moved place extra side other { other with start := moved.start } := by
  cases h with
  | behind hplace =>
      have hraise : { other with start := (slot.raise extra.length).start } =
          other.raise extra.length := by
        simp [Slot.raise, hstart]
      rw [hraise]
      exact .behind (hstart ▸ hplace)
  | below hbelow =>
      have hsame : { other with start := slot.start } = other := by
        rw [← hstart]
      rw [hsame]
      refine .below ⟨hbelow.discards, hstart ▸ hbelow.start, fun hsome => ?_⟩
      simp [isConstant, hconstant] at hsome

end Slot.Moved

/-- Slots that are each beside what they are beside the spliced steps. -/
def Slot.MovedAll (place : Nat) (extra : List Op) : List Slot → List Slot → Prop :=
  List.Forall₂ fun slot moved => ∃ side, Moved place extra side slot moved

namespace Slot.MovedAll

variable {slots moved : List Slot}

theorem requireValues {index : Nat} (h : MovedAll place extra slots moved)
    (hvalues : requireValues index slots = .ok ()) (other : Nat) :
    requireValues other moved = .ok () := by
  induction h with
  | nil => rfl
  | cons hslot _ ih =>
      simp only [Slot.requireValues] at hvalues ⊢
      split at hvalues
      · cases hvalues
      · rename_i hvalue
        obtain ⟨_, hslot⟩ := hslot
        rw [hslot.requireValue hvalue other]
        exact ih hvalues

theorem all_isConstant (h : MovedAll place extra slots moved) :
    moved.all isConstant = slots.all isConstant := by
  induction h with
  | nil => rfl
  | cons hslot _ ih =>
      obtain ⟨_, hslot⟩ := hslot
      rw [List.all_cons, List.all_cons, hslot.isConstant_eq, ih]

theorem connectedKeywords_eq (h : MovedAll place extra slots moved) (connective : Connective) :
    connectedKeywords connective moved = connectedKeywords connective slots := by
  have hkeywords : moved.map (·.keywords) = slots.map (·.keywords) := by
    induction h with
    | nil => rfl
    | cons hslot _ ih =>
        obtain ⟨_, hslot⟩ := hslot
        rw [List.map_cons, List.map_cons, hslot.keywords_eq, ih]
  cases connective with
  | and | or => simp only [connectedKeywords, List.flatMap_def, hkeywords]
  | andNot => simp only [connectedKeywords, List.flatMap_def, List.map_take, hkeywords]

end Slot.MovedAll

/-! ## Drafts with spliced steps -/

/-- The steps of one draft are those of another one with further steps spliced in. -/
def Draft.OpsSpliced (place : Nat) (extra : List Op) (draft spliced : Draft) : Prop :=
  ∃ first behind, first.length = place ∧ draft.ops.toList = first ++ behind ∧
    spliced.ops.toList = first ++ (extra ++ behind)

/-- Whether the topmost slot is a constant. -/
def Draft.topIsConstant (draft : Draft) : Bool := draft.slots.head?.any Slot.isConstant

/-- The steps of two drafts differ in spliced ones, and the topmost slots in where they start. -/
structure Draft.PushedAlike (place : Nat) (extra : List Op) (side : Bool)
    (lower lowerSpliced : List Slot) (draft spliced : Draft) : Prop where
  /-- The steps differ in the spliced ones. -/
  ops : Draft.OpsSpliced place extra draft spliced
  /-- The topmost slots are beside each other. -/
  slots : ∃ slot moved, Slot.Moved place extra side slot moved ∧
    draft.slots = slot :: lower ∧ spliced.slots = moved :: lowerSpliced

namespace Draft.OpsSpliced

variable {draft spliced draft' : Draft} {scope : Scope} {index other : Nat} {side : Bool}
  {slot moved : Slot}

omit [Regexp.Matcher] in
theorem size (h : OpsSpliced place extra draft spliced) :
    place ≤ draft.ops.size ∧ spliced.ops.size = extra.length + draft.ops.size := by
  obtain ⟨first, behind, rfl, hdraft, hspliced⟩ := h
  rw [← Array.length_toList, ← Array.length_toList, hdraft, hspliced]
  simp only [List.length_append]
  omega

omit [Regexp.Matcher] in
theorem emit (h : OpsSpliced place extra draft spliced) (op : Op) :
    OpsSpliced place extra (draft.emit op) (spliced.emit op) := by
  obtain ⟨first, behind, hfirst, hdraft, hspliced⟩ := h
  exact ⟨first, behind ++ [op], hfirst, by simp [Draft.emit, hdraft],
    by simp [Draft.emit, hspliced]⟩

omit [Regexp.Matcher] in
theorem truncate (h : OpsSpliced place extra draft spliced) {cut : Nat} (hcut : place ≤ cut) :
    OpsSpliced place extra (draft.truncate cut) (spliced.truncate (extra.length + cut)) := by
  obtain ⟨first, behind, rfl, hdraft, hspliced⟩ := h
  have htake {ops : Array Op} {count : Nat} : (ops.take count).toList = ops.toList.take count := by
    simp [Array.take_eq_extract, List.extract_eq_take_drop]
  refine ⟨first, behind.take (cut - first.length), rfl, ?_, ?_⟩
  · simp only [Draft.truncate, htake, hdraft]
    rw [List.take_append, List.take_of_length_le hcut]
  · simp only [Draft.truncate, htake, hspliced]
    rw [List.take_append, List.take_append, List.take_of_length_le (by omega),
      List.take_of_length_le (by omega)]
    congr 3
    omega

/-- The first step of a constant is overwritten on its side. -/
theorem setOp (h : OpsSpliced place extra draft spliced)
    (hslot : slot.Moved place extra side moved) (hconstant : slot.isConstant = true) (op : Op) :
    OpsSpliced place extra { draft with ops := draft.ops.setIfInBounds slot.start op }
      { spliced with ops := spliced.ops.setIfInBounds moved.start op } := by
  obtain ⟨first, behind, rfl, hdraft, hspliced⟩ := h
  cases hslot with
  | behind hplace =>
      refine ⟨first, behind.set (slot.start - first.length) op, rfl, ?_, ?_⟩
      · rw [Array.toList_setIfInBounds, hdraft, List.set_append_right _ _ hplace]
      · rw [Array.toList_setIfInBounds, hspliced, List.set_append_right _ _
          (by simp only [Slot.raise]; omega), List.set_append_right _ _
          (by simp only [Slot.raise]; omega), Slot.start_raise_sub]
  | below hbelow =>
      have hfirst := hbelow.constant hconstant
      refine ⟨first.set slot.start op, behind, List.length_set, ?_, ?_⟩
      · rw [Array.toList_setIfInBounds, hdraft, List.set_append_left _ _ hfirst]
      · rw [Array.toList_setIfInBounds, hspliced, List.set_append_left _ _ hfirst]

theorem push (h : OpsSpliced place extra draft spliced)
    (hslot : slot.Moved place extra side moved) :
    PushedAlike place extra side draft.slots spliced.slots (draft.push slot) (spliced.push moved) :=
  ⟨h, slot, moved, hslot, rfl, rfl⟩

omit [Regexp.Matcher] in
theorem drop_raise (h : OpsSpliced place extra draft spliced) (hplace : place ≤ slot.start) :
    spliced.ops.toList.drop (slot.raise extra.length).start =
      draft.ops.toList.drop slot.start := by
  obtain ⟨first, behind, rfl, hdraft, hspliced⟩ := h
  rw [hdraft, hspliced, List.drop_append, List.drop_append, List.drop_append, Slot.start_raise_sub,
    List.drop_of_length_le (by simp only [Slot.raise]; omega),
    List.drop_of_length_le (by simp only [Slot.raise]; omega),
    List.drop_of_length_le hplace, List.nil_append, List.nil_append]

/-- What is not computed ahead is not computed ahead with something discarded in between. -/
theorem foldedValue?_below (h : OpsSpliced place extra draft spliced)
    (hslot : slot.Below place extra) {source : Source}
    (hfold : foldedValue? source (draft.ops.toList.drop slot.start) = none) :
    foldedValue? source (spliced.ops.toList.drop slot.start) = none := by
  obtain ⟨first, behind, rfl, hdraft, hspliced⟩ := h
  obtain ⟨aside, hdiscards⟩ := hslot.discards
  rw [hdraft, List.drop_append_of_le_length hslot.start] at hfold
  rw [hspliced, List.drop_append_of_le_length hslot.start]
  unfold foldedValue? at hfold ⊢
  cases hrun : (Machine.runOps ⟨source, none⟩
      (first.drop slot.start ++ (extra ++ behind))).result with
  | error error => rfl
  | ok value =>
      rw [Machine.result_spliced hdiscards hrun] at hfold
      cases hfold

theorem pushResult (h : OpsSpliced place extra draft spliced)
    (hslot : slot.Moved place extra side moved) (source : Source) (foldable : Bool)
    (hkept : side = false → (draft.pushResult source slot foldable).topIsConstant = false) :
    PushedAlike place extra side draft.slots spliced.slots (draft.pushResult source slot foldable)
      (spliced.pushResult source moved foldable) := by
  -- A result behind the place has the same steps, one below it has those spliced in as well.
  cases hslot with
  | behind hplace =>
      simp only [Draft.pushResult, h.drop_raise hplace]
      split
      · exact h.push (.behind hplace)
      · rename_i value _
        exact ⟨(h.truncate hplace).emit (.load value),
          { slot with
            domain := if slot.domain = .any then .scalar value.dataType else slot.domain
            constant := some value },
          _, .behind hplace, rfl, rfl⟩
  | below hbelow =>
      cases hfold : (if foldable then foldedValue? source (draft.ops.toList.drop slot.start)
          else none) with
      | some value =>
          have hopen := hkept rfl
          simp [Draft.pushResult, hfold, Draft.push, topIsConstant, Slot.isConstant] at hopen
      | none =>
          have hspliced : (if foldable then
              foldedValue? source (spliced.ops.toList.drop slot.start) else none) = none := by
            split
            · rename_i hfoldable
              rw [if_pos hfoldable] at hfold
              exact h.foldedValue?_below hbelow hfold
            · rfl
          simp only [Draft.pushResult, hfold, hspliced]
          exact h.push (.below hbelow)

end Draft.OpsSpliced

/-! ## Operands -/

theorem Draft.OpsSpliced.pushObject {draft spliced : Draft} {scope : Scope}
    (h : draft.OpsSpliced place extra spliced) (object : ObjectRef) :
    PushedAlike place extra true draft.slots spliced.slots (draft.pushObject scope object)
      (spliced.pushObject scope object) := by
  obtain ⟨hplace, hsize⟩ := h.size
  have hpush (content : Content) (domain : Domain) :
      PushedAlike place extra true draft.slots spliced.slots
      (draft.push ⟨content, domain, none, [], draft.ops.size⟩)
      (spliced.push ⟨content, domain, none, [], extra.length + draft.ops.size⟩) :=
    h.push (.behind hplace)
  cases object with
  | table t =>
      simp only [Draft.pushObject, hsize]
      exact hpush _ _
  | function f =>
      simp only [Draft.pushObject, hsize]
      exact hpush _ _
  | column c =>
      simp only [Draft.pushObject, hsize]
      split
      · exact ⟨(h.emit _).emit _, _, _, .behind hplace, rfl, rfl⟩
      · exact hpush _ _

theorem Draft.OpsSpliced.pushOperand {draft spliced draft' : Draft} {scope : Scope}
    {index : Nat} {operand : Operand} (h : draft.OpsSpliced place extra spliced)
    (hpush : draft.pushOperand scope index operand = .ok draft') (other : Nat) :
    ∃ spliced', spliced.pushOperand scope other operand = .ok spliced' ∧
      PushedAlike place extra true draft.slots spliced.slots draft' spliced' := by
  -- A new slot begins behind the spliced steps on both sides.
  obtain ⟨hplace, hsize⟩ := h.size
  cases operand with
  | variableAt position =>
      simp only [Draft.pushOperand, hsize] at hpush ⊢
      split at hpush
      · cases hpush
      rename_i domain hdomain
      split at hpush
      · cases hpush
      rename_i hposition
      cases hpush
      exact ⟨_, if_neg hposition, h.emit _, _, _, .behind hplace, rfl, rfl⟩
  | constant cell =>
      simp only [Draft.pushOperand, hsize] at hpush ⊢
      cases hpush
      exact ⟨_, rfl, h.emit _, _, _, .behind hplace, rfl, rfl⟩
  | object object =>
      cases hpush
      exact ⟨_, rfl, h.pushObject object⟩
  | name name =>
      simp only [Draft.pushOperand] at hpush ⊢
      split at hpush
      · cases hpush
      · cases hpush
        exact ⟨_, rfl, h.pushObject _⟩

/-! ## Operators -/

omit [Regexp.Matcher] in
theorem Draft.slots_discard (draft : Draft) (slot : Slot) :
    (draft.discard slot).slots = draft.slots := by
  unfold Draft.discard
  split
  · rfl
  · rfl
  · rfl
  · split <;> rfl

/-- Whether an operator with a topmost operand gives up the steps of it: `POP` those of a constant,
`GET_VALUE` those of a name that it resolves, and `REGEXP` those of a pattern that becomes part of
its step, which is the last one of the draft behind it. -/
def Draft.givesUpTop (draft' : Draft) (top : Option Slot) : Operator → Bool
  | .pop => top.any Slot.isConstant
  | .getValue =>
    match draft'.ops.back? with
    | some (.getColumn _) => true
    | _ => false
  | .regexp =>
    match draft'.ops.back? with
    | some (.matchesRegexp _) => true
    | _ => false
  | _ => false

namespace Draft.OpsSpliced

variable {draft spliced draft' : Draft} {scope : Scope} {index : Nat} {operator : Operator}
  {side topSide : Bool}

/-- What `POP` leaves differs in the spliced steps unless they go with a constant. -/
theorem discard {slot moved : Slot} (h : OpsSpliced place extra draft spliced)
    (hslot : slot.Moved place extra side moved)
    (hcut : side = false → slot.isConstant = false) :
    OpsSpliced place extra (draft.discard slot) (spliced.discard moved) := by
  have hpop : OpsSpliced place extra
      (if slot.isConstant then draft.truncate slot.start else draft.emit .pop)
      (if slot.isConstant then spliced.truncate moved.start else spliced.emit .pop) := by
    split
    · rename_i hconstant
      cases hslot with
      | behind hplace => exact h.truncate hplace
      | below => simp [hcut rfl] at hconstant
    · exact h.emit .pop
  simp only [Draft.discard, hslot.content_eq, hslot.isConstant_eq]
  split
  · exact h
  · exact h
  · exact h
  · exact hpop

theorem readColumn {record name record' name' : Slot} (h : OpsSpliced place extra draft spliced)
    (hrecord : record.Moved place extra side record')
    (hname : name.Moved place extra topSide name')
    (hread : draft.readColumn scope index record name = .ok draft')
    (hcut : topSide = false → draft'.givesUpTop (some name) .getValue = false) (other : Nat) :
    ∃ spliced', spliced.readColumn scope other record' name' = .ok spliced' ∧
      PushedAlike place extra side draft.slots spliced.slots draft' spliced' := by
  have hresult (domain : Domain) : (Slot.ofDomain domain record.start).Moved place extra side
      (.ofDomain domain record'.start) := hrecord.withStart rfl rfl
  -- The name of a column is resolved by its constant and by the domain of the record.
  have hcolumnOf {found : Option ColumnRef}
      (hfound : columnOf scope.source index name record.domain = .ok found) :
      columnOf scope.source other name' record'.domain = .ok found := by
    have hmoved : columnOf scope.source index name' record'.domain =
        columnOf scope.source index name record.domain := by
      rw [hname.eq_start, hrecord.domain_eq]
      rfl
    exact columnOf_of_ok (hmoved.trans hfound)
  simp only [Draft.readColumn] at hread ⊢
  split at hread
  · cases hread
  rename_i hvalue
  simp only [hrecord.requireValue hvalue other]
  split at hread
  · cases hread
  rename_i hdomain
  have hrecordDomain : requireRecord other record'.domain = .ok () := by
    rw [hrecord.domain_eq]
    exact requireRecord_of_ok hdomain
  simp only [hrecordDomain]
  split at hread
  · cases hread
  · rename_i column hcolumn
    cases hread
    simp only [hcolumnOf hcolumn]
    refine ⟨_, rfl, ?_⟩
    -- Cutting off the name would cut off what is spliced in below it, which `hcut` rules out.
    cases hname with
    | behind hplace =>
        exact ⟨(h.truncate hplace).emit _, _, _, hresult _, rfl, rfl⟩
    | below =>
        have hgiven := hcut rfl
        simp [givesUpTop, Draft.emit, Draft.push] at hgiven
  · rename_i hcolumn
    cases hread
    simp only [hcolumnOf hcolumn]
    exact ⟨_, rfl, h.emit _, _, _, hresult _, rfl, rfl⟩

theorem invert {operand operand' : Slot} (h : OpsSpliced place extra draft spliced)
    (hoperand : operand.Moved place extra side operand')
    (hinvert : draft.invert scope index operand = .ok draft')
    (hkept : side = false → draft'.topIsConstant = false) (other : Nat) :
    ∃ spliced', spliced.invert scope other operand' = .ok spliced' ∧
      PushedAlike place extra side draft.slots spliced.slots draft' spliced' := by
  simp only [Draft.invert] at hinvert ⊢
  split at hinvert
  · cases hinvert
  rename_i hvalue
  cases hinvert
  simp only [hoperand.requireValue hvalue other, hoperand.isConstant_eq]
  have hresult : (Slot.ofDomain (.scalar .boolean) operand.start).Moved place extra side
      (.ofDomain (.scalar .boolean) operand'.start) := hoperand.withStart rfl rfl
  exact ⟨_, rfl, (h.emit .not).pushResult hresult scope.source _ hkept⟩

theorem negate {operand operand' : Slot} (h : OpsSpliced place extra draft spliced)
    (hoperand : operand.Moved place extra side operand')
    (hnegate : draft.negate scope index operand = .ok draft')
    (hkept : side = false → draft'.topIsConstant = false) (other : Nat) :
    ∃ spliced', spliced.negate scope other operand' = .ok spliced' ∧
      PushedAlike place extra side draft.slots spliced.slots draft' spliced' := by
  simp only [Draft.negate] at hnegate ⊢
  split at hnegate
  · cases hnegate
  rename_i hvalue
  split at hnegate
  · cases hnegate
  rename_i hnumber
  cases hnegate
  have hdomain : requireNumber other operand'.domain = .ok () := by
    rw [hoperand.domain_eq]
    exact requireNumber_of_ok hnumber
  have hresult : (Slot.ofDomain operand.domain operand.start).Moved place extra side
      (.ofDomain operand.domain operand'.start) := hoperand.withStart rfl rfl
  simp only [hoperand.requireValue hvalue other, hdomain, hoperand.isConstant_eq]
  rw [hoperand.domain_eq]
  exact ⟨_, rfl, (h.emit .negate).pushResult hresult scope.source _ hkept⟩

/-! ### Operations on two values -/

/-- A constant integer beside records becomes a reference on both sides. -/
theorem besideRecord {domain : Domain} {slot moved taken : Slot}
    (h : OpsSpliced place extra draft spliced) (hslot : slot.Moved place extra side moved)
    (hbeside : draft.besideRecord index domain slot = .ok (draft', taken)) (other : Nat) :
    ∃ spliced' taken', spliced.besideRecord other domain moved = .ok (spliced', taken') ∧
      OpsSpliced place extra draft' spliced' ∧ draft'.slots = draft.slots ∧
      spliced'.slots = spliced.slots ∧ taken.Moved place extra side taken' := by
  cases domain with
  | any | scalar type =>
      cases hbeside
      exact ⟨_, _, rfl, h, rfl, rfl, hslot⟩
  | table table =>
      simp only [Draft.besideRecord, asRecordOf, hslot.constant_eq] at hbeside ⊢
      split at hbeside
      · rename_i n hconstant
        split at hbeside
        · cases hbeside
        · rename_i record _
          cases hbeside
          have hsome : slot.isConstant = true := by
            rw [Slot.isConstant, hconstant]
            rfl
          refine ⟨_, _, rfl, h.setOp hslot hsome (.load record), rfl, rfl, ?_⟩
          -- A constant has one step of its own, so that its first step is behind what is discarded.
          cases hslot with
          | behind hplace => exact .behind hplace
          | below hbelow =>
              exact .below ⟨hbelow.discards, hbelow.start, fun _ => hbelow.constant hsome⟩
      · cases hbeside
        exact ⟨_, _, rfl, h, rfl, rfl, hslot⟩

theorem comparedOperands {left right left' right' first second : Slot}
    (h : OpsSpliced place extra draft spliced) (hleft : left.Moved place extra side left')
    (hright : right.Moved place extra topSide right')
    (hcompared : (if operator.isComparison then draft.comparedOperands index left right
      else .ok (draft, left, right)) = .ok (draft', first, second)) (other : Nat) :
    ∃ spliced' first' second',
      (if operator.isComparison then spliced.comparedOperands other left' right'
        else .ok (spliced, left', right')) = .ok (spliced', first', second') ∧
      OpsSpliced place extra draft' spliced' ∧ draft'.slots = draft.slots ∧
      spliced'.slots = spliced.slots ∧ first.Moved place extra side first' ∧
      second.Moved place extra topSide second' := by
  split at hcompared
  · rename_i hcomparison
    rw [if_pos hcomparison]
    simp only [Draft.comparedOperands] at hcompared ⊢
    split at hcompared
    · cases hcompared
    rename_i between taken hbeside
    -- The right operand is turned into a record first, and the left one in what this leaves.
    obtain ⟨between', taken', hbeside', hbetween, hslots, hslots', htaken⟩ :=
      h.besideRecord hright hbeside other
    split at hcompared
    · cases hcompared
    rename_i last taken hlast
    obtain ⟨last', first', hlast', hops, hlastSlots, hlastSlots', hfirst⟩ :=
      hbetween.besideRecord hleft hlast other
    cases hcompared
    simp only [hleft.domain_eq, hbeside', htaken.domain_eq, hlast']
    exact ⟨_, _, _, rfl, hops, hlastSlots.trans hslots, hlastSlots'.trans hslots', hfirst, htaken⟩
  · rename_i hcomparison
    rw [if_neg hcomparison]
    cases hcompared
    exact ⟨_, _, _, rfl, h, rfl, rfl, hleft, hright⟩

theorem emitBinary {operation : Binary} {left right left' right' : Slot}
    (h : OpsSpliced place extra draft spliced) (hleft : left.Moved place extra side left')
    (hright : right.Moved place extra topSide right')
    (hemit : draft.emitBinary index operation left right = .ok draft')
    (hcut : topSide = false → draft'.givesUpTop (some right) .regexp = false) (other : Nat) :
    ∃ spliced', spliced.emitBinary other operation left' right' = .ok spliced' ∧
      OpsSpliced place extra draft' spliced' ∧ draft'.slots = draft.slots ∧
      spliced'.slots = spliced.slots := by
  simp only [Draft.emitBinary, hright.constant_eq, hleft.isConstant_eq] at hemit ⊢
  split at hemit
  · split at hemit
    · cases hemit
    split at hemit
    · rename_i hconstant
      cases hemit
      exact ⟨_, if_pos hconstant, h.emit _, rfl, rfl⟩
    · rename_i hopen
      cases hemit
      refine ⟨_, if_neg hopen, ?_, rfl, rfl⟩
      cases hright with
      | behind hplace => exact (h.truncate hplace).emit _
      -- A pattern below the place would take the spliced steps away with it.
      | below =>
          have hgiven := hcut rfl
          simp [givesUpTop, Draft.emit] at hgiven
  · cases hemit
    exact ⟨_, rfl, h.emit _, rfl, rfl⟩

theorem combine {operation : Binary} {left right left' right' : Slot}
    (hoperator : operator.binary? = some operation)
    (h : OpsSpliced place extra draft spliced) (hleft : left.Moved place extra side left')
    (hright : right.Moved place extra topSide right')
    (hcombine : draft.combine scope index operator operation left right = .ok draft')
    (hcut : topSide = false → draft'.givesUpTop (some right) operator = false)
    (hkept : side = false → draft'.topIsConstant = false) (other : Nat) :
    ∃ spliced', spliced.combine scope other operator operation left' right' = .ok spliced' ∧
      PushedAlike place extra side draft.slots spliced.slots draft' spliced' := by
  have hboth : Slot.MovedAll place extra [right, left] [right', left'] :=
    .cons ⟨_, hright⟩ (.cons ⟨_, hleft⟩ .nil)
  simp only [Draft.combine] at hcombine ⊢
  split at hcombine
  · cases hcombine
  rename_i hvalues
  split at hcombine
  · cases hcombine
  rename_i compared first second hcompared
  obtain ⟨compared', first', second', hcompared', hops, hslots, hslots', hfirst, hsecond⟩ :=
    h.comparedOperands hleft hright hcompared other
  split at hcombine
  · cases hcombine
  rename_i emitted hemit
  cases hcombine
  have hpattern : topSide = false → emitted.givesUpTop (some second) .regexp = false := by
    intro htop
    rcases emitBinary_cases hemit with rfl | ⟨pattern, regexp, rfl, _, _, hopen, rfl⟩
    · simp [givesUpTop, Draft.emit]
    · -- A value with a pattern in its step is not computed ahead, so that step is the last one.
      obtain rfl : operator = .regexp := by
        cases operator <;> cases hoperator
        rfl
      simpa [hopen, Draft.pushResult, Draft.push, givesUpTop] using hcut htop
  obtain ⟨emitted', hemit', hemitted, hemittedSlots, hemittedSlots'⟩ :=
    hops.emitBinary hfirst hsecond hemit hpattern other
  -- The result starts where the left operand does, so it is on the side of that operand.
  have hresult : (binarySlot operator first second).Moved place extra side
      (binarySlot operator first' second') := by
    have hsame : binarySlot operator first' second' =
        { binarySlot operator first second with start := first'.start } := by
      simp only [binarySlot, Slot.ofDomain, hfirst.domain_eq, hsecond.domain_eq, searchedKeywords,
        hsecond.constant_eq, hfirst.keywords_eq]
    rw [hsame]
    exact hfirst.withStart rfl rfl
  simp only [hboth.requireValues hvalues other, hcompared', hemit', hfirst.isConstant_eq,
    hsecond.isConstant_eq]
  rw [← hslots, ← hslots', ← hemittedSlots, ← hemittedSlots']
  exact ⟨_, rfl, hemitted.pushResult hresult scope.source _ hkept⟩

/-! ### Calls and connectives -/

theorem call {target target' : Slot} {arguments arguments' : List Slot}
    (h : OpsSpliced place extra draft spliced) (htarget : target.Moved place extra side target')
    (harguments : Slot.MovedAll place extra arguments arguments')
    (hcall : draft.call scope index target arguments = .ok draft')
    (hkept : side = false → draft'.topIsConstant = false) (other : Nat) :
    ∃ spliced', spliced.call scope other target' arguments' = .ok spliced' ∧
      PushedAlike place extra side draft.slots spliced.slots draft' spliced' := by
  have hlength : arguments'.length = arguments.length := harguments.length_eq.symm
  simp only [Draft.call, htarget.content_eq, hlength] at hcall ⊢
  split at hcall
  · rename_i function _
    split at hcall
    · cases hcall
    split at hcall
    · cases hcall
    rename_i hmost
    split at hcall
    · cases hcall
    rename_i hvalues
    cases hcall
    -- What a call leaves starts where the function does.
    have hresult : (Slot.ofDomain target.domain target.start).Moved place extra side
        (.ofDomain target.domain target'.start) := htarget.withStart rfl rfl
    simp only [if_neg hmost, harguments.requireValues hvalues other, htarget.domain_eq,
      harguments.all_isConstant]
    exact ⟨_, rfl, (h.emit _).pushResult hresult scope.source _ hkept⟩
  · cases hcall

theorem connect {connective : Connective} {first first' : Slot} {later later' : List Slot}
    (h : OpsSpliced place extra draft spliced) (hfirst : first.Moved place extra side first')
    (hlater : Slot.MovedAll place extra later later')
    (hconnect : draft.connect scope index operator connective (first :: later) = .ok draft')
    (hkept : side = false → draft'.topIsConstant = false) (other : Nat) :
    ∃ spliced', spliced.connect scope other operator connective (first' :: later') =
        .ok spliced' ∧
      PushedAlike place extra side draft.slots spliced.slots draft' spliced' := by
  have hall : Slot.MovedAll place extra (first :: later) (first' :: later') :=
    .cons ⟨_, hfirst⟩ hlater
  have hlength : (first' :: later').length = (first :: later).length := hall.length_eq.symm
  simp only [Draft.connect] at hconnect ⊢
  split at hconnect
  · cases hconnect
  rename_i hvalues
  split at hconnect
  · cases hconnect
  rename_i hmost
  cases hconnect
  have hresult : (connectedSlot connective first.start (first :: later)).Moved place extra side
      (connectedSlot connective first'.start (first :: later)) := hfirst.withStart rfl rfl
  simp only [hall.requireValues hvalues other, hlength, if_neg hmost, hall.all_isConstant,
    hall.connectedKeywords_eq]
  exact ⟨_, rfl, (h.emit _).pushResult hresult scope.source _ hkept⟩

end Draft.OpsSpliced

end RecordQuery.Compile

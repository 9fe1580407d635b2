import RecordQuery.MemoryStore.Source
import RecordQuery.Proofs.Condition.Operations
import RecordQuery.Proofs.Expression.Lifecycle
import RecordQuery.Regexp.Standard

/-!
# Empty sets among members

A set without members adds nothing, but the set that it is a member of counts it all the same and
looks for one operand too many.  Nothing that is built on its own has operands to spare, so a
condition with an empty set among members is never built (`Condition.filled_of_toExpression`), while
pruning such sets leaves all other conditions as they are (`Condition.pruned?_of_filled`).  What is
built is therefore what is built of the pruned condition, unless an empty set stands in the way
(`Condition.toExpression_eq_ok_iff`).
-/

namespace RecordQuery

namespace Condition

/-! ## Pruning -/

mutual

/-- Whether no set in a condition has an empty set among its members. -/
def Filled : Condition → Prop
  | comparison _ _ _ | query _ _ => True
  | all members | any members => AllFilled members

/-- Whether this holds of several conditions, none of which is an empty set. -/
def AllFilled : List Condition → Prop
  | [] => True
  | member :: later => (member.isEmpty = false ∧ member.Filled) ∧ AllFilled later

end

mutual

/-- A condition without its empty sets and the sets that become empty; none if it is one itself. -/
def pruned? : Condition → Option Condition
  | all members =>
    match prunedAll members with
    | [] => none
    | kept => some (all kept)
  | any members =>
    match prunedAll members with
    | [] => none
    | kept => some (any kept)
  | other => some other

/-- Several conditions without empty sets. -/
def prunedAll : List Condition → List Condition
  | [] => []
  | member :: later =>
    match member.pruned? with
    | some kept => kept :: prunedAll later
    | none => prunedAll later

end

mutual

/-- Pruning leaves no empty set. -/
theorem filled_pruned? : (condition : Condition) → ∀ {kept : Condition},
    condition.pruned? = some kept → kept.isEmpty = false ∧ kept.Filled
  | comparison _ _ _, _, h | query _ _, _, h => by
    cases h
    exact ⟨rfl, trivial⟩
  | all members, kept, h | any members, kept, h => by
    have hmembers := allFilled_prunedAll members
    rw [pruned?] at h
    split at h
    · cases h
    · rename_i hnonempty
      cases h
      exact ⟨by simpa [isEmpty] using hnonempty, hmembers⟩

theorem allFilled_prunedAll : (members : List Condition) → AllFilled (prunedAll members)
  | [] => trivial
  | member :: later => by
    rw [prunedAll]
    split
    · rename_i kept hkept
      exact ⟨filled_pruned? member hkept, allFilled_prunedAll later⟩
    · exact allFilled_prunedAll later

end

mutual

theorem pruned?_of_filled : (condition : Condition) → condition.isEmpty = false →
    condition.Filled → condition.pruned? = some condition
  | comparison _ _ _, _, _ => rfl
  | query _ _, _, _ => rfl
  | all members, hnonempty, hfilled | any members, hnonempty, hfilled => by
    obtain ⟨member, later, rfl⟩ := List.exists_cons_of_ne_nil (by simpa [isEmpty] using hnonempty)
    rw [pruned?, prunedAll_of_allFilled _ hfilled]

theorem prunedAll_of_allFilled : (members : List Condition) → AllFilled members →
    prunedAll members = members
  | [], _ => rfl
  | member :: later, ⟨⟨hnonempty, hfilled⟩, hlater⟩ => by
    rw [prunedAll, pruned?_of_filled member hnonempty hfilled, prunedAll_of_allFilled later hlater]

end

theorem pruned?_of_isEmpty {condition : Condition} (h : condition.isEmpty = true) :
    condition.pruned? = none := by
  cases condition with
  | comparison | query => cases h
  | all members | any members =>
      obtain rfl : members = [] := by simpa [isEmpty] using h
      rfl

theorem not_allFilled_append (first : List Condition) {later : List Condition}
    {member : Condition} (h : member.isEmpty = true) :
    ¬ AllFilled (first ++ member :: later) := by
  induction first with
  | nil => exact fun hfilled => Bool.false_ne_true (hfilled.1.1.symm.trans h)
  | cons other first ih => exact fun hfilled => ih hfilled.2

/-- Behind another condition, `and` makes a member of an empty set. -/
theorem not_filled_and (first : Condition) {empty : Condition} (h : empty.isEmpty = true) :
    ¬ (first.and empty).Filled := by
  cases first with
  | all members => exact not_allFilled_append members h
  | comparison | query | any => exact not_allFilled_append [_] h

theorem not_filled_or (first : Condition) {empty : Condition} (h : empty.isEmpty = true) :
    ¬ (first.or empty).Filled := by
  cases first with
  | any members => exact not_allFilled_append members h
  | comparison | query | all => exact not_allFilled_append [_] h

/-! ## What is added -/

variable {e extended : Expression}

/-- A text that is added can be read. -/
theorem addTo_query_eq_ok {text : String} {options : ParseOptions} (hbuilding : e.stage = .building)
    (hvars : e.vars.size ≠ 0) (h : (query text options).addTo e = .ok extended) :
    (query text options).Proper ∧ extended = e.extend (query text options).operations := by
  have hrecord : (e.vars.size != 0) = true := by simpa using hvars
  cases hoptions : options.check with
  | error error =>
      simp [addTo, Expression.parse, Expression.requireBuilding, hbuilding, hoptions] at h
  | ok =>
      cases hread : (parseText options true text).outcome with
      | error error =>
          simp [addTo, Expression.parse, Expression.requireBuilding, hbuilding, hoptions, hrecord,
            hread] at h
      | ok count =>
          have hproper : (query text options).Proper := ⟨hoptions, count, hread⟩
          rw [addTo_eq _ hproper hbuilding hvars] at h
          exact ⟨hproper, (Except.ok.inj h).symm⟩

/-- A set adds what its members add and, if there are any, its operator. -/
theorem joinMembers_eq_ok {members : List Condition} {operator : Operator}
    {connective : Connective} (hoperator : operator.connective? = some connective)
    {operations : List Operation} {holds : Prop}
    (hadds : AddsAtMost members.length holds operations)
    (hbuilding : e.stage = .building)
    (h : joinMembers operator members.length (e.extend operations) = .ok extended) :
    ∃ joined, extended = e.extend joined ∧
      AddsAtMost 1 (members.isEmpty = false ∧ holds) joined := by
  have hextended : (e.extend operations).stage = .building := hbuilding
  unfold joinMembers at h
  split at h
  · rename_i hempty
    exact ⟨operations, (Except.ok.inj h).symm, hadds.of_lt (by omega)⟩
  · rename_i hcount
    have hnonempty : members.isEmpty = false := by
      cases members with
      | nil => exact absurd rfl hcount
      | cons member later => rfl
    rw [Expression.appendOperation, Expression.append_eq hextended, Expression.extend_extend] at h
    exact ⟨_, (Except.ok.inj h).symm, (hadds.set hoperator).imp fun hholds => ⟨hnonempty, hholds⟩⟩

mutual

/-- A condition adds one slot at most, and one only if it is no empty set and has none among
members. -/
theorem addTo_addsAtMost : (condition : Condition) → ∀ {e extended : Expression},
    e.stage = .building → e.vars.size ≠ 0 → condition.addTo e = .ok extended →
    ∃ operations, extended = e.extend operations ∧
      AddsAtMost 1 (condition.isEmpty = false ∧ condition.Filled) operations
  | comparison operator name constant, e, extended, hbuilding, _, h => by
    rw [addTo, Expression.appendAll_eq hbuilding] at h
    exact ⟨_, (Except.ok.inj h).symm,
      (AddsAtMost.comparison operator name constant).imp fun _ => ⟨rfl, trivial⟩⟩
  | query text options, e, extended, hbuilding, hvars, h => by
    obtain ⟨hproper, rfl⟩ := addTo_query_eq_ok hbuilding hvars h
    exact ⟨_, rfl, (fits_of_slots _ hproper).imp fun _ => ⟨rfl, trivial⟩⟩
  | all members, e, extended, hbuilding, hvars, h
  | any members, e, extended, hbuilding, hvars, h => by
    rw [addTo] at h
    split at h
    · cases h
    · rename_i between hbetween
      obtain ⟨operations, rfl, hadds⟩ := addMembersTo_addsAtMost members hbuilding hvars hbetween
      exact joinMembers_eq_ok rfl hadds hbuilding h

/-- Members add one slot each at most, and as many only if none of them is an empty set or has one
among its members. -/
theorem addMembersTo_addsAtMost : (members : List Condition) → ∀ {e extended : Expression},
    e.stage = .building → e.vars.size ≠ 0 → addMembersTo members e = .ok extended →
    ∃ operations, extended = e.extend operations ∧
      AddsAtMost members.length (AllFilled members) operations
  | [], e, extended, _, _, h => by
    obtain rfl : e = extended := Except.ok.inj h
    exact ⟨[], e.extend_nil.symm, .of_addsSlots .nil⟩
  | member :: later, e, extended, hbuilding, hvars, h => by
    rw [addMembersTo] at h
    split at h
    · cases h
    · rename_i between hbetween
      obtain ⟨first, rfl, hfirst⟩ := addTo_addsAtMost member hbuilding hvars hbetween
      have hextended : (e.extend first).stage = .building := hbuilding
      obtain ⟨rest, rfl, hrest⟩ := addMembersTo_addsAtMost later hextended hvars h
      refine ⟨first ++ rest, e.extend_extend first rest, ?_⟩
      have hall := hfirst.append hrest
      rwa [Nat.add_comm] at hall

end

/-! ## What is built -/

variable {source : Source} {name : Option String} {table : TableId} {condition : Condition}
  {ready : Expression}

section Building

variable [Regexp.Matcher]

theorem toExpression_of_isEmpty (source : Source) (name : Option String) (table : TableId)
    (h : condition.isEmpty = true) :
    toExpression source name table (some condition) = toExpression source name table none := by
  simp [toExpression, Expression.defineVariable, Expression.requireBuilding, Expression.empty, h]

/-- A condition that is built has no empty set among members. -/
theorem filled_of_toExpression (h : toExpression source name table (some condition) = .ok ready) :
    condition.Filled := by
  cases hempty : condition.isEmpty with
  | true =>
      cases condition with
      | comparison | query => cases hempty
      | all members | any members =>
          obtain rfl : members = [] := by simpa [isEmpty] using hempty
          trivial
  | false =>
      have hdefined : (Expression.empty name).defineVariable none (.table table) =
          .ok (Expression.onRecords name table) := rfl
      simp only [toExpression, hdefined, hempty, Bool.false_eq_true, if_false] at h
      split at h
      · cases h
      · rename_i extended hadded
        have hbuilding : (Expression.onRecords name table).stage = .building := rfl
        obtain ⟨operations, rfl, hadds⟩ :=
          addTo_addsAtMost condition hbuilding Nat.one_ne_zero hadded
        rcases Expression.compile_cases h with ⟨hbuilt, _⟩ | ⟨_, _, compiled, hcompile, _⟩
        · exact absurd rfl hbuilt
        · have hlist : ((Expression.onRecords name table).extend operations).operations.toList =
              operations := by
            simp [Expression.extend, Expression.onRecords, Expression.empty]
          rw [hlist] at hcompile
          -- One slot is left at the end, and only a filled condition adds as many.
          obtain ⟨haccepts, hslots⟩ := Compile.slots_of_compile hcompile
          exact ((hadds haccepts hslots).2 rfl).2

/-- A filled condition is built as it is when it is pruned. -/
theorem toExpression_pruned? (source : Source) (name : Option String) (table : TableId)
    (h : condition.Filled) :
    toExpression source name table (some condition) =
      toExpression source name table condition.pruned? := by
  cases hempty : condition.isEmpty with
  | true => rw [toExpression_of_isEmpty source name table hempty, pruned?_of_isEmpty hempty]
  | false => rw [pruned?_of_filled condition hempty h]

/-- What is built of a condition, with or without a query, is what is built of the pruned condition,
in which no set is empty, and always holds if nothing remains of it.  But nothing is built if an empty
set is the member of a set, as it is behind any other condition that it is joined with. -/
theorem toExpression_eq_ok_iff (source : Source) (name : Option String) (table : TableId)
    (query condition : Option Condition) (ready : Expression) :
    let whole := combine query condition
    (toExpression source name table whole = .ok ready ↔
      (∀ joined ∈ whole, joined.Filled) ∧
        toExpression source name table (whole.bind pruned?) = .ok ready) ∧
    (∀ kept ∈ whole.bind pruned?, kept.isEmpty = false ∧ kept.Filled) ∧
    ∀ first : Condition, ∀ empty ∈ [all [], any []],
      toExpression source name table (some (first.and empty)) ≠ .ok ready ∧
      toExpression source name table (some (first.or empty)) ≠ .ok ready := by
  intro whole
  refine ⟨?_, ?_, ?_⟩
  · cases whole with
    | none => simp
    | some joined =>
        simp only [Option.mem_some_iff, forall_eq', Option.bind_some]
        constructor
        · intro hbuilt
          have hfilled := filled_of_toExpression hbuilt
          exact ⟨hfilled, toExpression_pruned? source name table hfilled ▸ hbuilt⟩
        · rintro ⟨hfilled, hbuilt⟩
          rwa [toExpression_pruned? source name table hfilled]
  · intro kept hkept
    obtain ⟨joined, _, hpruned⟩ := Option.bind_eq_some_iff.mp hkept
    exact filled_pruned? joined hpruned
  · intro first empty hmem
    have hempty : empty.isEmpty = true := by
      rcases List.mem_pair.mp hmem with rfl | rfl <;> rfl
    exact ⟨fun hbuilt => not_filled_and first hempty (filled_of_toExpression hbuilt),
      fun hbuilt => not_filled_or first hempty (filled_of_toExpression hbuilt)⟩

end Building

/-- A query on the names together with a filled condition. -/
theorem toExpression_eq_ok_iff_named :
    let columns : List Column := [⟨"name", .scalar .text⟩, ⟨"age", .scalar .integer⟩]
    let source := (⟨[⟨"People", none, columns, []⟩], .empty⟩ : MemoryStore).source none
    let query := Condition.query "ann" { defaultColumn := some "name" }
    let grown :=
      any [comparison .greater "age" (.integer 20), comparison .equal "name" (.text "Ann")]
    ∃ ready, toExpression source none ⟨1⟩ (combine (some query) (some grown)) = .ok ready ∧
      toExpression source none ⟨1⟩ (query.and grown).pruned? = .ok ready := by
  intro columns source query grown
  have hbuilt : (toExpression source none ⟨1⟩ (combine (some query) (some grown))).isOk = true := by
    decide +kernel
  cases hready : toExpression source none ⟨1⟩ (combine (some query) (some grown)) with
  | error error =>
      rw [hready] at hbuilt
      cases hbuilt
  | ok ready =>
      have hpruned := (toExpression_eq_ok_iff source none ⟨1⟩ (some query) (some grown) ready).1.mp
        hready
      exact ⟨ready, rfl, hpruned.2⟩

/-- A comparison is built on its own, and so is the set of it that is left when an empty set beside
it is pruned, but with the empty set beside it the connective lacks an operand. -/
theorem toExpression_emptySet_refused :
    let source := (⟨[⟨"People", none, [⟨"age", .scalar .integer⟩], []⟩], .empty⟩ :
      MemoryStore).source none
    let grown := comparison .greater "age" (.integer 20)
    (toExpression source none ⟨1⟩ (some grown)).isOk = true ∧
      (toExpression source none ⟨1⟩ (grown.and (all [])).pruned?).isOk = true ∧
      (toExpression source none ⟨1⟩ (some (grown.and (all [])))).map (fun _ => ()) =
        .error (.stackUnderflow 5 .and 2 1) := by
  decide +kernel

end Condition

end RecordQuery

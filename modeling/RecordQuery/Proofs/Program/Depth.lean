import Mathlib.Algebra.Ring.Int.Defs
import RecordQuery.Proofs.Except
import RecordQuery.Proofs.Program.Fusion

/-!
# Depths of the stack

A step that does not fail changes the depth of the stack by its `stackEffect`, so the depth at any
point of a run is known before the run and stays below the depth of the program.

Whether steps find what they need is known before the run as well: `Lifts limit depth ops depth'`
says that steps which start at a depth find enough values, only use variables that exist, and end at
another depth.  Such steps never fail for want of values or variables (`step_fits`).
-/

namespace RecordQuery

namespace Op

/-- The number of values that a step takes off the stack. -/
def taken : Op → Nat
  | load _ | loadVariable _ | loadVariableColumn .. => 0
  | getColumn _ | not | negate | containsNeedle _ | matchesRegexp _ | pop => 1
  | getValue | binary _ => 2
  | call _ count | connect _ count => count

/-- The number of values that a step leaves. -/
def given : Op → Nat
  | pop => 0
  | _ => 1

theorem stackEffect_eq (op : Op) : op.stackEffect = (op.given : Int) - op.taken := by
  cases op <;> rfl

/-- Whether the variable of a step is one of a number of variables, and a connective has
operands. -/
def WellFormed (limit : Nat) : Op → Prop
  | loadVariable position | loadVariableColumn position _ => position < limit
  | connect _ count => count ≠ 0
  | _ => True

end Op

/-! ## Depths before a run -/

/-- Steps that find what they need and lead from one depth of the stack to another. -/
inductive Lifts (limit : Nat) : Nat → List Op → Nat → Prop
  | nil {depth : Nat} : Lifts limit depth [] depth
  | cons {kept last : Nat} {op : Op} {rest : List Op} :
      op.WellFormed limit → Lifts limit (kept + op.given) rest last →
      Lifts limit (kept + op.taken) (op :: rest) last

namespace Lifts

variable {limit depth between last : Nat} {first second ops : List Op}

theorem head {op : Op} (h : Lifts limit depth (op :: ops) last) :
    op.WellFormed limit ∧ ∃ kept, depth = kept + op.taken ∧
      Lifts limit (kept + op.given) ops last := by
  cases h with
  | cons hop hrest => exact ⟨hop, _, rfl, hrest⟩

theorem single (op : Op) (hop : op.WellFormed limit) (kept : Nat) :
    Lifts limit (kept + op.taken) [op] (kept + op.given) :=
  .cons hop .nil

theorem append (hfirst : Lifts limit depth first between)
    (hsecond : Lifts limit between second last) :
    Lifts limit depth (first ++ second) last := by
  induction hfirst with
  | nil => exact hsecond
  | cons hop _ ih => exact .cons hop (ih hsecond)

theorem split (h : Lifts limit depth (first ++ second) last) :
    ∃ between, Lifts limit depth first between ∧ Lifts limit between second last := by
  induction first generalizing depth with
  | nil => exact ⟨depth, .nil, h⟩
  | cons op first ih =>
      obtain _ | ⟨hop, hrest⟩ := h
      obtain ⟨between, hfirst, hsecond⟩ := ih hrest
      exact ⟨between, .cons hop hfirst, hsecond⟩

theorem above (h : Lifts limit depth ops last) (kept : Nat) :
    Lifts limit (kept + depth) ops (kept + last) := by
  induction h with
  | nil => exact .nil
  | cons hop _ ih =>
      rw [← Nat.add_assoc] at ih ⊢
      exact .cons hop ih

theorem fuse (h : Lifts limit depth ops last) :
    Lifts limit depth (Program.fuse ops) last := by
  fun_induction Program.fuse ops generalizing depth with
  | case1 position column rest ih =>
      -- The second step takes what the first one leaves, so together they leave one value.
      obtain ⟨hvariable, kept, rfl, hcolumn⟩ := h.head
      obtain ⟨_, kept', hkept, hrest⟩ := hcolumn.head
      obtain rfl : kept' = depth := (Nat.succ.inj hkept).symm
      have hjoined : (Op.loadVariableColumn position column).WellFormed limit := hvariable
      exact .cons hjoined (ih hrest)
  | case2 keyword rest ih =>
      obtain ⟨_, kept, rfl, hsearch⟩ := h.head
      obtain ⟨_, kept', hkept, hrest⟩ := hsearch.head
      obtain rfl : depth = kept' + 1 := Nat.succ.inj hkept
      have hjoined : (Op.containsNeedle (.ofKeyword keyword)).WellFormed limit := trivial
      exact .cons hjoined (ih hrest)
  | case3 op rest _ _ ih =>
      obtain ⟨hop, kept, rfl, hrest⟩ := h.head
      exact .cons hop (ih hrest)
  | case4 => exact h

end Lifts

/-! ## Depths in a run -/

/-- Whether an error says that a step found too few values or no variable. -/
def Error.IsStackFault : Error → Prop
  | .evaluation .stackUnderflow | .evaluation (.missingArguments ..)
  | .variableOutOfRange .. => True
  | _ => False

namespace Machine

variable {env : Environment} {state next : State} {op : Op} {ops : List Op}

/-! ### Single steps -/

theorem State.readColumn_length {source : Source} {record : Value} {column : ColumnRef}
    {below : List Value} (hread : state.readColumn source record column below = .ok next) :
    next.stack.length = below.length + 1 := by
  unfold State.readColumn at hread
  split at hread
  · cases hread
  · rename_i value _
    cases hread
    cases value <;> rfl
  · cases hread
    rfl

theorem State.readNamed_length {source : Source} {record name : Value} {below : List Value}
    (hread : state.readNamed source record name below = .ok next) :
    next.stack.length = below.length + 1 := by
  unfold State.readNamed at hread
  split at hread
  · split at hread
    · split at hread
      · cases hread
      · exact readColumn_length hread
    · cases hread
      rfl
    · cases hread
  · cases hread

theorem State.mapTop_length {rule : Value → Except Error Value}
    (hmap : state.mapTop rule = .ok next) : next.stack.length = state.stack.length := by
  unfold State.mapTop at hmap
  split at hmap
  · rename_i value below hstack
    obtain ⟨result, _, rfl⟩ := exists_of_map_eq_ok hmap
    rw [hstack]
    rfl
  · cases hmap

theorem State.mapTopTwo_length {rule : Value → Value → Except Error Value}
    (hmap : state.mapTopTwo rule = .ok next) :
    next.stack.length + 1 = state.stack.length := by
  unfold State.mapTopTwo at hmap
  split at hmap
  · rename_i right left below hstack
    obtain ⟨result, _, rfl⟩ := exists_of_map_eq_ok hmap
    rw [hstack]
    rfl
  · cases hmap

/-- A step that does not fail changes the depth by its effect. -/
theorem step_length [Regexp.Matcher] (hstep : step env state op = .ok next) :
    next.stack.length + op.taken = state.stack.length + op.given := by
  cases op with
  | load value =>
      cases hstep
      rfl
  | loadVariable position =>
      simp only [step] at hstep
      obtain ⟨value, _, rfl⟩ := exists_of_map_eq_ok hstep
      rfl
  | loadVariableColumn position column =>
      simp only [step] at hstep
      split at hstep
      · cases hstep
      · exact State.readColumn_length hstep
  | getColumn column =>
      simp only [step] at hstep
      split at hstep
      · rename_i hstack
        rw [State.readColumn_length hstep, hstack]
        rfl
      · cases hstep
  | getValue =>
      simp only [step] at hstep
      split at hstep
      · rename_i hstack
        rw [State.readNamed_length hstep, hstack]
        rfl
      · cases hstep
  | pop =>
      simp only [step] at hstep
      split at hstep
      · rename_i hstack
        cases hstep
        rw [hstack]
        rfl
      · cases hstep
  | call function count =>
      simp only [step] at hstep
      split at hstep
      · cases hstep
      · obtain ⟨value, _, rfl⟩ := exists_of_map_eq_ok hstep
        simp only [State.put, List.length_cons, List.length_drop, Op.taken, Op.given]
        omega
  | connect connective count =>
      simp only [step] at hstep
      split at hstep
      · cases hstep
      · cases hstep
        simp only [State.put, List.length_cons, List.length_drop, Op.taken, Op.given]
        omega
  | not => exact congrArg (· + 1) (State.mapTop_length hstep)
  | containsNeedle needle => exact congrArg (· + 1) (State.mapTop_length hstep)
  | matchesRegexp regexp => exact congrArg (· + 1) (State.mapTop_length hstep)
  | negate => exact congrArg (· + 1) (State.mapTop_length hstep)
  | binary operation => exact congrArg (· + 1) (State.mapTopTwo_length hstep)

/-! ### Runs -/

theorem steps_length [Regexp.Matcher] (hsteps : steps env state ops = .ok next) :
    (next.stack.length : Int) = state.stack.length + (ops.map Op.stackEffect).sum := by
  induction ops generalizing state with
  | nil =>
      cases hsteps
      simp
  | cons op rest ih =>
      simp only [steps] at hsteps
      split at hsteps
      · cases hsteps
      · rename_i between hstep
        have hlength := step_length hstep
        rw [ih hsteps, List.map_cons, List.sum_cons, Op.stackEffect_eq]
        omega

theorem le_foldl_max (depths : List Int) (high : Int) : high ≤ depths.foldl max high := by
  induction depths generalizing high with
  | nil => exact Int.le_refl _
  | cons depth later ih => exact Int.le_trans (Int.le_max_left ..) (ih _)

/-- The depth after the first steps is below the greatest of all depths. -/
theorem depth_le_foldl_max {depth high : Int} (hdepth : depth ≤ high) (done rest : List Op) :
    depth + (done.map Op.stackEffect).sum ≤
      (Program.depths depth (done ++ rest)).foldl max high := by
  -- The greatest depth so far goes along, since `maxStackDepth` folds from the left.
  induction done generalizing depth high with
  | nil =>
      have hhigh := le_foldl_max (Program.depths depth rest) high
      simp only [List.map_nil, List.sum_nil, List.nil_append]
      omega
  | cons op done ih =>
      have hnext := ih (Int.le_max_right high (depth + op.stackEffect))
      rw [List.map_cons, List.sum_cons, ← Int.add_assoc]
      exact hnext

theorem sum_le_maxStackDepth {program : Program} {done rest : List Op}
    (hops : program.ops = done ++ rest) :
    (done.map Op.stackEffect).sum ≤ (program.maxStackDepth : Int) := by
  have hdepth := depth_le_foldl_max (Int.zero_le_ofNat 1) done rest
  rw [Program.maxStackDepth, hops]
  have hmost := Int.self_le_toNat ((Program.depths 0 (done ++ rest)).foldl max 1)
  simp only [Int.zero_add] at hdepth
  exact Int.le_trans hdepth hmost

/-! ### Steps that find what they need -/

theorem State.not_isStackFault_readColumn {source : Source} {record : Value} {column : ColumnRef}
    {below : List Value} {error : Error}
    (hread : state.readColumn source record column below = .error error) :
    ¬ error.IsStackFault := by
  unfold State.readColumn at hread
  split at hread
  · rename_i fault hfault
    cases hread
    unfold Machine.readColumn at hfault
    split at hfault
    · cases hfault
    · split at hfault
      · cases hfault
      · split at hfault
        · cases hfault
          exact id
        · split at hfault
          · cases hfault
          · cases hfault
            exact id
    · cases hfault
      exact id
  · cases hread
  · cases hread

theorem State.not_isStackFault_readNamed {source : Source} {record name : Value}
    {below : List Value} {error : Error}
    (hread : state.readNamed source record name below = .error error) :
    ¬ error.IsStackFault := by
  unfold State.readNamed at hread
  split at hread
  · split at hread
    · split at hread
      · cases hread
        exact id
      · exact not_isStackFault_readColumn hread
    · cases hread
    · cases hread
      exact id
  · cases hread
    exact id

theorem not_isStackFault_arithmetic {operation : Arithmetic} {left right : Value} {error : Error}
    (harithmetic : left.arithmetic operation right = .error error) : ¬ error.IsStackFault := by
  unfold Value.arithmetic at harithmetic
  split at harithmetic
  · cases harithmetic
    exact id
  · split at harithmetic
    · split at harithmetic <;> cases harithmetic
      exact id
    · cases harithmetic
    · cases harithmetic
    · cases harithmetic
    · split at harithmetic <;> cases harithmetic
      exact id

theorem not_isStackFault_negate {value : Value} {error : Error}
    (hnegate : value.negate = .error error) : ¬ error.IsStackFault := by
  unfold Value.negate at hnegate
  split at hnegate
  · split at hnegate <;> cases hnegate
    exact id
  · cases hnegate
  · cases hnegate
  · cases hnegate
    exact id

theorem not_isStackFault_apply [Regexp.Matcher] {operation : Binary} {left right : Value}
    {error : Error}
    (happly : operation.apply left right = .error error) : ¬ error.IsStackFault := by
  cases operation with
  | regexp =>
      simp only [Binary.apply, Value.matchesPattern] at happly
      split at happly
      · split at happly <;> cases happly
        exact id
      · cases happly
  | plus =>
      simp only [Binary.apply, Value.add] at happly
      split at happly
      · cases happly
      · exact not_isStackFault_arithmetic happly
  | minus | times | divide | modulo => exact not_isStackFault_arithmetic happly
  | contains | startsWith | endsWith | equal | notEqual | less | greater | lessEqual
    | greaterEqual => cases happly

theorem State.mapTop_error {rule : Value → Except Error Value} {kept : Nat} {error : Error}
    (hdepth : state.stack.length = kept + 1) (hmap : state.mapTop rule = .error error) :
    ∃ value, rule value = .error error := by
  unfold State.mapTop at hmap
  split at hmap
  · rename_i value below _
    exact ⟨value, eq_error_of_map_eq_error hmap⟩
  · rename_i hstack
    simp [hstack] at hdepth

theorem State.two_on_top {kept : Nat} (hdepth : state.stack.length = kept + 2) :
    ∃ right left below, state.stack = right :: left :: below := by
  cases hstack : state.stack with
  | nil => simp [hstack] at hdepth
  | cons right later =>
      cases later with
      | nil => simp [hstack] at hdepth
      | cons left below => exact ⟨right, left, below, rfl⟩

theorem State.mapTopTwo_error {rule : Value → Value → Except Error Value} {kept : Nat}
    {error : Error} (hdepth : state.stack.length = kept + 2)
    (hmap : state.mapTopTwo rule = .error error) :
    ∃ left right, rule left right = .error error := by
  unfold State.mapTopTwo at hmap
  split at hmap
  · rename_i right left below _
    exact ⟨left, right, eq_error_of_map_eq_error hmap⟩
  · rename_i hshort
    obtain ⟨right, left, below, hstack⟩ := State.two_on_top hdepth
    exact absurd hstack (hshort right left below)

theorem variable_ne_error {vars : Variables} {position : Nat} (hvars : env.vars = some vars)
    (hposition : position < vars.size) (error : Error) : env.variable position ≠ .error error := by
  have hget : vars.get? position = some vars.entries[position] := getElem?_pos ..
  simp [Environment.variable, hvars, Variables.value?, hget]

variable [Regexp.Matcher]

/-- A well-formed step with enough values only fails for want of something else, or because its
function answers such a failure itself. -/
theorem step_fits {vars : Variables} {kept : Nat} {error : Error} (hvars : env.vars = some vars)
    (hop : op.WellFormed vars.size) (hdepth : state.stack.length = kept + op.taken)
    (hstep : step env state op = .error error) (hfault : error.IsStackFault) :
    ∃ function count, op = .call function count ∧ count ≤ state.stack.length ∧
      function.evaluate (state.stack.take count).reverse = .error error := by
  -- Every step checks for its operands, which the depth promises; only a call asks a function.
  cases op with
  | load value => cases hstep
  | loadVariable position =>
      simp only [step] at hstep
      have hvalue := eq_error_of_map_eq_error hstep
      exact absurd hvalue (variable_ne_error hvars hop error)
  | loadVariableColumn position column =>
      simp only [step] at hstep
      split at hstep
      · rename_i fault hvalue
        exact absurd hvalue (variable_ne_error hvars hop fault)
      · exact absurd hfault (State.not_isStackFault_readColumn hstep)
  | getColumn column =>
      simp only [step] at hstep
      split at hstep
      · exact absurd hfault (State.not_isStackFault_readColumn hstep)
      · rename_i hstack
        simp [hstack, Op.taken] at hdepth
  | getValue =>
      simp only [step] at hstep
      split at hstep
      · exact absurd hfault (State.not_isStackFault_readNamed hstep)
      · rename_i hshort
        obtain ⟨name, record, below, hstack⟩ := State.two_on_top hdepth
        exact absurd hstack (hshort name record below)
  | pop =>
      simp only [step] at hstep
      split at hstep
      · cases hstep
      · rename_i hstack
        simp [hstack, Op.taken] at hdepth
  | call function count =>
      have henough : count ≤ state.stack.length := hdepth ▸ Nat.le_add_left ..
      simp only [step, if_neg (Nat.not_lt.mpr henough)] at hstep
      exact ⟨function, count, rfl, henough, eq_error_of_map_eq_error hstep⟩
  | connect connective count =>
      have henough : count ≤ state.stack.length := hdepth ▸ Nat.le_add_left ..
      have hpositive : count ≠ 0 := hop
      have hready : ¬ (count = 0 ∨ state.stack.length < count) := by omega
      simp only [step, if_neg hready] at hstep
      cases hstep
  | not =>
      obtain ⟨value, hrule⟩ := State.mapTop_error hdepth hstep
      cases hrule
  | containsNeedle needle =>
      obtain ⟨value, hrule⟩ := State.mapTop_error hdepth hstep
      cases hrule
  | matchesRegexp regexp =>
      obtain ⟨value, hrule⟩ := State.mapTop_error hdepth hstep
      cases hrule
  | negate =>
      obtain ⟨value, hrule⟩ := State.mapTop_error hdepth hstep
      exact absurd hfault (not_isStackFault_negate hrule)
  | binary operation =>
      obtain ⟨left, right, hrule⟩ := State.mapTopTwo_error hdepth hstep
      exact absurd hfault (not_isStackFault_apply hrule)

/-- A run follows the depths that are known of its steps. -/
theorem steps_lifts {limit depth last : Nat} (h : Lifts limit depth ops last)
    (hdepth : state.stack.length = depth) (hsteps : steps env state ops = .ok next) :
    next.stack.length = last := by
  induction h generalizing state with
  | nil =>
      cases hsteps
      exact hdepth
  | cons _ _ ih =>
      simp only [steps] at hsteps
      split at hsteps
      · cases hsteps
      · rename_i between hstep
        have hlength := step_length hstep
        exact ih (by omega) hsteps

end Machine

end RecordQuery

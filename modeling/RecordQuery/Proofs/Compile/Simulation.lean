import Mathlib.Data.List.Forall2
import RecordQuery.Proofs.Compile.Inversion
import RecordQuery.Proofs.Compile.Tree
import RecordQuery.Proofs.Program.Fusion

/-!
# Compiled expressions compute their trees

Reading operations into a tree and compiling them keep parallel stacks: of items and of pieces.
`Represents` ties an item to its piece.  The piece of a tree computes the tree's evaluation from
every state, and what the compiler knows of its slot is what is known of the tree.

The invariant goes through because a constant piece is the single step that pushes its value.  So
the evaluation of a constant tree answers that value without reading anything, and whatever the
compiler computes ahead is what the evaluation computes.
-/

namespace RecordQuery.Compile

variable {scope : Scope} {index : Nat}

/-! ## Trees and their pieces -/

variable [Regexp.Matcher]

/-- The piece leaves the value of a tree, and its slot knows of it what is known. -/
structure Stands (scope : Scope) (tree : Tree) (piece : Piece) : Prop where
  /-- The steps compute the evaluation of the tree. -/
  computes : ∀ env, Machine.Computes env piece.code (tree.eval scope env)
  /-- The slot has the domain of the tree. -/
  domain : piece.slot.domain = (tree.static scope).domain
  /-- The slot is the constant that the tree is. -/
  constant : piece.slot.constant = (tree.static scope).constant
  /-- A constant is a single step. -/
  single : ∀ value, piece.slot.constant = some value → piece.code = [.load value]

/-- The piece is what the compiler made of an item. -/
inductive Represents (scope : Scope) : Item → Piece → Prop
  | tree {tree : Tree} {piece : Piece} :
      piece.slot.content = .value → Stands scope tree piece → Represents scope (.tree tree) piece
  | object {object : ObjectRef} {start : Nat} :
      Represents scope (.ofObject object) (.ofObject scope start object)

/-- A constant tree evaluates to its constant and reads nothing. -/
theorem Stands.eval_eq {tree : Tree} {piece : Piece} (h : Stands scope tree piece) {value : Value}
    (hconstant : piece.slot.constant = some value) (env : Environment) :
    tree.eval scope env = .pure value := by
  funext text
  -- The piece is one step that pushes the value, and its run is the evaluation.
  have hrun := h.computes env ⟨[], text⟩
  rw [h.single value hconstant] at hrun
  cases heval : tree.eval scope env text with
  | error stop => simp [heval, Machine.steps, Machine.step, Except.map] at hrun
  | ok answer =>
      simp only [heval, Machine.steps, Machine.step, Machine.State.push, Machine.State.put,
        Except.map, Except.ok.injEq, Machine.State.mk.injEq, List.cons.injEq, and_true] at hrun
      obtain ⟨answered, later⟩ := answer
      obtain ⟨rfl, rfl⟩ := hrun
      rfl

theorem Stands.constant_cases {tree : Tree} {piece : Piece} (h : Stands scope tree piece) :
    (piece.slot.isConstant = true ∧ ∃ value, (tree.static scope).constant = some value ∧
        ∀ env, tree.eval scope env = .pure value) ∨
      (piece.slot.isConstant = false ∧ (tree.static scope).constant = none) := by
  rw [← h.constant]
  unfold Slot.isConstant
  cases hvalue : piece.slot.constant with
  | none => exact Or.inr ⟨rfl, rfl⟩
  | some value => exact Or.inl ⟨rfl, value, rfl, h.eval_eq hvalue⟩

/-- An item whose piece stands for a value is a tree. -/
theorem Represents.stands {item : Item} {piece : Piece} (h : Represents scope item piece)
    (hvalue : piece.slot.IsValue) : ∃ tree, item.tree? = some tree ∧ Stands scope tree piece := by
  cases h with
  | tree _ hstands => exact ⟨_, rfl, hstands⟩
  | @object object start =>
      cases object with
      | table t => exact absurd hvalue id
      | function f => exact absurd hvalue id
      | column c =>
          refine ⟨.column c, rfl, ?_⟩
          simp only [Piece.ofObject] at hvalue ⊢
          split
          · refine ⟨fun env => ?_, rfl, rfl, fun value hconstant => by cases hconstant⟩
            exact (Machine.computes_loadVariable 0).getColumn c
          · rename_i hfits
            rw [if_neg hfits] at hvalue
            exact absurd hvalue id

theorem stands_all {items : List Item} {pieces : List Piece}
    (h : List.Forall₂ (Represents scope) items pieces)
    (hvalues : ∀ piece ∈ pieces, piece.slot.IsValue) :
    ∃ trees, items.mapM Item.tree? = some trees ∧ List.Forall₂ (Stands scope) trees pieces := by
  induction h with
  | nil => exact ⟨[], rfl, .nil⟩
  | cons hhead _ ih =>
      obtain ⟨tree, htree, hstands⟩ := hhead.stands (hvalues _ (List.mem_cons_self ..))
      obtain ⟨trees, htrees, hlater⟩ :=
        ih fun piece hmem => hvalues piece (List.mem_cons_of_mem _ hmem)
      exact ⟨tree :: trees, by simp [List.mapM_cons, htree, htrees], .cons hstands hlater⟩

theorem computesAll_of_stands {trees : List Tree} {pieces : List Piece}
    (h : List.Forall₂ (Stands scope) trees pieces) (env : Environment) :
    Machine.ComputesAll env pieces.length (pieces.flatMap (·.code)) (evalAll scope env trees) := by
  induction h with
  | nil => exact Machine.computesAll_nil
  | cons hhead _ ih => exact (hhead.computes env).cons ih

/-- Operands that are all constants have known values, which they evaluate to. -/
theorem staticConstants_cases {trees : List Tree} {pieces : List Piece}
    (h : List.Forall₂ (Stands scope) trees pieces) :
    (pieces.all (·.slot.isConstant) = true ∧
        ∃ values, staticConstants scope trees = some values ∧
          ∀ env, evalAll scope env trees = .pure values) ∨
      (pieces.all (·.slot.isConstant) = false ∧ staticConstants scope trees = none) := by
  induction h with
  | nil => exact Or.inl ⟨rfl, [], rfl, fun _ => rfl⟩
  | cons hhead _ ih =>
      rw [List.all_cons]
      rcases hhead.constant_cases with ⟨hconstant, value, hvalue, heval⟩ | ⟨hconstant, hvalue⟩
      · rcases ih with ⟨hall, values, hvalues, hevals⟩ | ⟨hall, hvalues⟩
        · refine Or.inl ⟨by rw [hconstant, hall]; rfl, value :: values, ?_, fun env => ?_⟩
          · simp [staticConstants, hvalue, hvalues]
          · simp [evalAll, heval, hevals, Evaluation.map]
        · refine Or.inr ⟨by rw [hconstant, hall]; rfl, ?_⟩
          simp [staticConstants, hvalue, hvalues]
      · refine Or.inr ⟨by rw [hconstant]; rfl, ?_⟩
        simp [staticConstants, hvalue]

/-! ## Results -/

/-- A result computed ahead is what the evaluation computes: a foldable tree evaluates to a result
that depends on nothing. -/
theorem stands_settled {tree : Tree} {slot : Slot} {code : List Op} {foldable : Bool}
    {known : Option Value} (hcode : ∀ env, Machine.Computes env code (tree.eval scope env))
    (hstatic : tree.static scope = .ofResult slot.domain known) (hslot : slot.constant = none)
    (hfold : (foldable = true ∧ ∃ result, known = result.toOption ∧
        ∀ env, tree.eval scope env = .ofExcept result) ∨ (foldable = false ∧ known = none)) :
    Stands scope tree (.settled scope.source slot code foldable) := by
  have hunfolded (hknown : known = none) : Stands scope tree ⟨slot, code⟩ := by
    subst hknown
    refine ⟨hcode, by rw [hstatic]; rfl, by rw [hstatic]; exact hslot, fun value hvalue => ?_⟩
    simp [hslot] at hvalue
  rcases hfold with ⟨rfl, result, hknown, heval⟩ | ⟨rfl, hknown⟩
  · have hvalue : Draft.foldedValue? scope.source code = result.toOption := by
      rw [Draft.foldedValue?, (hcode ⟨scope.source, none⟩).runOps, heval]
      cases result <;> rfl
    cases result with
    | error error =>
        -- A failure is left to the run: the steps stay and nothing is known of the result.
        simp only [Piece.settled, hvalue]
        exact hunfolded hknown
    | ok value =>
        simp only [Piece.settled, hvalue, Except.toOption, if_true]
        subst hknown
        refine ⟨fun env => ?_, by rw [hstatic]; rfl, by rw [hstatic]; rfl, ?_⟩
        · rw [heval env]
          exact Machine.computes_load value
        · intro other hother
          cases hother
          rfl
  · exact hunfolded hknown

@[simp] theorem Piece.content_settled {source : Source} {slot : Slot} {code : List Op}
    {foldable : Bool} : (Piece.settled source slot code foldable).slot.content = slot.content := by
  unfold settled
  split <;> rfl

/-! ## Compared operands -/

omit [Regexp.Matcher] in
/-- A piece beside records changes just when its tree does. -/
theorem Piece.beside_eq (domain : Domain) (piece : Piece) :
    piece.beside domain =
      match Static.referenceBeside? domain ⟨piece.slot.domain, piece.slot.constant⟩ with
      | some record =>
        ⟨{ piece.slot with constant := some record, domain := domain },
          piece.code.set 0 (.load record)⟩
      | none => piece := by
  unfold beside Static.referenceBeside?
  cases domain with
  | any => rfl
  | scalar type => rfl
  | table table =>
      cases hconstant : piece.slot.constant with
      | none => rfl
      | some value =>
          cases value with
          | integer n =>
              simp only
              cases (Value.integer n).coerce (.table table) <;> rfl
          | null _ | boolean _ | float _ | text _ | record _ => rfl

/-- The piece leaves the value of a tree as an operation takes it, and its slot knows of that what
is known. -/
structure StandsAs (scope : Scope) (change : Value → Value) (known : Static) (tree : Tree)
    (piece : Piece) : Prop where
  /-- The steps compute the tree and the change of its value. -/
  computes : ∀ env, Machine.Computes env piece.code ((tree.eval scope env).map change)
  /-- The slot has the domain that is known. -/
  domain : piece.slot.domain = known.domain
  /-- The slot is the constant that is known. -/
  constant : piece.slot.constant = known.constant
  /-- A constant is what the evaluation answers. -/
  eval_eq : ∀ value, known.constant = some value → ∀ env,
    (tree.eval scope env).map change = .pure value

theorem Stands.standsAs {tree : Tree} {piece : Piece} (h : Stands scope tree piece) :
    StandsAs scope (fun value => value) (tree.static scope) tree piece := by
  refine ⟨fun env => ?_, h.domain, h.constant, fun value hvalue env => ?_⟩
  · rw [Evaluation.map_id]
    exact h.computes env
  · rw [Evaluation.map_id]
    exact h.eval_eq (h.constant.trans hvalue) env

/-- Beside records a constant integer is taken as the reference it stands for. -/
theorem Stands.beside {tree : Tree} {piece : Piece} (h : Stands scope tree piece)
    (other : Domain) :
    StandsAs scope (fun value => ((tree.static scope).referenceBeside? other).getD value)
      ((tree.static scope).beside other) tree (piece.beside other) := by
  have hstatic : (⟨piece.slot.domain, piece.slot.constant⟩ : Static) = tree.static scope := by
    rw [h.domain, h.constant]
  rw [Piece.beside_eq, hstatic]
  cases hreference : (tree.static scope).referenceBeside? other with
  | none =>
      have hbeside : (tree.static scope).beside other = tree.static scope := by
        simp [Static.beside, hreference]
      rw [hbeside]
      exact h.standsAs
  | some record =>
      have hbeside : (tree.static scope).beside other = ⟨other, some record⟩ := by
        simp [Static.beside, hreference]
      -- Only a constant stands for a reference, and its single step is the one that changes.
      obtain ⟨value, hvalue⟩ : ∃ value, piece.slot.constant = some value := by
        rw [h.constant]
        unfold Static.referenceBeside? at hreference
        split at hreference
        · exact ⟨_, by assumption⟩
        · cases hreference
      have hmap (env : Environment) :
          ((tree.eval scope env).map fun value => (some record).getD value) = .pure record := by
        simp [h.eval_eq hvalue, Evaluation.map]
      rw [hbeside]
      refine ⟨fun env => ?_, rfl, rfl, fun other hother env => ?_⟩
      · rw [hmap, h.single value hvalue]
        exact Machine.computes_load record
      · cases hother
        exact hmap env

/-- The operands of an operation as it takes them. -/
theorem standsAs_compared {l r : Tree} {left right : Piece} (hleft : Stands scope l left)
    (hright : Stands scope r right) (operation : Binary) :
    ∃ first second : Value → Value,
      (∀ x y, Static.comparedValues operation (l.static scope) (r.static scope) x y =
        (first x, second y)) ∧
      StandsAs scope first (Static.compared operation (l.static scope) (r.static scope)).1 l
        (comparedPieces operation.operator left right).1 ∧
      StandsAs scope second (Static.compared operation (l.static scope) (r.static scope)).2 r
        (comparedPieces operation.operator left right).2 := by
  unfold Static.comparedValues Static.compared comparedPieces
  split
  · refine ⟨_, _, fun _ _ => rfl, ?_, ?_⟩
    · have hdomain := (hright.beside left.slot.domain).domain
      rw [hleft.domain] at hdomain ⊢
      simp only [hdomain]
      exact hleft.beside _
    · rw [hleft.domain]
      exact hright.beside _
  · exact ⟨_, _, fun _ _ => rfl, hleft.standsAs, hright.standsAs⟩

/-! ## Operators -/

theorem Stands.not {operand : Tree} {piece : Piece} (h : Stands scope operand piece) :
    Stands scope (.not operand)
      (.settled scope.source (.ofDomain (.scalar .boolean) piece.slot.start)
        (piece.code ++ [.not]) piece.slot.isConstant) := by
  have hcode (env : Environment) : Machine.Computes env (piece.code ++ [.not])
      ((operand.eval scope env).bind fun value => .ofExcept (.ok (.boolean !value.isTruthy))) :=
    (h.computes env).mapTop fun _ => rfl
  refine stands_settled hcode rfl rfl ?_
  rcases h.constant_cases with ⟨hconstant, value, hvalue, heval⟩ | ⟨hconstant, hvalue⟩
  · refine Or.inl ⟨hconstant, .ok (.boolean !value.isTruthy), by rw [hvalue]; rfl, fun env => ?_⟩
    simp [Tree.eval, heval]
  · exact Or.inr ⟨hconstant, by rw [hvalue]; rfl⟩

theorem Stands.negate {operand : Tree} {piece : Piece} (h : Stands scope operand piece) :
    Stands scope (.negate operand)
      (.settled scope.source (.ofDomain piece.slot.domain piece.slot.start)
        (piece.code ++ [.negate]) piece.slot.isConstant) := by
  refine stands_settled (fun env => (h.computes env).mapTop fun _ => rfl)
    (by rw [h.domain]; rfl) rfl ?_
  rcases h.constant_cases with ⟨hconstant, value, hvalue, heval⟩ | ⟨hconstant, hvalue⟩
  · refine Or.inl ⟨hconstant, value.negate, by rw [hvalue]; rfl, fun env => ?_⟩
    simp [Tree.eval, heval]
  · exact Or.inr ⟨hconstant, by rw [hvalue]; rfl⟩

theorem stands_call {trees : List Tree} {pieces : List Piece}
    (h : List.Forall₂ (Stands scope) trees pieces) (function : ScalarFunction) (start : Nat) :
    Stands scope (.call function trees)
      (.settled scope.source (.ofDomain function.range start)
        (pieces.flatMap (·.code) ++ [.call function pieces.length])
        (pieces.all (·.slot.isConstant) && function.isDeterministic)) := by
  refine stands_settled (fun env => (computesAll_of_stands h env).call function) rfl rfl ?_
  cases function.isDeterministic with
  | false => exact Or.inr ⟨Bool.and_false _, rfl⟩
  | true =>
      rcases staticConstants_cases h with ⟨hall, values, hvalues, hevals⟩ | ⟨hall, hvalues⟩
      · refine Or.inl ⟨by rw [hall]; rfl, function.evaluate values, ?_, fun env => ?_⟩
        · simp [hvalues]
        · simp [Tree.eval, hevals]
      · refine Or.inr ⟨by rw [hall]; rfl, ?_⟩
        simp [hvalues]

theorem stands_connect {trees : List Tree} {pieces : List Piece}
    (h : List.Forall₂ (Stands scope) trees pieces) (hnonempty : pieces ≠ [])
    (connective : Connective) (start : Nat) :
    Stands scope (.connect connective trees)
      (.settled scope.source (connectedSlot connective start (pieces.map (·.slot)))
        (pieces.flatMap (·.code) ++ [.connect connective pieces.length])
        (pieces.all (·.slot.isConstant))) := by
  have hpositive : pieces.length ≠ 0 := fun hlength =>
    hnonempty (List.length_eq_zero_iff.mp hlength)
  refine stands_settled
    (fun env => (computesAll_of_stands h env).connect hpositive connective) rfl rfl ?_
  rcases staticConstants_cases h with ⟨hall, values, hvalues, hevals⟩ | ⟨hall, hvalues⟩
  · refine Or.inl ⟨hall, .ok (.boolean (connective.holds values)), by rw [hvalues]; rfl,
      fun env => ?_⟩
    simp [Tree.eval, hevals]
  · exact Or.inr ⟨hall, by rw [hvalues]; rfl⟩

theorem stands_binary {l r : Tree} {left right : Piece} (hleft : Stands scope l left)
    (hright : Stands scope r right) (operation : Binary) :
    Stands scope (.binary operation l r)
      (.settled scope.source
        (binarySlot operation.operator (comparedPieces operation.operator left right).1.slot
          (comparedPieces operation.operator left right).2.slot)
        ((comparedPieces operation.operator left right).1.code ++
          ((comparedPieces operation.operator left right).2.code ++ [.binary operation]))
        ((comparedPieces operation.operator left right).1.slot.isConstant &&
          (comparedPieces operation.operator left right).2.slot.isConstant)) := by
  -- Both sides take the operands through the same functions before the operation.
  obtain ⟨first, second, hvalues, hfirst, hsecond⟩ := standsAs_compared hleft hright operation
  have heval (env : Environment) : (Tree.binary operation l r).eval scope env =
      ((l.eval scope env).map first).bind fun x =>
        ((r.eval scope env).map second).bind fun y => .ofExcept (operation.apply x y) := by
    simp only [Tree.eval, hvalues, Evaluation.map_bind]
  have hstatic : (Tree.binary operation l r).static scope =
      .ofResult (binarySlot operation.operator
          (comparedPieces operation.operator left right).1.slot
          (comparedPieces operation.operator left right).2.slot).domain
        ((Static.compared operation (l.static scope) (r.static scope)).1.constant.bind fun x =>
          (Static.compared operation (l.static scope) (r.static scope)).2.constant.bind fun y =>
            (operation.apply x y).toOption) := by
    simp only [Tree.static, binarySlot, Slot.ofDomain, hfirst.domain, hsecond.domain]
    rfl
  refine stands_settled (fun env => ?_) hstatic rfl ?_
  · rw [heval]
    exact (hfirst.computes env).binary (hsecond.computes env) operation
  · -- Only if both are constants is there anything to compute ahead.
    simp only [Slot.isConstant, hfirst.constant, hsecond.constant]
    cases hx : (Static.compared operation (l.static scope) (r.static scope)).1.constant with
    | none => exact Or.inr ⟨rfl, rfl⟩
    | some x =>
        cases hy : (Static.compared operation (l.static scope) (r.static scope)).2.constant with
        | none => exact Or.inr ⟨rfl, rfl⟩
        | some y =>
            refine Or.inl ⟨rfl, operation.apply x y, rfl, fun env => ?_⟩
            rw [heval, hfirst.eval_eq x hx, hsecond.eval_eq y hy]
            rfl

/-- A pattern that is part of its step matches like the constant it was. -/
theorem stands_pattern {l r : Tree} {left right : Piece} (hleft : Stands scope l left)
    (hright : Stands scope r right) {source : String} {regexp : Regexp}
    (hconstant : right.slot.constant = some (.text source))
    (hregexp : Regexp.ofText? source = some regexp) (hopen : left.slot.isConstant = false) :
    Stands scope (.binary .regexp l r)
      ⟨binarySlot .regexp left.slot right.slot, left.code ++ [.matchesRegexp regexp]⟩ := by
  have hmatch (subject : Value) : Binary.regexp.apply subject (.text source) =
      .ok (subject.matchesRegexp regexp) := by
    simp only [Binary.apply, Value.matchesPattern, Value.matchesRegexp, Value.text?]
    cases subject.searchText? with
    | none => rfl
    | some s => simp only [hregexp]
  have heval (env : Environment) : (Tree.binary .regexp l r).eval scope env =
      (l.eval scope env).bind fun x => .ofExcept (.ok (x.matchesRegexp regexp)) := by
    change ((l.eval scope env).bind fun x => (r.eval scope env).bind fun y =>
      .ofExcept (Binary.regexp.apply x y)) = _
    simp only [hright.eval_eq hconstant, Evaluation.pure_bind, hmatch]
  -- A constant subject would have been matched already, so nothing is known of the result.
  have hnone : (l.static scope).constant = none := by
    rw [← hleft.constant]
    simpa [Slot.isConstant] using hopen
  have hstatic : (Tree.binary .regexp l r).static scope = ⟨.scalar .boolean, none⟩ := by
    change Static.ofResult (.scalar .boolean) ((l.static scope).constant.bind _) = _
    rw [hnone]
    rfl
  refine ⟨fun env => ?_, by rw [hstatic]; rfl, by rw [hstatic]; rfl, ?_⟩
  · rw [heval]
    exact (hleft.computes env).mapTop fun _ => rfl
  · intro value hvalue
    cases hvalue

end RecordQuery.Compile

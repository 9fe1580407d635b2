import RecordQuery.Proofs.Compile.Tree

/-!
# Operations mean the same in every context

What operations denote does not depend on the items below theirs (`foldlM_afterOperation?_append`).
Nor does it matter for what a tree answers which text was last read from a column before
(`Tree.steady_eval`): an evaluation only passes that text on, for the fragments that are shown after
a run.  So the answer of operands one after the other is made of the answers that they give alone
(`Evaluation.answer_bind`).
-/

namespace RecordQuery

open Compile (Scope)

/-! ## Items on top of others -/

namespace Item

variable {source : Source} {items after : List Item}

/-- The items after an operator: a push leaves them, any other operator takes its operands off. -/
def afterOperator? (items : List Item) (operator : Operator) (arity : Nat) : Option (List Item) :=
  if operator = .push then some items
  else if items.length < Compile.neededSlots operator arity then none
  else
    (Tree.combine? operator (items.take (Compile.neededSlots operator arity)).reverse).map
      fun tree => .tree tree :: items.drop (Compile.neededSlots operator arity)

theorem afterOperation?_eq (items : List Item) (operation : Operation) :
    afterOperation? source items operation =
      match operation.operand with
      | none => afterOperator? items operation.operator operation.arity.toNat
      | some operand =>
        (ofOperand? source operand).bind fun item =>
          afterOperator? (item :: items) operation.operator operation.arity.toNat := by
  -- Both branches of the source end in the same steps on the items.
  have hafter (items : List Item) : (do
      if operation.operator = .push then return items
      let needed := Compile.neededSlots operation.operator operation.arity.toNat
      if items.length < needed then none
      let tree ← Tree.combine? operation.operator (items.take needed).reverse
      return (Item.tree tree :: items.drop needed : List Item)) =
        afterOperator? items operation.operator operation.arity.toNat := by
    simp only [afterOperator?]
    split
    · rfl
    · split
      · rfl
      · cases Tree.combine? operation.operator _ <;> rfl
  cases hoperand : operation.operand with
  | none =>
      simp only [afterOperation?, hoperand]
      exact hafter items
  | some operand =>
      simp only [afterOperation?, hoperand]
      cases ofOperand? source operand with
      | none => rfl
      | some item => exact hafter (item :: items)

theorem afterOperator?_append {operator : Operator} {arity : Nat} (below : List Item)
    (h : afterOperator? items operator arity = some after) :
    afterOperator? (items ++ below) operator arity = some (after ++ below) := by
  unfold afterOperator? at h ⊢
  split at h
  · rename_i hpush
    cases h
    exact if_pos hpush
  · rename_i hpush
    split at h
    · cases h
    · rename_i henough
      have hmore : ¬ (items ++ below).length < Compile.neededSlots operator arity := by
        rw [List.length_append]
        omega
      obtain ⟨tree, htree, rfl⟩ := Option.map_eq_some_iff.mp h
      have hneeded : Compile.neededSlots operator arity ≤ items.length := Nat.not_lt.mp henough
      rw [if_neg hpush, if_neg hmore, List.take_append_of_le_length hneeded,
        List.drop_append_of_le_length hneeded, htree]
      rfl

theorem afterOperation?_append {operation : Operation} (below : List Item)
    (h : afterOperation? source items operation = some after) :
    afterOperation? source (items ++ below) operation = some (after ++ below) := by
  rw [afterOperation?_eq] at h ⊢
  split at h
  · exact afterOperator?_append below h
  · rename_i operand hoperand
    obtain ⟨item, hitem, hafter⟩ := Option.bind_eq_some_iff.mp h
    rw [hitem]
    exact afterOperator?_append below hafter

end Item

theorem foldlM_afterOperation?_append {source : Source} {operations : List Operation}
    {items after : List Item} (below : List Item)
    (h : operations.foldlM (Item.afterOperation? source) items = some after) :
    operations.foldlM (Item.afterOperation? source) (items ++ below) = some (after ++ below) := by
  induction operations generalizing items with
  | nil =>
      cases h
      rfl
  | cons operation later ih =>
      rw [List.foldlM_cons] at h ⊢
      obtain ⟨between, hbetween, hlater⟩ := Option.bind_eq_some_iff.mp h
      rw [Item.afterOperation?_append below hbetween]
      exact ih hlater

/-! ## Answers after other texts -/

namespace Evaluation

variable {α β : Type}

/-- What an evaluation answers after a text was read. -/
def answerAfter (evaluation : Evaluation α) (text : Option String) : Except Error α :=
  match evaluation text with
  | .ok (value, _) => .ok value
  | .error stop => .error stop.error

/-- What an evaluation answers that starts a run. -/
def answer (evaluation : Evaluation α) : Except Error α := evaluation.answerAfter none

/-- Whether an evaluation answers the same whatever text was read before. -/
def Steady (evaluation : Evaluation α) : Prop :=
  ∀ text, evaluation.answerAfter text = evaluation.answer

theorem result_outcome (evaluation : Evaluation Value) :
    evaluation.outcome.result = evaluation.answer := by
  unfold outcome answer answerAfter
  cases evaluation none <;> rfl

theorem steady_pure (value : α) : (pure value).Steady := fun _ => rfl

theorem steady_ofExcept (computed : Except Error α) : (ofExcept computed).Steady := by
  cases computed <;> exact fun _ => rfl

@[simp] theorem answer_ofExcept (computed : Except Error α) :
    (ofExcept computed).answer = computed := by
  cases computed <;> rfl

section Bind

variable {first : Evaluation α} {next : α → Evaluation β}

theorem answerAfter_bind (hnext : ∀ value, (next value).Steady) (text : Option String) :
    (first.bind next).answerAfter text =
      (first.answerAfter text).bind fun value => (next value).answer := by
  unfold answerAfter bind
  cases first text with
  | error stop => rfl
  | ok answered => exact hnext answered.1 answered.2

theorem answer_bind (hnext : ∀ value, (next value).Steady) :
    (first.bind next).answer = first.answer.bind fun value => (next value).answer :=
  answerAfter_bind hnext none

theorem Steady.bind (hfirst : first.Steady) (hnext : ∀ value, (next value).Steady) :
    (first.bind next).Steady := by
  intro text
  rw [answerAfter_bind hnext, answer_bind hnext, hfirst text]

theorem Steady.map (hfirst : first.Steady) (change : α → β) : (first.map change).Steady :=
  hfirst.bind fun _ => steady_pure _

theorem answer_map (change : α → β) : (first.map change).answer = first.answer.map change := by
  rw [map, answer_bind fun _ => steady_pure _]
  cases first.answer <;> rfl

end Bind

theorem answerAfter_readColumn (source : Source) (record : Value) (column : ColumnRef)
    (text : Option String) :
    (readColumn source record column).answerAfter text =
      (Machine.readColumn source record column).map Prod.fst := by
  unfold answerAfter readColumn
  cases Machine.readColumn source record column with
  | error error => rfl
  | ok answered =>
      obtain ⟨value, stored⟩ := answered
      cases stored <;> cases value <;> rfl

theorem steady_readColumn (source : Source) (record : Value) (column : ColumnRef) :
    (readColumn source record column).Steady := by
  intro text
  rw [answerAfter_readColumn, answer, answerAfter_readColumn]

theorem answer_readColumn (source : Source) (record : Value) (column : ColumnRef) :
    (readColumn source record column).answer =
      (Machine.readColumn source record column).map Prod.fst :=
  answerAfter_readColumn source record column none

theorem steady_readNamed (source : Source) (record name : Value) :
    (readNamed source record name).Steady := by
  cases name with
  | text columnName =>
      cases record with
      | record r =>
          simp only [readNamed]
          cases source.column r.table columnName with
          | error status => exact steady_ofExcept _
          | ok column => exact steady_readColumn source (.record r) column
      | null type => exact steady_pure _
      | _ => exact steady_ofExcept (.error _)
  | _ => exact steady_ofExcept (.error _)

end Evaluation

open Evaluation in
mutual

/-- What a tree answers does not depend on what was read before. -/
theorem Tree.steady_eval [Regexp.Matcher] (scope : Scope) (env : Environment) :
    (tree : Tree) → (tree.eval scope env).Steady
  | .constant _ => steady_pure _
  | .variableAt _ => steady_ofExcept _
  | .column _ => (steady_ofExcept _).bind fun _ => steady_readColumn _ _ _
  | .member record _ => (record.steady_eval scope env).bind fun _ => steady_readColumn _ _ _
  | .getValue record name => by
    simp only [Tree.eval]
    split
    · exact (record.steady_eval scope env).bind fun _ => steady_readColumn _ _ _
    · exact (record.steady_eval scope env).bind fun _ =>
        (name.steady_eval scope env).bind fun _ => steady_readNamed _ _ _
  | .call _ arguments => (steady_evalAll scope env arguments).bind fun _ => steady_ofExcept _
  | .connect _ operands => (steady_evalAll scope env operands).bind fun _ => steady_pure _
  | .not operand => (operand.steady_eval scope env).bind fun _ => steady_pure _
  | .negate operand => (operand.steady_eval scope env).bind fun _ => steady_ofExcept _
  | .binary _ left right =>
    (left.steady_eval scope env).bind fun _ =>
      (right.steady_eval scope env).bind fun _ => steady_ofExcept _

theorem steady_evalAll [Regexp.Matcher] (scope : Scope) (env : Environment) :
    (trees : List Tree) → (evalAll scope env trees).Steady
  | [] => steady_pure _
  | tree :: later =>
    (tree.steady_eval scope env).bind fun _ => (steady_evalAll scope env later).map _

end

end RecordQuery

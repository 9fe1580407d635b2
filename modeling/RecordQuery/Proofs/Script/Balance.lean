import RecordQuery.Proofs.Compile.SlotCount
import RecordQuery.Proofs.Script.Recognition

/-!
# Scripts stand for one value

The operations of an expression add one slot as long as its binary operators join two values
(`Expr.addsSlot`), and those that derive tokens have them from the table of operators only
(`Derives.fits`).
-/

namespace RecordQuery.Script

/-! ## Operations of expressions -/

mutual

/-- Whether all binary operators of an expression join two values. -/
def Expr.Fits : Expr → Prop
  | .literal _ | .column _ => True
  | .member record _ => record.Fits
  | .call _ arguments => AllFit arguments
  | .negate operand | .not operand => operand.Fits
  | .binary operator left right => operator.JoinsTwo ∧ left.Fits ∧ right.Fits

/-- Whether this holds of several expressions. -/
def AllFit : List Expr → Prop
  | [] => True
  | e :: later => e.Fits ∧ AllFit later

end

mutual

/-- The operations of an expression stand for one value. -/
theorem Expr.addsSlot : (e : Expr) → e.Fits → AddsSlots 1 e.operations
  | .literal value, _ => .pushValue value
  | .column name, _ => .readPath [name]
  | .member record name, h => (record.addsSlot h).readColumn name
  | .call function arguments, h => (addsSlots_operationsOfAll arguments h).call function
  | .negate operand, h => (operand.addsSlot h).unary (Or.inr rfl)
  | .not operand, h => (operand.addsSlot h).unary (Or.inl rfl)
  | .binary _ left right, ⟨hoperator, hleft, hright⟩ =>
    (left.addsSlot hleft).binary (right.addsSlot hright) hoperator

theorem addsSlots_operationsOfAll :
    (expressions : List Expr) → AllFit expressions →
      AddsSlots expressions.length (operationsOfAll expressions)
  | [], _ => .nil
  | e :: later, ⟨he, hlater⟩ => by
    have hall := (e.addsSlot he).append (addsSlots_operationsOfAll later hlater)
    rwa [Nat.add_comm] at hall

end

/-! ## Expressions that derive tokens -/

theorem binaryOperator?_joinsTwo {spelling : String} {level : Level} {operator : Operator}
    (h : binaryOperator? spelling = some (level, operator)) : operator.JoinsTwo := by
  have hall : ∀ entry ∈ binaryOperators, entry.2.2.JoinsTwo := by decide
  obtain ⟨before, after, htable, _⟩ := List.lookup_eq_some_iff.mp h
  exact hall (spelling, level, operator) (by simp [htable])

mutual

/-- An expression that derives tokens only has operators of the table. -/
theorem Derives.fits : {level : Level} → {e : Expr} → {tokens : List Token} →
    Derives level e tokens → e.Fits
  | _, _, _, .lift h => h.fits
  | _, _, _, .binary hjoins hleft _ hright =>
    ⟨binaryOperator?_joinsTwo (binaryOperator?_eq_some_iff.mpr hjoins), hleft.fits, hright.fits⟩
  | _, _, _, .negate _ hoperand => hoperand.fits
  | _, _, _, .not _ hoperand => hoperand.fits
  | _, _, _, .member hrecord _ _ => hrecord.fits
  | _, _, _, .literal _ => trivial
  | _, _, _, .column _ => trivial
  | _, _, _, .emptyCall _ _ _ => trivial
  | _, _, _, .call _ _ harguments _ => harguments.fits
  | _, _, _, .group _ hinner _ => hinner.fits

theorem DerivesAll.fits : {arguments : List Expr} → {tokens : List Token} →
    DerivesAll arguments tokens → AllFit arguments
  | _, _, .single h => ⟨h.fits, trivial⟩
  | _, _, .cons h _ hlater => ⟨h.fits, hlater.fits⟩

end

/-! ## Whole scripts -/

/-- The operations of a script that is read stand for one value. -/
theorem parse_addsSlot {record : Bool} {script : String} {e : Expr}
    (h : parse record script = .ok e) : AddsSlots 1 e.operations := by
  refine e.addsSlot ?_
  unfold parse ofTokens at h
  split at h
  · cases h
  · split at h
    · cases h
    · split at h
      · cases h
      · rename_i expr rest hread
        obtain ⟨_, _, hderives, _⟩ := (sound record _).lowest hread
        have hfits := hderives.fits
        split at h
        · cases h
          exact hfits
        · split at h <;> cases h
          exact hfits

end RecordQuery.Script

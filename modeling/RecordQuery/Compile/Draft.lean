import RecordQuery.Compile.Slot

/-!
# Drafts of programs

Compiling goes through the operations once and keeps a draft: the steps so far, and a slot for every
value that they leave on the stack.  The steps of a slot run from its start to the start of the slot
above it, so what a slot needs no longer can be cut off the end.
-/

namespace RecordQuery.Compile

/-- The steps so far and the slots of the values they leave. -/
structure Draft where
  /-- The steps. -/
  ops : Array Op
  /-- The slots, the top first. -/
  slots : List Slot

namespace Draft

/-- The draft before the first operation. -/
def start : Draft := ⟨#[], []⟩

/-- The draft with one more step. -/
def emit (draft : Draft) (op : Op) : Draft := { draft with ops := draft.ops.push op }

/-- The draft without the steps from a number on. -/
def truncate (draft : Draft) (start : Nat) : Draft :=
  { draft with ops := draft.ops.take start }

/-- The draft with one more slot. -/
def push (draft : Draft) (slot : Slot) : Draft := { draft with slots := slot :: draft.slots }

/-- The value of steps that read nothing but constants and columns of constants, if they do not
fail. -/
def foldedValue? [Regexp.Matcher] (source : Source) (ops : List Op) : Option Value :=
  (Machine.runOps ⟨source, none⟩ ops).result.toOption

/-- The draft with a slot for a result.  A foldable result is computed, and if that does not fail,
its steps give way to a constant. -/
def pushResult [Regexp.Matcher] (draft : Draft) (source : Source) (slot : Slot) (foldable : Bool) :
    Draft :=
  match (if foldable then foldedValue? source (draft.ops.toList.drop slot.start) else none) with
  | none => draft.push slot
  | some value =>
    let domain := if slot.domain = .any then .scalar value.dataType else slot.domain
    ((draft.truncate slot.start).emit (.load value)).push
      { slot with domain := domain, constant := some value }

end Draft

/-- The topmost slots, as many as asked for, in the order they were pushed, and the ones below. -/
def takeTop (slots : List Slot) : Nat → List Slot → Option (List Slot × List Slot)
  | 0, taken => some (taken, slots)
  | count + 1, taken =>
    match slots with
    | slot :: below => takeTop below count (slot :: taken)
    | [] => none

end RecordQuery.Compile

import RecordQuery.Proofs.Compile.StackSafety
import RecordQuery.Proofs.Compile.Undisturbed
import RecordQuery.Regexp.Standard

/-!
# Discarding a value does not skip its evaluation

`POP` cannot undo what its operand does: the steps of a value that is no constant stay, so that they
fail where they did, and only their answer is taken off the stack.  So operations that make one
value can be inserted anywhere with a `POP` behind them, and the run fails where evaluating them
fails, or else ends as before but for the text read last (`run_discarding`).

The steps that stay join those of the value below them, and the compiler may cut these off later or
compute them ahead.  Then evaluating what is discarded is skipped after all
(`run_skips_discarded`), so the theorem asks that no later operation does that.
-/

namespace RecordQuery.Compile

open Machine (Discards)

/-! ## What stays of a discarded value -/

section Residues

variable [Regexp.Matcher]

/-- What `POP` leaves of the steps of operations that make one value: all of them and a step of its
own, or those in front of the step that pushes a constant.  There is no answer if more than that
step is cut off. -/
def residue? (scope : Scope) (operations : List Operation) : Option (List Op) :=
  match Draft.start.addAll scope 0 operations with
  | .ok ⟨ops, [slot]⟩ =>
    if !slot.isConstant then some (ops.toList ++ [.pop])
    else if ops.size = slot.start + 1 then some (ops.toList.take slot.start)
    else none
  | _ => none

section Residue

variable {scope : Scope} {source : Source} {vars : Variables} {operations : List Operation}
  {compiled : Compiled} {residue : List Op}

/-- What stays of a discarded value discards it. -/
theorem discards_residue (h : compile source vars operations = .ok compiled)
    (hresidue : residue? ⟨source, vars⟩ operations = some residue) :
    Discards residue fun env => Machine.run env compiled.program := by
  obtain ⟨⟨ops, slots⟩, slot, hdraft, rfl, hvalue, rfl⟩ := exists_draft_of_compile h
  obtain ⟨⟨spare, pieces⟩, hsteps, hholds⟩ := Draft.Holds.start.addAll hdraft
  obtain ⟨piece, rfl, rfl⟩ := List.map_eq_singleton_iff.mp hholds.slots.symm
  obtain ⟨hspare, hpieces⟩ := hsteps.balanced .empty
  have hpiece := hpieces piece (List.mem_cons_self ..)
  have hops : ops.toList = spare ++ piece.code := hholds.ops_code
  simp only [Machine.run_ofOps, hops]
  simp only [residue?, hdraft] at hresidue
  split at hresidue
  · cases hresidue
    rw [hops]
    exact Machine.discards_value (hspare.append (hpiece.lifts_value hvalue))
  · rename_i hconstant
    split at hresidue
    · rename_i hsize
      cases hresidue
      obtain ⟨value, hvalue⟩ : ∃ value, piece.slot.constant = some value :=
        Option.ne_none_iff_exists'.mp (by simpa [Slot.isConstant] using hconstant)
      have hstart : piece.slot.start = spare.length := hholds.placed.1
      -- The constant is the single step behind the spare ones.
      have hcode : piece.code = [.load value] := by
        obtain ⟨rest, hrest⟩ := List.head?_eq_some_iff.mp (hpiece.known value hvalue)
        rw [← Array.length_toList, hops, hrest, List.length_append, hstart, List.length_cons]
          at hsize
        have hnone : rest = [] := List.eq_nil_of_length_eq_zero (by omega)
        rw [hrest, hnone]
      rw [hops, hstart, List.take_left, hcode]
      exact Machine.discards_constant hspare value
    · cases hresidue

end Residue

/-! ## Inserting a discarded value -/

section Inserting

variable {scope : Scope} {operations : List Operation} {residue : List Op}

/-- Every slot of a draft is below what is spliced in behind all its steps. -/
theorem Draft.Holds.below {draft : Draft} {layout : Layout} (h : draft.Holds layout [])
    (hresidue : ∃ aside, Discards residue aside) :
    ∀ slot ∈ draft.slots, slot.Below draft.ops.size residue := by
  intro slot hmem
  rw [h.slots] at hmem
  obtain ⟨piece, hpiece, rfl⟩ := List.mem_map.mp hmem
  have hsize : draft.ops.size = (Layout.codeOver layout.spare layout.pieces).length :=
    h.size_code
  have hend := h.placed.start_add_le piece hpiece
  refine ⟨hresidue, by omega, fun hconstant => ?_⟩
  obtain ⟨value, hvalue⟩ := Option.isSome_iff_exists.mp hconstant
  obtain ⟨rest, hcode⟩ := List.head?_eq_some_iff.mp (h.known piece hpiece value hvalue)
  rw [hcode, List.length_cons] at hend
  omega

/-- `POP` of a value keeps the steps that it is said to keep. -/
theorem Draft.discard_eq {ops : Array Op} {slot : Slot} (hvalue : slot.IsValue)
    (h : Draft.start.addAll scope 0 operations = .ok ⟨ops, [slot]⟩)
    (hresidue : residue? scope operations = some residue) :
    (⟨ops, []⟩ : Draft).discard slot = ⟨residue.toArray, []⟩ := by
  -- Of a value only its being constant matters to `POP`.
  have hpop : (⟨ops, []⟩ : Draft).discard slot =
      if slot.isConstant then (⟨ops, []⟩ : Draft).truncate slot.start
      else (⟨ops, []⟩ : Draft).emit .pop := by
    unfold Slot.IsValue at hvalue
    unfold Draft.discard
    split at hvalue
    · rename_i hcontent
      simp only [hcontent]
    · rename_i hcontent
      simp only [hcontent]
    · exact hvalue.elim
    · exact hvalue.elim
    · exact hvalue.elim
  rw [hpop]
  simp only [residue?, h] at hresidue
  cases hconstant : slot.isConstant with
  | false =>
      rw [hconstant] at hresidue
      cases hresidue
      simp [Draft.emit, ← Array.toList_inj]
  | true =>
      simp only [hconstant, Bool.not_true, Bool.false_eq_true, if_false] at hresidue
      split at hresidue
      · cases hresidue
        -- There is an answer only if the constant has one step, the last of all.
        simp [Draft.truncate, Array.take_eq_extract, List.extract_eq_take_drop,
          ← Array.toList_inj]
      · cases hresidue

/-- Operations that make one value and a `POP` leave what they are said to leave. -/
theorem Draft.addAll_discarded {ops : Array Op} {slot : Slot} (hvalue : slot.IsValue)
    (h : Draft.start.addAll scope 0 operations = .ok ⟨ops, [slot]⟩)
    (hresidue : residue? scope operations = some residue) (lower : Draft) (index : Nat) :
    lower.addAll scope index (operations ++ [.apply .pop 1]) =
      .ok ((⟨residue.toArray, []⟩ : Draft).over lower) := by
  have hpop : ((⟨ops, [slot]⟩ : Draft).over lower).add scope (index + operations.length)
      (.apply .pop 1) =
        .ok (((⟨ops, []⟩ : Draft).over lower).discard (slot.raise lower.ops.size)) := by
    rw [add_apply (by decide), if_pos (by decide)]
    simp [Draft.apply, neededSlots, takeTop, Draft.over, Draft.applyTo]
  have hover := addAll_over h lower index
  rw [start_over] at hover
  rw [addAll_append, hover]
  simp only [addAll, hpop, discard_over, discard_eq hvalue h hresidue]

end Inserting

/-- Whether what is inserted behind the first operations is left alone by the later ones: none of
them cuts off the steps of the value below it or computes them ahead. -/
def keepsPlace (scope : Scope) (before after : List Operation) : Bool :=
  match Draft.start.addAll scope 0 before with
  | .error _ => true
  | .ok draft => draft.keepsOlderAll scope draft.slots.length before.length after

section Discarding

variable {source : Source} {vars : Variables} {before discarded after : List Operation}
  {original aside : Compiled} {residue : List Op}

/-- Operations behind an inserted value compile as they did, and their steps are the same. -/
theorem Draft.exists_addAll_inserted {scope : Scope} {place last : Draft} {layout : Layout}
    {slot : Slot} (hholds : place.Holds layout []) (hresidue : ∃ aside, Discards residue aside)
    (hlast : place.addAll scope before.length after = .ok last) (hslots : last.slots = [slot])
    (hkeeps : residue = [] ∨
      place.keepsOlderAll scope place.slots.length before.length after = true) (index : Nat) :
    ∃ (inserted : Draft) (moved : Slot),
      ((⟨residue.toArray, []⟩ : Draft).over place).addAll scope index after = .ok inserted ∧
      inserted.ops.toList = last.ops.toList.take place.ops.size ++
        (residue ++ last.ops.toList.drop place.ops.size) ∧
      inserted.slots = [moved] ∧ moved = { slot with start := moved.start } := by
  have hcut (first behind : List Op) (hfirst : first.length = place.ops.size)
      (hops : last.ops.toList = first ++ behind) :
      first ++ (residue ++ behind) = last.ops.toList.take place.ops.size ++
        (residue ++ last.ops.toList.drop place.ops.size) := by
    rw [hops, List.take_left' hfirst, List.drop_left' hfirst]
  -- With nothing left behind the operations compile on the same draft; otherwise the two drafts are
  -- followed side by side.
  rcases hkeeps with rfl | hkeeps
  · have hsame : (⟨[].toArray, []⟩ : Draft).over place = place := by
      simp [Draft.over]
    refine ⟨last, slot, ?_, ?_, hslots, rfl⟩
    · rw [hsame]
      exact addAll_of_ok hlast index
    · rw [List.nil_append, List.take_append_drop]
  · have hplace : place.Spliced place.ops.size residue [] place.slots
        ((⟨residue.toArray, []⟩ : Draft).over place) :=
      ⟨⟨place.ops.toList, [], rfl, by simp, by simp [Draft.over]⟩,
        ⟨[], rfl, by simp [Draft.over], by simp⟩, hholds.below hresidue⟩
    obtain ⟨inserted, older, hinserted, hspliced, _⟩ := hplace.addAll hlast hkeeps index
    obtain ⟨side, moved, hmoved, hmovedSlots⟩ := hspliced.slots_single hslots
    obtain ⟨first, behind, hfirst, hops, hmore⟩ := hspliced.ops
    exact ⟨inserted, moved, hinserted, hmore.trans (hcut first behind hfirst hops), hmovedSlots,
      hmoved.eq_start⟩

/-- An expression with a discarded value inserted compiles, and its program has the steps that stay
of that value between those of the operations before and after it. -/
theorem exists_compile_discarding (h : compile source vars (before ++ after) = .ok original)
    (hdiscarded : compile source vars discarded = .ok aside)
    (hresidue : residue? ⟨source, vars⟩ discarded = some residue)
    (hkeeps : residue = [] ∨ keepsPlace ⟨source, vars⟩ before after = true) :
    ∃ place last longer, Draft.start.addAll ⟨source, vars⟩ 0 before = .ok place ∧
      Draft.start.addAll ⟨source, vars⟩ 0 (before ++ after) = .ok last ∧
      original.program = .ofOps last.ops.toList ∧
      compile source vars (before ++ (discarded ++ (.apply .pop 1 :: after))) = .ok longer ∧
      longer.range = original.range ∧ longer.keywords = original.keywords ∧
      longer.program = .ofOps (last.ops.toList.take place.ops.size ++
        (residue ++ last.ops.toList.drop place.ops.size)) := by
  obtain ⟨last, slot, hadded, hslots, hvalue, rfl⟩ := exists_draft_of_compile h
  obtain ⟨⟨ops, slots⟩, own, halone, rfl, hown, _⟩ := exists_draft_of_compile hdiscarded
  have hafter := hadded
  rw [Draft.addAll_append] at hafter
  split at hafter
  · cases hafter
  rename_i place hplace
  rw [Nat.zero_add] at hafter
  obtain ⟨layout, _, hholds⟩ := Draft.Holds.start.addAll hplace
  have hkept : residue = [] ∨ place.keepsOlderAll ⟨source, vars⟩ place.slots.length before.length
      after = true := by
    simpa only [keepsPlace, hplace] using hkeeps
  -- The index of an operation only tells where it fails, so the later ones may be counted on.
  obtain ⟨inserted, moved, hinserted, hops, hmovedSlots, hmoved⟩ :=
    Draft.exists_addAll_inserted hholds ⟨_, discards_residue hdiscarded hresidue⟩ hafter hslots
      hkept (before.length + (discarded ++ [Operation.apply .pop 1]).length)
  have hdiscard := Draft.addAll_discarded hown halone hresidue place before.length
  have hlonger : Draft.start.addAll ⟨source, vars⟩ 0
      (before ++ ((discarded ++ [.apply .pop 1]) ++ after)) = .ok inserted := by
    simp only [Draft.addAll_append, hplace, Nat.zero_add, hdiscard, hinserted]
  rw [List.append_assoc, List.singleton_append] at hlonger
  have hmovedValue : moved.IsValue := by
    rw [hmoved]
    exact hvalue
  refine ⟨place, last, _, hplace, hadded, rfl,
    compile_eq_of_slot (by simp) hlonger hmovedSlots hmovedValue, ?_, ?_, ?_⟩
  · rw [hmoved]
  · rw [hmoved]
  · rw [hops]

/-- Let operations that make one value be inserted with a `POP` behind the first operations of an
expression.  If nothing but the step of a constant goes with the `POP`, and no later operation takes
off what stays, then the longer expression compiles, to the same range and keywords.  Where an
earlier step fails, its runs end as they did; where evaluating what is discarded fails, so do they,
with its failure; and otherwise they go on behind it with the stack as it was, and leave the same
value or failure as before.  The text read last is the last one of all the steps that were run,
those of the discarded value included. -/
theorem run_discarding (h : compile source vars (before ++ after) = .ok original)
    (hdiscarded : compile source vars discarded = .ok aside)
    (hresidue : residue? ⟨source, vars⟩ discarded = some residue)
    (hkeeps : residue = [] ∨ keepsPlace ⟨source, vars⟩ before after = true) :
    ∃ place last longer, Draft.start.addAll ⟨source, vars⟩ 0 before = .ok place ∧
      Draft.start.addAll ⟨source, vars⟩ 0 (before ++ after) = .ok last ∧
      original.program = .ofOps last.ops.toList ∧
      compile source vars (before ++ (discarded ++ (.apply .pop 1 :: after))) = .ok longer ∧
      longer.range = original.range ∧ longer.keywords = original.keywords ∧
      ∀ env,
        match Machine.steps env .start (last.ops.toList.take place.ops.size) with
        | .error _ => Machine.run env longer.program = Machine.run env original.program
        | .ok reached =>
          let own := Machine.run env aside.program
          match own.result with
          | .error error =>
            Machine.run env longer.program = ⟨.error error, own.lastText.or reached.lastText⟩
          | .ok _ =>
            Machine.run env longer.program = .ofRun
                (Machine.steps env { reached with lastText := own.lastText.or reached.lastText }
                  (last.ops.toList.drop place.ops.size)) ∧
              (Machine.run env longer.program).result =
                (Machine.run env original.program).result := by
  obtain ⟨place, last, longer, hplace, hlast, horiginal, hlonger, hrange, hkeywords, hprogram⟩ :=
    exists_compile_discarding h hdiscarded hresidue hkeeps
  have hdiscards := discards_residue hdiscarded hresidue
  refine ⟨place, last, longer, hplace, hlast, horiginal, hlonger, hrange, hkeywords, fun env => ?_⟩
  have hplain : Machine.run env original.program =
      Machine.runOps env (last.ops.toList.take place.ops.size ++
        last.ops.toList.drop place.ops.size) := by
    rw [horiginal, Machine.run_ofOps, List.take_append_drop]
  simp only [hprogram, Machine.run_ofOps, hplain]
  -- Three things can stop a run first: the steps before the place, what is discarded, and the rest.
  cases hfirst : Machine.steps env .start (last.ops.toList.take place.ops.size) with
  | error stop => exact Machine.runOps_spliced_of_error hfirst
  | ok reached =>
      cases hown : (Machine.run env aside.program).result with
      | error error => exact Machine.runOps_spliced_error hdiscards hfirst hown
      | ok value => exact Machine.runOps_spliced_ok hdiscards hfirst hown

end Discarding

end Residues

/-- A quotient by zero is discarded between a record and the name of a column to read from it: the
run fails with the division. -/
theorem run_discarding_quotient :
    let age : ColumnRef := ⟨⟨1⟩, .stored 0, "People.age", .scalar .integer⟩
    let source : Source :=
      ⟨fun _ => .ok (.column age), fun _ _ => .ok age, fun _ _ => .ok (.integer 7),
        fun _ => none, none⟩
    let vars := Variables.empty.define none (.table ⟨1⟩)
    let before := [.push (.variableAt 0)]
    let discarded := [.pushValue (.integer 1), .pushValue (.integer 0), .apply .divide 2]
    let after := Operation.readColumn "age"
    ∃ residue longer, residue? ⟨source, vars⟩ discarded = some residue ∧
      keepsPlace ⟨source, vars⟩ before after = true ∧
      compile source vars (before ++ (discarded ++ (.apply .pop 1 :: after))) = .ok longer ∧
      Machine.run ⟨source, some vars⟩ longer.program = ⟨.error .divisionByZero, none⟩ := by
  intro age source vars before discarded after
  obtain ⟨original, aside, residue, h, hdiscarded, hresidue, hkeeps⟩ :
      ∃ original aside residue, compile source vars (before ++ after) = .ok original ∧
        compile source vars discarded = .ok aside ∧
        residue? ⟨source, vars⟩ discarded = some residue ∧
        keepsPlace ⟨source, vars⟩ before after = true := ⟨_, _, _, rfl, rfl, rfl, rfl⟩
  obtain ⟨place, last, longer, hplace, hlast, _, hlonger, _, _, hrun⟩ :=
    run_discarding h hdiscarded hresidue (.inr hkeeps)
  -- The theorem gives the run once it is known how far the steps before and the quotient get.
  have hrun := hrun ⟨source, some vars⟩
  cases hplace
  cases hlast
  cases hdiscarded
  exact ⟨residue, longer, hresidue, hkeeps, hlonger, hrun⟩

/-- Behind the name of the column the same quotient is cut off together with the name, which is
resolved before the run: the expression compiles, the quotient fails where it is evaluated by itself
and no earlier operation fails, but the run answers what the column holds. -/
theorem run_skips_discarded :
    let age : ColumnRef := ⟨⟨1⟩, .stored 0, "People.age", .scalar .integer⟩
    let source : Source :=
      ⟨fun _ => .ok (.column age), fun _ _ => .ok age, fun _ _ => .ok (.integer 7),
        fun _ => none, none⟩
    let vars : Variables :=
      (Variables.empty.define none (.table ⟨1⟩)).setCell 0 ⟨.record ⟨⟨1⟩, 1⟩, .table ⟨1⟩⟩
    let before := [.push (.variableAt 0), .pushValue (.text "age")]
    let discarded := [.pushValue (.integer 1), .pushValue (.integer 0), .apply .divide 2]
    let after := [.apply .getValue 2]
    ∃ original aside longer place reached,
      compile source vars (before ++ after) = .ok original ∧
      compile source vars discarded = .ok aside ∧
      compile source vars (before ++ (discarded ++ (.apply .pop 1 :: after))) = .ok longer ∧
      Draft.start.addAll ⟨source, vars⟩ 0 before = .ok place ∧
      Machine.steps ⟨source, some vars⟩ .start place.ops.toList = .ok reached ∧
      (Machine.run ⟨source, some vars⟩ aside.program).result = .error .divisionByZero ∧
      (Machine.run ⟨source, some vars⟩ longer.program).result = .ok (.integer 7) :=
  ⟨_, _, _, _, _, rfl, rfl, rfl, rfl, rfl, rfl, rfl⟩

end RecordQuery.Compile

import RecordQuery.Proofs.Compile.Inversion
import RecordQuery.Proofs.Program.Depth
import RecordQuery.Regexp.Standard

/-!
# Compiled programs never run out of values

The steps of a piece that stands for a value leave one value more, those of other pieces and the
spare steps leave the stack as deep as it was, and none of them takes a value from below
(`Layout.Balanced`).  Every step of the compiler keeps this, `POP` included: what it leaves behind
is balanced, so that it may stay below any piece.  Joining neighbours keeps it as well.

So every run of a compiled program finds the values and the variables that its steps need, whatever
the store and the variables hold, and leaves exactly one value (`run_stackSafe`).
-/

namespace RecordQuery.Compile

variable {scope : Scope} {index : Nat} {operator : Operator} {limit : Nat}

/-! ## Balanced layouts -/

/-- The number of values that the steps of a slot leave. -/
def Slot.height (slot : Slot) : Nat :=
  match slot.content with
  | .value | .column _ true => 1
  | .column _ false | .table _ | .function _ => 0

theorem Slot.IsValue.height_eq {slot : Slot} (h : slot.IsValue) : slot.height = 1 := by
  unfold IsValue at h
  unfold height
  cases hcontent : slot.content with
  | value => rfl
  | table t => simp [hcontent] at h
  | function f => simp [hcontent] at h
  | column c materialized =>
      cases materialized with
      | true => rfl
      | false => simp [hcontent] at h

/-- The steps of a piece leave as many values as its slot stands for and take none from below. -/
structure Piece.Balanced (limit : Nat) (piece : Piece) : Prop where
  /-- The steps lead from any depth to the depth with the values of the slot. -/
  lifts : Lifts limit 0 piece.code piece.slot.height
  /-- A constant is pushed by the first step. -/
  known : piece.Known

/-- All pieces are balanced, and the spare steps leave no value. -/
structure Layout.Balanced (limit : Nat) (layout : Layout) : Prop where
  /-- The spare steps leave the stack as it was. -/
  spare : Lifts limit 0 layout.spare 0
  /-- The pieces are balanced. -/
  pieces : ∀ piece ∈ layout.pieces, piece.Balanced limit

theorem Piece.Balanced.lifts_value {piece : Piece} (h : piece.Balanced limit)
    (hvalue : piece.slot.IsValue) : Lifts limit 0 piece.code 1 :=
  hvalue.height_eq ▸ h.lifts

theorem Piece.Balanced.lifts_behind {piece : Piece} {behind : List Op} {last : Nat}
    (h : piece.Balanced limit) (hvalue : piece.slot.IsValue)
    (hbehind : Lifts limit 1 behind last) : Lifts limit 0 (piece.code ++ behind) last :=
  (h.lifts_value hvalue).append hbehind

theorem lifts_operands {operands : List Piece}
    (h : ∀ operand ∈ operands, operand.Balanced limit)
    (hvalues : ∀ operand ∈ operands, operand.slot.IsValue) :
    Lifts limit 0 (operands.flatMap (·.code)) operands.length := by
  induction operands with
  | nil => exact .nil
  | cons operand later ih =>
      have hfirst := (h operand (List.mem_cons_self ..)).lifts_value
        (hvalues operand (List.mem_cons_self ..))
      have hlater := ih (fun other hmem => h other (List.mem_cons_of_mem _ hmem))
        (fun other hmem => hvalues other (List.mem_cons_of_mem _ hmem))
      rw [List.length_cons, Nat.add_comm]
      exact hfirst.append (hlater.above 1)

namespace Layout

variable {layout : Layout}

theorem Balanced.empty : Layout.empty.Balanced limit :=
  ⟨.nil, fun _ hmem => absurd hmem List.not_mem_nil⟩

theorem Balanced.push {piece : Piece} (h : layout.Balanced limit)
    (hpiece : piece.Balanced limit) : (layout.push piece).Balanced limit := by
  refine ⟨h.spare, fun other hmem => ?_⟩
  rcases List.mem_cons.mp hmem with rfl | hmem
  · exact hpiece
  · exact h.pieces other hmem

theorem Balanced.of_pushAll {operands : List Piece}
    (h : (layout.pushAll operands).Balanced limit) :
    layout.Balanced limit ∧ ∀ operand ∈ operands, operand.Balanced limit := by
  have hpieces := h.pieces
  have hspare := h.spare
  rw [spare_pushAll] at hspare
  simp only [pieces_pushAll, List.mem_append, List.mem_reverse] at hpieces
  exact ⟨⟨hspare, fun piece hmem => hpieces piece (Or.inr hmem)⟩,
    fun operand hmem => hpieces operand (Or.inl hmem)⟩

theorem Balanced.absorb {extra : List Op} (h : layout.Balanced limit)
    (hextra : Lifts limit 0 extra 0) : (layout.absorb extra).Balanced limit := by
  obtain ⟨spare, pieces⟩ := layout
  obtain ⟨hspare, hpieces⟩ := h
  cases pieces with
  | nil => exact ⟨hspare.append hextra, hpieces⟩
  | cons piece below =>
      refine ⟨hspare, fun other hmem => ?_⟩
      rcases List.mem_cons.mp hmem with rfl | hmem
      · obtain ⟨hlifts, hknown⟩ := hpieces piece (List.mem_cons_self ..)
        refine ⟨hlifts.append (hextra.above _), fun value hvalue => ?_⟩
        simp [List.head?_append, hknown value hvalue]
      · exact hpieces other (List.mem_cons_of_mem _ hmem)

/-- What `POP` leaves behind is nothing or steps that leave no value. -/
theorem discard_cases {piece : Piece} (layout : Layout) (hpiece : piece.Balanced limit) :
    layout.discard piece = layout ∨
      ∃ extra, Lifts limit 0 extra 0 ∧ layout.discard piece = layout.absorb extra := by
  -- A constant is taken back with its step; any other value is popped behind its steps.
  have hcut (hvalue : piece.slot.IsValue) :
      (if piece.slot.isConstant then layout else layout.absorb (piece.code ++ [.pop])) = layout ∨
        ∃ extra, Lifts limit 0 extra 0 ∧
          (if piece.slot.isConstant then layout else layout.absorb (piece.code ++ [.pop])) =
            layout.absorb extra := by
    split
    · exact Or.inl rfl
    · exact Or.inr ⟨_, hpiece.lifts_behind hvalue (Lifts.single .pop trivial 0), rfl⟩
  have hlifts := hpiece.lifts
  unfold Slot.height at hlifts
  unfold Layout.discard
  cases hcontent : piece.slot.content with
  | value => exact hcut (by simp [Slot.IsValue, hcontent])
  -- Tables, functions and pending columns have left nothing on the stack to pop.
  | table t =>
      rw [hcontent] at hlifts
      exact Or.inr ⟨_, hlifts, rfl⟩
  | function f =>
      rw [hcontent] at hlifts
      exact Or.inr ⟨_, hlifts, rfl⟩
  | column c materialized =>
      cases materialized with
      | true => exact hcut (by simp [Slot.IsValue, hcontent])
      | false =>
          rw [hcontent] at hlifts
          exact Or.inr ⟨_, hlifts, rfl⟩

theorem Balanced.discard {piece : Piece} (h : layout.Balanced limit)
    (hpiece : piece.Balanced limit) : (layout.discard piece).Balanced limit := by
  rcases discard_cases layout hpiece with hsame | ⟨extra, hextra, habsorb⟩
  · rw [hsame]
    exact h
  · rw [habsorb]
    exact h.absorb hextra

end Layout

/-! ## Operators -/

theorem Piece.balanced_ofObject {start : Nat} {object : ObjectRef} (limit : Nat)
    (hrecord : ∀ column, scope.recordFits column = true → 0 < limit) :
    (Piece.ofObject scope start object).Balanced limit := by
  cases object with
  | table t => exact ⟨.nil, fun value hvalue => by cases hvalue⟩
  | function f => exact ⟨.nil, fun value hvalue => by cases hvalue⟩
  | column c =>
      simp only [Piece.ofObject]
      split
      · rename_i hfits
        have hload : Op.WellFormed limit (.loadVariable 0) := hrecord c hfits
        have hget : Op.WellFormed limit (.getColumn c) := trivial
        refine ⟨(Lifts.single _ hload 0).append (Lifts.single _ hget 0), fun value hvalue => ?_⟩
        cases hvalue
      · exact ⟨.nil, fun value hvalue => by cases hvalue⟩

theorem balanced_value {slot : Slot} {code : List Op} (hheight : slot.height = 1)
    (hconstant : slot.constant = none) (hlifts : Lifts limit 0 code 1) :
    Piece.Balanced limit ⟨slot, code⟩ := by
  refine ⟨by rw [hheight]; exact hlifts, fun value hvalue => ?_⟩
  simp [hconstant] at hvalue

theorem balanced_settled [Regexp.Matcher] {source : Source} {slot : Slot} {code : List Op}
    {foldable : Bool} (hheight : slot.height = 1) (hconstant : slot.constant = none)
    (hlifts : Lifts limit 0 code 1) :
    (Piece.settled source slot code foldable).Balanced limit := by
  unfold Piece.settled
  split
  · exact balanced_value hheight hconstant hlifts
  · rename_i value _
    refine ⟨?_, fun other hother => ?_⟩
    · change Lifts limit 0 [.load value] slot.height
      rw [hheight]
      exact Lifts.single (.load value) trivial 0
    · cases hother
      rfl

theorem Piece.Balanced.beside {piece : Piece} (h : piece.Balanced limit) (domain : Domain) :
    (piece.beside domain).Balanced limit := by
  unfold Piece.beside
  split
  · rename_i n hconstant
    split
    · rename_i record _
      -- Only the first step is overwritten, by one that pushes a value as well.
      obtain ⟨rest, hcode⟩ := List.head?_eq_some_iff.mp (h.known _ hconstant)
      have hlifts := h.lifts
      rw [hcode] at hlifts
      obtain ⟨_, kept, hkept, hrest⟩ := hlifts.head
      obtain rfl : kept = 0 := hkept.symm
      refine ⟨?_, fun value hvalue => ?_⟩
      · rw [hcode]
        have hload : Op.WellFormed limit (.load record) := trivial
        exact .cons hload hrest
      · cases hvalue
        rw [hcode]
        rfl
    · exact h
  · exact h

theorem Slot.IsValue.beside {piece : Piece} (h : piece.slot.IsValue) (domain : Domain) :
    (piece.beside domain).slot.IsValue := by
  unfold IsValue at h ⊢
  rwa [Piece.content_beside]

theorem comparedPieces_balanced {left right left' right' : Piece}
    (hleft : left.Balanced limit) (hright : right.Balanced limit)
    (hleftValue : left.slot.IsValue) (hrightValue : right.slot.IsValue)
    (hcompared : comparedPieces operator left right = (left', right')) :
    Lifts limit 0 left'.code 1 ∧ Lifts limit 0 right'.code 1 := by
  unfold comparedPieces at hcompared
  split at hcompared
  · cases hcompared
    exact ⟨(hleft.beside _).lifts_value (hleftValue.beside _),
      (hright.beside _).lifts_value (hrightValue.beside _)⟩
  · cases hcompared
    exact ⟨hleft.lifts_value hleftValue, hright.lifts_value hrightValue⟩

theorem isValue_of_columnOf {source : Source} {name : Slot} {domain : Domain}
    (hcolumn : columnOf source index name domain = .ok none) : name.IsValue := by
  unfold columnOf at hcolumn
  split at hcolumn
  · split at hcolumn
    · split at hcolumn <;> cases hcolumn
    · cases hcolumn
  · rename_i hcontent
    simp [Slot.IsValue, hcontent]
  · cases hcolumn

/-- An operator makes a balanced piece of balanced operands. -/
theorem Combined.balanced [Regexp.Matcher] {operands : List Piece} {piece : Piece}
    (hcombined : Combined scope index operator operands piece)
    (h : ∀ operand ∈ operands, operand.Balanced limit) : piece.Balanced limit := by
  cases hcombined with
  | @member record name column hvalue hdomain hcolumn =>
      have hrecord := h record (by simp)
      exact balanced_value rfl rfl
        (hrecord.lifts_behind hvalue (Lifts.single (.getColumn column) trivial 0))
  | @getValue record name hvalue hdomain hcolumn =>
      have hrecord := h record (by simp)
      have hname := (h name (by simp)).lifts_value (isValue_of_columnOf hcolumn)
      exact balanced_value rfl rfl
        (hrecord.lifts_behind hvalue ((hname.above 1).append (Lifts.single .getValue trivial 0)))
  | @call target arguments function hfunction hcount hmost hvalues =>
      have htarget := (h target (by simp)).lifts
      -- The function itself is no value: only its arguments stand on the stack.
      rw [show target.slot.height = 0 by simp [Slot.height, hfunction]] at htarget
      have harguments :=
        lifts_operands (fun argument hmem => h argument (List.mem_cons_of_mem _ hmem)) hvalues
      have hformed : Op.WellFormed limit (.call function arguments.length) := trivial
      have hcall := Lifts.single _ hformed 0
      rw [show 0 + (Op.call function arguments.length).taken = arguments.length from
        Nat.zero_add _] at hcall
      exact balanced_settled rfl rfl (htarget.append (harguments.append hcall))
  | @connect _ connective first later hoperator hmost hvalues =>
      have hoperands := lifts_operands h hvalues
      have hpositive : Op.WellFormed limit (.connect connective (first :: later).length) :=
        Nat.succ_ne_zero _
      have hconnect := Lifts.single _ hpositive 0
      rw [show 0 + (Op.connect connective (first :: later).length).taken =
        (first :: later).length from Nat.zero_add _] at hconnect
      exact balanced_settled rfl rfl (hoperands.append hconnect)
  | @not operand hvalue =>
      exact balanced_settled rfl rfl
        ((h operand (by simp)).lifts_behind hvalue (Lifts.single .not trivial 0))
  | @negate operand hvalue hnumber =>
      exact balanced_settled rfl rfl
        ((h operand (by simp)).lifts_behind hvalue (Lifts.single .negate trivial 0))
  | @pattern left right source regexp hleft hright hconstant hregexp hopen =>
      exact balanced_value rfl rfl
        ((h left (by simp)).lifts_behind hleft (Lifts.single (.matchesRegexp regexp) trivial 0))
  | @binary _ operation left right left' right' hoperator hleft hright hcompared =>
      -- Turning an operand into a record keeps its height, so the compared pieces stand as they
      -- were.
      obtain ⟨hleftLifts, hrightLifts⟩ := comparedPieces_balanced (h left (by simp))
        (h right (by simp)) hleft hright hcompared
      exact balanced_settled rfl rfl
        (hleftLifts.append ((hrightLifts.above 1).append
          (Lifts.single (.binary operation) trivial 0)))

/-! ## Operations -/

theorem lt_size_of_domain? {vars : Variables} {position : Nat} {domain : Domain}
    (hdomain : vars.domain? position = some domain) : position < vars.size := by
  unfold Variables.domain? at hdomain
  obtain ⟨v, hget, _⟩ := Option.map_eq_some_iff.mp hdomain
  exact (Array.getElem?_eq_some_iff.mp hget).1

/-- Whatever an operand is, its piece is balanced. -/
theorem Pushed.balanced {start : Nat} {operand : Operand} {piece : Piece}
    (hpushed : Pushed scope start operand piece) : piece.Balanced scope.vars.size := by
  have hobject (object : ObjectRef) :
      (Piece.ofObject scope start object).Balanced scope.vars.size := by
    refine Piece.balanced_ofObject _ fun column hfits => ?_
    unfold Scope.recordFits at hfits
    split at hfits
    · rename_i hdomain
      exact lt_size_of_domain? hdomain
    · rename_i hdomain
      exact lt_size_of_domain? hdomain
    · cases hfits
  cases hpushed with
  | @variableAt position domain hdomain =>
      have hload : Op.WellFormed scope.vars.size (.loadVariable position) :=
        lt_size_of_domain? hdomain
      exact balanced_value rfl rfl (Lifts.single _ hload 0)
  | @constant cell =>
      refine ⟨Lifts.single (.load cell.value) trivial 0, fun value hvalue => ?_⟩
      cases hvalue
      rfl
  | object => exact hobject _
  | name _ => exact hobject _

section Layouts

variable [Regexp.Matcher]

theorem Layout.Applied.balanced {needed : Nat} {layout layout' : Layout}
    (happlied : Layout.Applied scope index operator needed layout layout')
    (h : layout.Balanced limit) : layout'.Balanced limit := by
  cases happlied with
  | @discard base piece hoperator =>
      have hpushed : (base.pushAll [piece]).Balanced limit := h
      obtain ⟨hbase, hoperands⟩ := hpushed.of_pushAll
      exact hbase.discard (hoperands piece (by simp))
  | combine base hcombined =>
      obtain ⟨hbase, hoperands⟩ := h.of_pushAll
      exact hbase.push (hcombined.balanced hoperands)

theorem Layout.Step.balanced {operation : Operation} {layout layout' : Layout}
    (hstep : Layout.Step scope index operation layout layout')
    (h : layout.Balanced scope.vars.size) : layout'.Balanced scope.vars.size := by
  cases hstep with
  | push hpushed => exact h.push hpushed.balanced
  | apply _ happlied => exact happlied.balanced h
  | pushApply _ hpushed happlied => exact happlied.balanced (h.push hpushed.balanced)

theorem Layout.Steps.balanced {operations : List Operation} {layout layout' : Layout}
    (hsteps : Layout.Steps scope index operations layout layout')
    (h : layout.Balanced scope.vars.size) : layout'.Balanced scope.vars.size := by
  induction hsteps with
  | nil => exact h
  | cons hstep _ ih => exact ih (hstep.balanced h)

/-! ## Whole expressions -/

/-- The steps of a compiled program find what they need and leave one value. -/
theorem compile_lifts {source : Source} {vars : Variables} {operations : List Operation}
    {compiled : Compiled} (hcompile : compile source vars operations = .ok compiled) :
    Lifts vars.size 0 compiled.program.ops 1 := by
  obtain ⟨spare, piece, hsteps, hvalue, rfl⟩ := compile_layout hcompile
  obtain ⟨hspare, hpieces⟩ := hsteps.balanced .empty
  have hpiece := (hpieces piece (List.mem_cons_self ..)).lifts_value hvalue
  exact (hspare.append hpiece).fuse

/-- At every point of a run of a compiled program, whatever the store and the variables hold, the
depth of the stack is the sum of the effects of the steps so far and not above the depth of the
program; the next step does not fail for want of values or variables, unless its function answers
such a failure itself; and after the last step there is one value. -/
theorem run_stackSafe {source : Source} {vars : Variables} {operations : List Operation}
    {compiled : Compiled} (hcompile : compile source vars operations = .ok compiled)
    {env : Environment} {values : Variables} (hvalues : env.vars = some values)
    (hsize : values.size = vars.size) {done rest : List Op}
    (hops : compiled.program.ops = done ++ rest) {state : Machine.State}
    (hsteps : Machine.steps env .start done = .ok state) :
    (state.stack.length : Int) = (done.map Op.stackEffect).sum ∧
      state.stack.length ≤ compiled.program.maxStackDepth ∧
      (∀ op later error, rest = op :: later → Machine.step env state op = .error error →
        error.IsStackFault →
        ∃ function count, op = .call function count ∧ count ≤ state.stack.length ∧
          function.evaluate (state.stack.take count).reverse = .error error) ∧
      (rest = [] → state.stack.length = 1) := by
  -- The depth is known at every point of the program, so at the one that the run has reached.
  have hlifts := compile_lifts hcompile
  rw [hops] at hlifts
  obtain ⟨depth, hdone, hrest⟩ := hlifts.split
  have hdepth := Machine.steps_lifts hdone rfl hsteps
  have hsum : (state.stack.length : Int) = (done.map Op.stackEffect).sum := by
    simpa [Machine.State.start] using Machine.steps_length hsteps
  have hmost := Machine.sum_le_maxStackDepth hops
  refine ⟨hsum, by omega, ?_, ?_⟩
  · rintro op later error rfl hstep hfault
    obtain ⟨hop, kept, hkept, _⟩ := hrest.head
    rw [← hsize] at hop
    exact Machine.step_fits hvalues hop (hdepth.trans hkept) hstep hfault
  · rintro rfl
    cases hrest
    exact hdepth

end Layouts

/-- A search in a column of the record in variable 0 after a discarded variable: in a run whose
variable holds a reference to no record, one value is left. -/
theorem run_stackSafe_discarded :
    let title : ColumnRef := ⟨⟨1⟩, .stored 0, "Docs.title", .scalar .text⟩
    let source : Source :=
      ⟨fun _ => .ok (.column title), fun _ _ => .ok title, fun _ _ => .ok (.text "Needle"),
        fun _ => none, none⟩
    let vars := Variables.empty.define none (.table ⟨1⟩)
    let operations := [.push (.variableAt 0), .apply .pop 1] ++ Operation.readPath ["title"]
    ∃ compiled state, compile source vars operations = .ok compiled ∧
      Machine.steps ⟨source, some vars⟩ .start compiled.program.ops = .ok state ∧
      compiled.program.ops.length = 3 ∧ state.stack.length = 1 := by
  intro title source vars operations
  obtain ⟨compiled, state, hcompile, hsteps, hlength⟩ :
      ∃ compiled state, compile source vars operations = .ok compiled ∧
        Machine.steps ⟨source, some vars⟩ .start compiled.program.ops = .ok state ∧
        compiled.program.ops.length = 3 := ⟨_, _, rfl, rfl, rfl⟩
  have hvalues : (⟨source, some vars⟩ : Environment).vars = some vars := rfl
  have hsafe := run_stackSafe hcompile hvalues rfl (List.append_nil _).symm hsteps
  exact ⟨compiled, state, hcompile, hsteps, hlength, hsafe.2.2.2 rfl⟩

end RecordQuery.Compile

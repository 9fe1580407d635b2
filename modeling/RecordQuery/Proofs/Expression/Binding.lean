import Mathlib.Data.List.Forall2
import RecordQuery.Proofs.Expression.History
import RecordQuery.Regexp.Standard

/-!
# Binding arguments

An execution looks at all arguments before it binds the first one.  So it binds either none of them,
because there are too many or because one does not fit (`Variables.Accepts`), or all of them
(`Variables.Binds`), whatever becomes of the run behind that.

Every argument is converted twice, once to see whether it fits and once more by the cell that it is
bound to.  The second conversion finds a value of its domain, so it has nothing left to do
(`Value.fitsIn_of_coerce`).
-/

namespace RecordQuery

/-! ## Arguments for variables -/

/-- Whether there are arguments for variables only, each accepted by the domain of its variable. -/
structure Variables.Accepts (vars : Variables) (arguments : List Value) : Prop where
  /-- There are no more arguments than variables. -/
  count : arguments.length ≤ vars.size
  /-- Every argument can be converted into the domain of its variable. -/
  fit : ∀ position argument domain, arguments[position]? = some argument →
    vars.domain? position = some domain → argument.ConvertsTo domain

/-- Whether variables have arguments bound to them that other ones had not. -/
structure Variables.Binds (vars : Variables) (arguments : List Value) (bound : Variables) :
    Prop where
  /-- The variables have the names and the domains they had. -/
  definitions : bound.definitions = vars.definitions
  /-- A variable with an argument holds it as its domain has it. -/
  given : ∀ position argument, arguments[position]? = some argument →
    ∃ domain fitted, vars.domain? position = some domain ∧
      argument.coerce domain = .ok fitted ∧ bound.value? position = some fitted
  /-- The variables behind hold what they held. -/
  kept : ∀ position, arguments.length ≤ position →
    bound.value? position = vars.value? position

namespace Expression

variable {vars bound : Variables} {arguments fitted : List Value} {source : Source}
  {e ready : Expression}

/-! ## Conversion -/

/-- The arguments are converted one by one, each into the domain at its position. -/
theorem coerceArguments_eq_ok_iff {entries : List Variable} :
    coerceArguments arguments entries = .ok fitted ↔
      List.Forall₂ (fun pair value => pair.1.coerce pair.2.cell.domain = .ok value)
        (arguments.zip entries) fitted := by
  induction arguments generalizing entries fitted with
  | nil =>
      rw [List.zip_nil_left, List.forall₂_nil_left_iff]
      exact ⟨fun h => (Except.ok.inj h).symm, fun h => congrArg Except.ok h.symm⟩
  | cons argument later ih =>
      cases entries with
      | nil =>
          rw [List.zip_nil_right, List.forall₂_nil_left_iff]
          exact ⟨fun h => (Except.ok.inj h).symm, fun h => congrArg Except.ok h.symm⟩
      | cons v entries =>
          rw [List.zip_cons_cons, List.forall₂_cons_left_iff, coerceArguments]
          cases hvalue : argument.coerce v.cell.domain with
          | error fault => simp
          | ok value =>
              constructor
              · intro h
                obtain ⟨values, hvalues, rfl⟩ := exists_of_map_eq_ok h
                exact ⟨value, values, rfl, ih.mp hvalues, rfl⟩
              · rintro ⟨_, values, hsame, hvalues, rfl⟩
                obtain rfl := Except.ok.inj hsame
                simp only [ih.mpr hvalues, Except.map]

theorem getElem?_zip_entries {position : Nat} {argument : Value} {v : Variable} :
    (arguments.zip vars.entries.toList)[position]? = some (argument, v) ↔
      arguments[position]? = some argument ∧ vars.get? position = some v := by
  simp [List.getElem?_zip_eq_some, Variables.get?]

theorem getElem?_coerceArguments
    (h : coerceArguments arguments vars.entries.toList = .ok fitted) {position : Nat}
    {value : Value} :
    fitted[position]? = some value ↔
      ∃ argument v, arguments[position]? = some argument ∧ vars.get? position = some v ∧
        argument.coerce v.cell.domain = .ok value := by
  obtain ⟨hlength, hvalues⟩ := List.forall₂_iff_get.mp (coerceArguments_eq_ok_iff.mp h)
  constructor
  · intro hvalue
    obtain ⟨hposition, rfl⟩ := List.getElem?_eq_some_iff.mp hvalue
    have hpair := List.getElem?_eq_getElem (hlength ▸ hposition)
    obtain ⟨hargument, hv⟩ := getElem?_zip_entries.mp hpair
    exact ⟨_, _, hargument, hv, hvalues position (hlength ▸ hposition) hposition⟩
  · rintro ⟨argument, v, hargument, hv, hvalue⟩
    obtain ⟨hposition, hpair⟩ :=
      List.getElem?_eq_some_iff.mp (getElem?_zip_entries.mpr ⟨hargument, hv⟩)
    have hsame := hvalues position hposition (hlength ▸ hposition)
    simp only [List.get_eq_getElem, hpair, hvalue] at hsame
    rw [Except.ok.inj hsame]
    exact List.getElem?_eq_getElem (hlength ▸ hposition)

/-- Arguments for variables only are accepted if all of them can be converted. -/
theorem accepts_of_coerceArguments (hcount : arguments.length ≤ vars.size)
    (h : coerceArguments arguments vars.entries.toList = .ok fitted) : vars.Accepts arguments := by
  refine ⟨hcount, fun position argument domain hargument hdomain => ?_⟩
  obtain ⟨v, hv, rfl⟩ := Option.map_eq_some_iff.mp hdomain
  obtain ⟨hposition, _⟩ :=
    List.getElem?_eq_some_iff.mp (getElem?_zip_entries.mpr ⟨hargument, hv⟩)
  rw [(coerceArguments_eq_ok_iff.mp h).length_eq] at hposition
  obtain ⟨other, w, hother, hw, hvalue⟩ :=
    (getElem?_coerceArguments h).mp (List.getElem?_eq_getElem hposition)
  obtain rfl := Option.some.inj (hargument.symm.trans hother)
  obtain rfl := Option.some.inj (hv.symm.trans hw)
  exact ⟨_, hvalue⟩

theorem exists_coerceArguments (h : vars.Accepts arguments) :
    ∃ fitted, coerceArguments arguments vars.entries.toList = .ok fitted := by
  have hpairs : ∀ pair ∈ arguments.zip vars.entries.toList,
      pair.1.ConvertsTo pair.2.cell.domain := by
    rintro ⟨argument, v⟩ hmem
    obtain ⟨position, hpair⟩ := List.mem_iff_getElem?.mp hmem
    obtain ⟨hargument, hv⟩ := getElem?_zip_entries.mp hpair
    exact h.fit position argument v.cell.domain hargument (Option.map_eq_some_iff.mpr ⟨v, hv, rfl⟩)
  simp only [coerceArguments_eq_ok_iff]
  generalize arguments.zip vars.entries.toList = pairs at hpairs
  induction pairs with
  | nil => exact ⟨[], .nil⟩
  | cons pair later ih =>
      obtain ⟨⟨value, hvalue⟩, hlater⟩ := List.forall_mem_cons.mp hpairs
      obtain ⟨values, hvalues⟩ := ih hlater
      exact ⟨value :: values, .cons hvalue hvalues⟩

/-! ## Conversion once more -/

/-- Values of the domains of the variables from a position on are all bound, and to these variables
only. -/
theorem exists_bindFrom {position : Nat} {values : List Value}
    (hfit : ∀ index value, values[index]? = some value →
      ∃ domain, vars.domain? (position + index) = some domain ∧ value.FitsIn domain) :
    ∃ bound, bindFrom vars position values = .ok bound ∧
      (∀ index value, values[index]? = some value →
        bound.value? (position + index) = some value) ∧
      ∀ other, position + values.length ≤ other → bound.value? other = vars.value? other := by
  induction values generalizing vars position with
  | nil => exact ⟨vars, rfl, fun _ _ h => (by cases h), fun _ _ => rfl⟩
  | cons value values ih =>
      obtain ⟨domain, hdomain, hvalue⟩ := hfit 0 value rfl
      obtain ⟨between, hbind, hfirst⟩ := Variables.exists_bind hdomain hvalue
      -- Binding one variable leaves the domains of all the others as they are.
      have hdomains (other : Nat) : between.domain? other = vars.domain? other := by
        rw [Variables.domain?_eq_definitions, Variables.definitions_bind hbind,
          ← Variables.domain?_eq_definitions]
      have hfitLater (index : Nat) (later : Value) (hlater : values[index]? = some later) :
          ∃ domain, between.domain? (position + 1 + index) = some domain ∧
            later.FitsIn domain := by
        rw [hdomains, Nat.add_right_comm]
        exact hfit (index + 1) later hlater
      obtain ⟨bound, hbound, hgiven, hkept⟩ := ih hfitLater
      rw [Nat.add_zero] at hbind hfirst
      refine ⟨bound, by rw [bindFrom, hbind]; exact hbound, fun index later hlater => ?_,
        fun other hother => ?_⟩
      · cases index with
        | zero =>
            obtain rfl : value = later := Option.some.inj hlater
            rw [Nat.add_zero, value?_bindFrom hbound (Nat.lt_succ_self position), hfirst]
        | succ index =>
            rw [← hgiven index later hlater, Nat.add_right_comm, Nat.add_assoc]
      · rw [List.length_cons] at hother
        rw [hkept other (by omega), Variables.value?_bind_of_ne hbind (by omega)]

/-! ## All or none -/

/-- Accepted arguments are all bound. -/
theorem exists_bindArguments (h : vars.Accepts arguments) :
    ∃ bound, bindArguments vars arguments = .ok bound ∧ vars.Binds arguments bound := by
  obtain ⟨fitted, hfitted⟩ := exists_coerceArguments h
  have hlength : fitted.length = arguments.length := by
    rw [length_coerceArguments hfitted]
    exact Nat.min_eq_left h.count
  -- The arguments are coerced first, and what is coerced to a domain fits in it.
  have hfit (index : Nat) (value : Value) (hvalue : fitted[index]? = some value) :
      ∃ domain, vars.domain? (0 + index) = some domain ∧ value.FitsIn domain := by
    obtain ⟨argument, v, _, hv, hcoerce⟩ := (getElem?_coerceArguments hfitted).mp hvalue
    rw [Nat.zero_add]
    exact ⟨v.cell.domain, Option.map_eq_some_iff.mpr ⟨v, hv, rfl⟩, Value.fitsIn_of_coerce hcoerce⟩
  obtain ⟨bound, hbound, hgiven, hkept⟩ := exists_bindFrom hfit
  refine ⟨bound, ?_, (bindFrom_kept hbound).1, fun position argument hargument => ?_,
    fun position hposition => hkept position (by omega)⟩
  · rw [bindArguments, if_neg (Nat.not_lt.mpr h.count), hfitted]
    exact hbound
  · have hposition : position < fitted.length :=
      hlength ▸ (List.getElem?_eq_some_iff.mp hargument).1
    have hvalue := List.getElem?_eq_getElem hposition
    obtain ⟨other, v, hother, hv, hcoerce⟩ := (getElem?_coerceArguments hfitted).mp hvalue
    obtain rfl := Option.some.inj (hargument.symm.trans hother)
    have hdomain : vars.domain? position = some v.cell.domain :=
      Option.map_eq_some_iff.mpr ⟨v, hv, rfl⟩
    have hbind := hgiven position _ hvalue
    rw [Nat.zero_add] at hbind
    exact ⟨v.cell.domain, _, hdomain, hcoerce, hbind⟩

theorem exists_error_of_not_accepts (h : ¬ vars.Accepts arguments) :
    ∃ error, bindArguments vars arguments = .error error := by
  unfold bindArguments
  split
  · exact ⟨_, rfl⟩
  · rename_i hcount
    split
    · exact ⟨_, rfl⟩
    · rename_i fitted hfitted
      exact absurd (accepts_of_coerceArguments (Nat.not_lt.mp hcount) hfitted) h

theorem vars_runProgram [Regexp.Matcher] (e : Expression) (source : Source) :
    (e.runProgram source).1.vars = e.vars := by
  unfold runProgram keepResult
  split
  · rfl
  · dsimp only
    split
    · rfl
    · split
      · rfl
      · split <;> rfl

/-- An execution of a compiled expression with too many arguments, or with one that its variable
does not accept, fails and leaves the variables alone.  With any other arguments each variable that
has one holds it afterwards as its domain has it, and those behind hold what they held; whether the
program, the store or the result makes the execution fail does not matter.  When the cells of the
variables convert the converted arguments once more, this neither fails nor changes a value. -/
theorem execute_bindsAllOrNone [Regexp.Matcher] (hcompile : e.compile source = .ok ready)
    (arguments : List Value) :
    (¬ e.vars.Accepts arguments →
      (∃ error, (e.execute source arguments).2 = .error error) ∧
        (e.execute source arguments).1.vars = e.vars) ∧
    (e.vars.Accepts arguments →
      e.vars.Binds arguments (e.execute source arguments).1.vars) ∧
    ∀ fitted, coerceArguments arguments e.vars.entries.toList = .ok fitted →
      ∀ position value, fitted[position]? = some value →
        ∀ between : Variables, between.definitions = e.vars.definitions →
          ∃ later, between.bind position value = .ok later ∧
            later.value? position = some value := by
  have hvars := vars_of_compile hcompile
  refine ⟨fun hrefused => ?_, fun haccepted => ?_, ?_⟩
  · obtain ⟨error, herror⟩ := exists_error_of_not_accepts hrefused
    have hexecute : e.execute source arguments = (ready, .error error) := by
      simp only [Expression.execute, hcompile, hvars, herror]
    rw [hexecute]
    exact ⟨⟨error, rfl⟩, hvars⟩
  · -- Whatever the run answers, it leaves the variables as they were bound.
    obtain ⟨bound, hbound, hbinds⟩ := exists_bindArguments haccepted
    simp only [Expression.execute, hcompile, hvars, hbound, vars_runProgram]
    exact hbinds
  · intro fitted hfitted position value hvalue between hbetween
    obtain ⟨argument, v, _, hv, hcoerce⟩ := (getElem?_coerceArguments hfitted).mp hvalue
    have hdomain : between.domain? position = some v.cell.domain := by
      rw [Variables.domain?_eq_definitions, hbetween, ← Variables.domain?_eq_definitions]
      exact Option.map_eq_some_iff.mpr ⟨v, hv, rfl⟩
    exact Variables.exists_bind hdomain (Value.fitsIn_of_coerce hcoerce)

/-- A number for a record, an integer for a float and nothing for a text are bound although the run
divides by zero; a text for the record is refused together with the number behind it. -/
theorem execute_bindsAllOrNone_divided :
    let source := (MemoryStore.empty .empty).source none
    let e := (empty none).performAll
      [.defineVariable none (.table ⟨1⟩), .defineVariable none (.scalar .float),
        .defineVariable none (.scalar .text), .appendObject (.variableAt 1) .push 1,
        .appendConstant (.integer 0) .divide 2]
    (∃ ready, e.compile source = .ok ready) ∧
      (e.execute source [.integer 7, .integer 2]).2 = .error .divisionByZero ∧
      e.vars.Binds [.integer 7, .integer 2] (e.execute source [.integer 7, .integer 2]).1.vars ∧
      (e.execute source [.text "seven", .integer 2]).1.vars = e.vars := by
  intro source e
  obtain ⟨ready, hready⟩ : ∃ ready, e.compile source = .ok ready := ⟨_, rfl⟩
  have hfitted : coerceArguments [.integer 7, .integer 2] e.vars.entries.toList =
      .ok [.record ⟨⟨1⟩, 7⟩, .float (floatOfInt64 2)] := rfl
  have haccepted : e.vars.Accepts [.integer 7, .integer 2] :=
    accepts_of_coerceArguments (by decide) hfitted
  have hrefused : ¬ e.vars.Accepts [.text "seven", .integer 2] := by
    intro haccepts
    obtain ⟨value, hvalue⟩ := haccepts.fit 0 (.text "seven") (.table ⟨1⟩) rfl rfl
    cases hvalue
  have hfails : (e.execute source [.integer 7, .integer 2]).2 = .error .divisionByZero := by
    decide +kernel
  exact ⟨⟨ready, hready⟩, hfails,
    (execute_bindsAllOrNone hready [.integer 7, .integer 2]).2.1 haccepted,
    ((execute_bindsAllOrNone hready [.text "seven", .integer 2]).1 hrefused).2⟩

end Expression

end RecordQuery

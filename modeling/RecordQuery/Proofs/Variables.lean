import Mathlib.Data.List.Induction
import RecordQuery.Proofs.Value.Fitting
import RecordQuery.Variables

/-!
# Definitions and values of variables

The definitions of variables are their names and domains in order.  Defining a variable adds one
definition behind them and binding a value changes none.  A name stands for the latest variable of
that name (`Variables.lookup_eq_ok_iff`), and variables always hold values of their domains
(`Variables.Fit`).
-/

namespace RecordQuery.Variables

variable {vars later : Variables} {name : String} {position : Nat} {value : Value}

/-! ## Definitions -/

/-- The names and the domains of the variables in order. -/
def definitions (vars : Variables) : List (Option String × Domain) :=
  vars.entries.toList.map fun v => (v.name, v.cell.domain)

theorem length_definitions (vars : Variables) : vars.definitions.length = vars.size := by
  simp [definitions, size]

theorem definitions_getElem? (vars : Variables) (position : Nat) :
    vars.definitions[position]? =
      (vars.get? position).map fun v => (v.name, v.cell.domain) := by
  simp [definitions, get?]

theorem domain?_eq_definitions (vars : Variables) (position : Nat) :
    vars.domain? position = vars.definitions[position]?.map Prod.snd := by
  simp [definitions_getElem?, domain?, Function.comp_def]

@[simp] theorem definitions_define (vars : Variables) (name : Option String) (domain : Domain) :
    (vars.define name domain).definitions = vars.definitions ++ [(name, domain)] := by
  simp [definitions, define, Cell.empty]

theorem get_define (vars : Variables) (name : Option String) (domain : Domain) :
    (vars.define name domain).get vars.size = .ok ⟨name, vars.size, .empty domain⟩ := by
  simp [get, get?, define, size]

theorem get_eq_ok_iff : (∃ v, vars.get position = .ok v) ↔ position < vars.size := by
  unfold get get? size
  by_cases hposition : position < vars.entries.size
  · simp [hposition]
  · simp [hposition]

/-- What binding a value does: the value goes into the cell of one variable. -/
theorem bind_eq_ok (h : vars.bind position value = .ok later) :
    ∃ v cell, vars.get? position = some v ∧ v.cell.set value = .ok cell ∧
      later = vars.setCell position cell := by
  unfold bind at h
  split at h
  · cases h
  · rename_i v hget
    split at h
    · cases h
    · rename_i cell hcell
      exact ⟨v, cell, hget, hcell, (Except.ok.inj h).symm⟩

/-- Binding a value changes no definition. -/
theorem definitions_bind (h : vars.bind position value = .ok later) :
    later.definitions = vars.definitions := by
  obtain ⟨v, cell, hget, hcell, rfl⟩ := bind_eq_ok h
  refine List.ext_getElem? fun other => ?_
  rw [definitions_getElem?, definitions_getElem?, get?, setCell, Array.getElem?_modify]
  split
  · -- The variable that changes keeps its name and its domain.
    rename_i hother
    have hentry : vars.entries[other]? = some v := hother ▸ hget
    rw [get?, hentry, Option.map_some, Option.map_some, Option.map_some, (Cell.fits_of_set hcell).2]
  · rfl

/-! ## Names -/

/-- The names of the variables in order. -/
def names (vars : Variables) : List (Option String) := vars.entries.toList.map (·.name)

/-- Whether a position is that of the last variable with a name. -/
structure IsLatest (vars : Variables) (name : String) (position : Nat) : Prop where
  /-- The variable at the position has the name. -/
  named : vars.names[position]? = some (some name)
  /-- No later variable has it. -/
  last : ∀ other, vars.names[other]? = some (some name) → other ≤ position

theorem find?_nameIndex_append (entries : List Variable) (v : Variable) (name : String) :
    (nameIndex (entries ++ [v])).find? name =
      if v.name = some name then some v.position else (nameIndex entries).find? name := by
  simp only [nameIndex_append, NameIndex.enter]
  cases hname : v.name with
  | none => simp
  | some other => simp only [NameIndex.find?_insert, Option.some.injEq, eq_comm]

/-- The variables of a name are the earlier ones of it and the last, if it has the name. -/
theorem getElem?_names_append (entries : List Variable) (v : Variable) (name : String)
    (other : Nat) :
    ((entries ++ [v]).map (·.name))[other]? = some (some name) ↔
      (entries.map (·.name))[other]? = some (some name) ∨
        other = entries.length ∧ v.name = some name := by
  rw [List.map_append, List.map_singleton, List.getElem?_append, List.length_map]
  by_cases hother : other < entries.length
  · rw [if_pos hother]
    exact ⟨Or.inl, fun h => h.resolve_right fun hlast => Nat.ne_of_lt hother hlast.1⟩
  · rw [if_neg hother, List.getElem?_singleton, List.getElem?_eq_none (by simpa using hother)]
    have hzero : other - entries.length = 0 ↔ other = entries.length := by omega
    by_cases hlast : other = entries.length
    · simp [hlast]
    · simp [hzero, hlast]

/-- The index finds the greatest position of a name. -/
theorem find?_nameIndex {entries : List Variable}
    (hdense : ∀ (position : Nat) (v : Variable), entries[position]? = some v →
      v.position = position) (name : String) (position : Nat) :
    (nameIndex entries).find? name = some position ↔
      (entries.map (·.name))[position]? = some (some name) ∧
        ∀ other, (entries.map (·.name))[other]? = some (some name) → other ≤ position := by
  -- The index keeps the last entry, so the induction goes from the end of the row.
  induction entries using List.reverseRecOn with
  | nil => simp [nameIndex]
  | append_singleton entries v ih =>
      have hposition : v.position = entries.length :=
        hdense entries.length v List.getElem?_concat_length
      have hearlier (other : Nat) (w : Variable) (hw : entries[other]? = some w) :
          w.position = other :=
        hdense other w ((List.getElem?_append_left (List.getElem?_eq_some_iff.mp hw).1).trans hw)
      have hshort (other : Nat) (h : (entries.map (·.name))[other]? = some (some name)) :
          other < entries.length := by
        simpa using (List.getElem?_eq_some_iff.mp h).1
      rw [find?_nameIndex_append, hposition]
      simp only [getElem?_names_append]
      by_cases hv : v.name = some name
      · rw [if_pos hv, Option.some.injEq]
        constructor
        · rintro rfl
          exact ⟨Or.inr ⟨rfl, hv⟩, fun other hother => hother.elim
            (fun h => Nat.le_of_lt (hshort other h)) fun h => Nat.le_of_eq h.1⟩
        · rintro ⟨hfound | ⟨rfl, -⟩, hlast⟩
          · exact absurd (hlast _ (Or.inr ⟨rfl, hv⟩)) (Nat.not_le_of_lt (hshort position hfound))
          · rfl
      · simp only [hv, if_false, and_false, or_false]
        exact ih hearlier

/-- A name stands for the last variable that has it. -/
theorem lookup_eq_ok_iff : vars.lookup name = .ok position ↔ vars.IsLatest name position := by
  have hdense (other : Nat) (v : Variable) (hv : vars.entries.toList[other]? = some v) :
      v.position = other := vars.dense other v (by simpa using hv)
  have hfound := find?_nameIndex hdense name position
  rw [← vars.indexed] at hfound
  have hlookup : vars.lookup name = .ok position ↔ vars.byName.find? name = some position := by
    unfold lookup
    cases vars.byName.find? name with
    | none => simp
    | some found => simp
  exact (hlookup.trans hfound).trans ⟨fun h => ⟨h.1, h.2⟩, fun h => ⟨h.named, h.last⟩⟩

/-- The index finds nothing exactly if no variable has the name. -/
theorem find?_nameIndex_eq_none (entries : List Variable) (name : String) :
    (nameIndex entries).find? name = none ↔ some name ∉ entries.map (·.name) := by
  induction entries using List.reverseRecOn with
  | nil => simp [nameIndex]
  | append_singleton entries v ih =>
      rw [find?_nameIndex_append, List.map_append, List.mem_append, not_or, ← ih,
        List.map_singleton, List.mem_singleton]
      by_cases hv : v.name = some name
      · simp [hv]
      · simp [hv, Ne.symm hv]

/-- A name is not found exactly if no variable has it. -/
theorem lookup_eq_error_iff :
    vars.lookup name = .error (.variableNotFound name) ↔ some name ∉ vars.names := by
  rw [names, ← find?_nameIndex_eq_none, ← vars.indexed, lookup]
  cases vars.byName.find? name with
  | none => simp
  | some position => simp

/-! ## Values -/

/-- Whether all variables hold values of their domains. -/
def Fit (vars : Variables) : Prop := ∀ v ∈ vars.entries, v.cell.Fits

theorem fit_empty : empty.Fit := fun _ hmem => absurd hmem (Array.not_mem_empty _)

theorem Fit.define (h : vars.Fit) (name : Option String) (domain : Domain) :
    (vars.define name domain).Fit := by
  intro v hmem
  rcases Array.mem_push.mp hmem with hmem | rfl
  · exact h v hmem
  · exact Cell.fits_empty domain

theorem Fit.bind (h : vars.Fit) (hbind : vars.bind position value = .ok later) : later.Fit := by
  obtain ⟨v, cell, _, hcell, rfl⟩ := bind_eq_ok hbind
  intro changed hmem
  obtain ⟨other, hother⟩ := Array.getElem?_of_mem hmem
  rw [setCell, Array.getElem?_modify] at hother
  split at hother
  · obtain ⟨_, _, rfl⟩ := Option.map_eq_some_iff.mp hother
    exact (Cell.fits_of_set hcell).1
  · exact h changed (Array.mem_of_getElem? hother)

/-! ## Binding -/

variable {others : Variables} {other : Nat}

/-- Variables of the same definitions accept the same values. -/
theorem bind_congr (h : vars.definitions = others.definitions) (position : Nat) (value : Value) :
    (∃ error, vars.bind position value = .error error ∧
        others.bind position value = .error error) ∨
      ∃ bound otherBound, vars.bind position value = .ok bound ∧
        others.bind position value = .ok otherBound := by
  have hsize : vars.size = others.size := by
    rw [← length_definitions, ← length_definitions, h]
  have hentry := congrArg (·[position]?) h
  simp only [definitions_getElem?] at hentry
  unfold bind
  cases hv : vars.get? position with
  | none =>
      simp only [hv, Option.map_none, Eq.comm (a := none), Option.map_eq_none_iff] at hentry
      exact Or.inl ⟨_, rfl, by rw [hentry, hsize]⟩
  | some v =>
      simp only [hv, Option.map_some, Eq.comm (a := some _), Option.map_eq_some_iff,
        Prod.mk.injEq] at hentry
      obtain ⟨w, hw, _, hdomain⟩ := hentry
      simp only [hw, Cell.set, Cell.holding, hdomain]
      cases value.coerce v.cell.domain with
      | error fault => exact Or.inl ⟨_, rfl, rfl⟩
      | ok fitted => exact Or.inr ⟨_, _, rfl, rfl⟩

theorem value?_bind_of_ne (h : vars.bind position value = .ok later) (hne : other ≠ position) :
    later.value? other = vars.value? other := by
  obtain ⟨v, cell, _, _, rfl⟩ := bind_eq_ok h
  rw [value?, get?, setCell, Array.getElem?_modify, if_neg hne.symm]
  rfl

theorem exists_bind {domain : Domain} {fitted : Value}
    (hdomain : vars.domain? position = some domain) (hfitted : value.coerce domain = .ok fitted) :
    ∃ later, vars.bind position value = .ok later ∧ later.value? position = some fitted := by
  obtain ⟨v, hv, rfl⟩ := Option.map_eq_some_iff.mp hdomain
  refine ⟨_, by simp only [bind, hv, Cell.set, Cell.holding, hfitted, Except.map]; rfl, ?_⟩
  have hentry : vars.entries[position]? = some v := hv
  rw [value?, get?, setCell, Array.getElem?_modify, if_pos rfl, hentry]
  rfl

/-- Variables of the same definitions hold a value alike once it is bound. -/
theorem value?_bind_congr {bound otherBound : Variables}
    (h : vars.definitions = others.definitions) (hvars : vars.bind position value = .ok bound)
    (hothers : others.bind position value = .ok otherBound) :
    bound.value? position = otherBound.value? position := by
  have hdomains : vars.domain? position = others.domain? position := by
    rw [domain?_eq_definitions, domain?_eq_definitions, h]
  cases hdomain : vars.domain? position with
  | none =>
      have hnone : vars.get? position = none := Option.map_eq_none_iff.mp hdomain
      simp [bind, hnone] at hvars
  | some domain =>
      cases hfitted : value.coerce domain with
      | error fault =>
          obtain ⟨v, hv, rfl⟩ := Option.map_eq_some_iff.mp hdomain
          simp [bind, hv, Cell.set, Cell.holding, hfitted, Except.map] at hvars
      | ok fitted =>
          obtain ⟨later, hlater, hvalue⟩ := exists_bind hdomain hfitted
          obtain ⟨otherLater, hotherLater, hotherValue⟩ :=
            exists_bind (hdomains.symm.trans hdomain) hfitted
          obtain rfl := Except.ok.inj (hvars.symm.trans hlater)
          obtain rfl := Except.ok.inj (hothers.symm.trans hotherLater)
          rw [hvalue, hotherValue]

/-- Variables are their definitions and their values. -/
theorem ext_of_definitions (h : vars.definitions = others.definitions)
    (hvalues : ∀ position, position < vars.size →
      vars.value? position = others.value? position) : vars = others := by
  have hsize : vars.size = others.size := by
    rw [← length_definitions, ← length_definitions, h]
  -- The index follows from the variables, so it is enough that these are the same.
  suffices hentries : vars.entries = others.entries by
    have hindex : vars.byName = others.byName := by
      rw [vars.indexed, others.indexed, hentries]
    cases vars
    cases others
    obtain rfl := hentries
    obtain rfl := hindex
    rfl
  refine Array.ext hsize fun position hposition hotherPosition => ?_
  have hentry := congrArg (·[position]?) h
  have hvalue := hvalues position hposition
  simp only [definitions_getElem?, value?, get?, Array.getElem?_eq_getElem hposition,
    Array.getElem?_eq_getElem hotherPosition, Option.map_some, Option.some.injEq,
    Prod.mk.injEq] at hentry hvalue
  -- Positions are neither definitions nor values, but they are dense on both sides.
  have hplace : vars.entries[position].position = others.entries[position].position :=
    (vars.dense position _ (Array.getElem?_eq_getElem hposition)).trans
      (others.dense position _ (Array.getElem?_eq_getElem hotherPosition)).symm
  obtain ⟨hname, hdomain⟩ := hentry
  generalize vars.entries[position] = v at hname hdomain hvalue hplace ⊢
  generalize others.entries[position] = w at hname hdomain hvalue hplace ⊢
  obtain ⟨name, place, value, domain⟩ := v
  obtain ⟨_, _, _, _⟩ := w
  obtain rfl : name = _ := hname
  obtain rfl : place = _ := hplace
  obtain rfl : domain = _ := hdomain
  obtain rfl : value = _ := hvalue
  rfl

end RecordQuery.Variables

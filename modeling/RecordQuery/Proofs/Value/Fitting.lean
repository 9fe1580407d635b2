import RecordQuery.Proofs.Except
import RecordQuery.Value.Cell

/-!
# Values that fit a domain

A value fits a domain if converting it into the domain leaves it as it is (`Value.FitsIn`).  What a
conversion answers fits (`Value.fitsIn_of_coerce`), and so does the value of a domain before any is
set.  So every cell that is made and set by the library's own operations holds a value that fits.

A domain accepts more values than fit it: it converts nulls, integers and record numbers
(`Value.ConvertsTo`).
-/

namespace RecordQuery

/-- Whether a value belongs to a domain as it is. -/
def Value.FitsIn (value : Value) (domain : Domain) : Prop := value.coerce domain = .ok value

/-- Whether a domain accepts a value, converted if need be. -/
def Value.ConvertsTo (value : Value) (domain : Domain) : Prop :=
  ∃ fitted, value.coerce domain = .ok fitted

/-- Whether the value of a cell belongs to the cell's domain. -/
def Cell.Fits (cell : Cell) : Prop := cell.value.FitsIn cell.domain

namespace Value

variable {value fitted : Value} {domain : Domain}

theorem fitsIn_any (value : Value) : value.FitsIn .any := rfl

theorem fitsIn_dataType (value : Value) : value.FitsIn (.scalar value.dataType) := by
  cases value <;> rfl

theorem fitsIn_table (r : RecordRef) : (record r).FitsIn (.table r.table) := by
  simp [FitsIn, coerce, toRecordOf]

theorem fitsIn_of_toRecordOf {table : TableId} (h : value.toRecordOf table = .ok fitted) :
    fitted.FitsIn (.table table) := by
  have hrecord : ∃ r : RecordRef, r.table = table ∧ fitted = record r := by
    cases value with
    | null type =>
        cases h
        exact ⟨.nil table, rfl, rfl⟩
    | record r =>
        simp only [toRecordOf] at h
        split at h
        · rename_i htable
          cases h
          exact ⟨r, htable, rfl⟩
        · cases h
    | integer n =>
        simp only [toRecordOf] at h
        split at h
        · cases h
          exact ⟨_, rfl, rfl⟩
        · cases h
    | boolean _ | float _ | text _ => cases h
  obtain ⟨r, rfl, rfl⟩ := hrecord
  exact fitsIn_table r

theorem fitsIn_of_toScalarOf {type : DataType} (h : value.toScalarOf type = .ok fitted) :
    fitted.FitsIn (.scalar type) := by
  cases value with
  | null _ =>
      cases h
      rfl
  | integer n =>
      cases type <;> cases h <;> rfl
  | boolean _ | float _ | text _ | record _ =>
      cases type <;> cases h <;> rfl

theorem fitsIn_of_coerce (h : value.coerce domain = .ok fitted) : fitted.FitsIn domain := by
  cases domain with
  | any => exact fitsIn_any fitted
  | table table => exact fitsIn_of_toRecordOf h
  | scalar type => exact fitsIn_of_toScalarOf h

/-! ## Values that a domain accepts -/

theorem FitsIn.convertsTo (h : value.FitsIn domain) : value.ConvertsTo domain := ⟨value, h⟩

theorem convertsTo_any (value : Value) : value.ConvertsTo .any := ⟨value, rfl⟩

theorem convertsTo_of_isNull (h : value.isNull = true) (domain : Domain) :
    value.ConvertsTo domain := by
  cases value with
  | null type => cases domain <;> exact ⟨_, rfl⟩
  | _ => cases h

/-- Besides its own values and nulls, a scalar domain accepts integers if it is of floats, and
everything if it is of no type in particular. -/
theorem convertsTo_scalar_iff {type : DataType} :
    value.ConvertsTo (.scalar type) ↔ value.isNull = true ∨ type = .null ∨
      value.dataType = type ∨ (value.dataType = .integer ∧ type = .float) := by
  constructor
  · rintro ⟨fitted, hfitted⟩
    cases value <;> cases type <;> first | cases hfitted; done | simp [isNull, dataType]
  · intro haccepted
    cases value <;> cases type <;> first | exact ⟨_, rfl⟩ | simp [isNull, dataType] at haccepted

theorem convertsTo_dataType (value : Value) : value.ConvertsTo (.scalar value.dataType) :=
  (fitsIn_dataType value).convertsTo

/-- What a domain has it accepts as the type of the domain. -/
theorem ConvertsTo.of_dataType? {type : DataType} (h : value.ConvertsTo domain)
    (hdomain : domain.dataType? = some type) (htype : type ≠ .record) :
    value.ConvertsTo (.scalar type) := by
  cases domain with
  | any => cases hdomain
  | scalar other =>
      cases hdomain
      exact h
  | table table =>
      cases hdomain
      exact absurd rfl htype

end Value

theorem Domain.fitsIn_initial (domain : Domain) : domain.initial.FitsIn domain := by
  cases domain with
  | any => rfl
  | scalar type => rfl
  | table table => exact Value.fitsIn_table (.nil table)

namespace Cell

theorem fits_empty (domain : Domain) : (empty domain).Fits := domain.fitsIn_initial

theorem fits_free (value : Value) : (free value).Fits := value.fitsIn_any

variable {cell later : Cell} {domain : Domain} {value : Value}

theorem fits_of_holding (h : holding domain value = .ok cell) :
    cell.Fits ∧ cell.domain = domain := by
  obtain ⟨fitted, hfitted, rfl⟩ := exists_of_map_eq_ok h
  exact ⟨Value.fitsIn_of_coerce hfitted, rfl⟩

theorem fits_of_set (h : cell.set value = .ok later) :
    later.Fits ∧ later.domain = cell.domain :=
  fits_of_holding h

end Cell

end RecordQuery

/-!
# Answers that are changed

A computation whose answer is changed answers or fails just as the computation does.
-/

namespace RecordQuery

variable {ε α β : Type} {change : α → β} {computed : Except ε α}

theorem exists_of_map_eq_ok {result : β} (h : computed.map change = .ok result) :
    ∃ answer, computed = .ok answer ∧ change answer = result := by
  cases computed with
  | error error => cases h
  | ok answer =>
      cases h
      exact ⟨answer, rfl, rfl⟩

theorem eq_error_of_map_eq_error {error : ε} (h : computed.map change = .error error) :
    computed = .error error := by
  cases computed with
  | error other =>
      cases h
      rfl
  | ok answer => cases h

theorem eq_ok_of_toOption_eq_some {computed : Except ε α} {answer : α}
    (h : computed.toOption = some answer) : computed = .ok answer := by
  cases computed with
  | error error => cases h
  | ok other =>
      cases h
      rfl

theorem eq_ok_of_mapError_eq_ok {δ : Type} {rename : ε → δ} {answer : α}
    (h : computed.mapError rename = .ok answer) : computed = .ok answer := by
  cases computed with
  | error error => cases h
  | ok other => exact congrArg Except.ok (Except.ok.inj h)

theorem exists_of_mapError_eq_error {δ : Type} {rename : ε → δ} {failure : δ}
    (h : computed.mapError rename = .error failure) :
    ∃ error, computed = .error error ∧ rename error = failure := by
  cases computed with
  | error error =>
      cases h
      exact ⟨error, rfl, rfl⟩
  | ok answer => cases h

end RecordQuery

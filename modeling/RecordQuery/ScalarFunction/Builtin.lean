import RecordQuery.ScalarFunction.Basic

/-!
# Built-in functions

Text functions read any scalar through the text that shows it, and a null argument comes back as a
null of the result's type.
-/

namespace RecordQuery.ScalarFunction

/-- Refuses a wrong number of arguments in the name of a function. -/
private def checked (name : String) (signature : Signature)
    (rule : List Value → Except Error Value) (arguments : List Value) : Except Error Value :=
  match signature.checkCount arguments.length with
  | .ok () => rule arguments
  | .error fault => .error (.invalidArgument (.functionArity (Text.lower name) fault))

/-- A function whose rule sees only an accepted number of arguments. -/
private def builtin (name description : String) (signature : Signature)
    (rule : List Value → Except Error Value) : ScalarFunction where
  name := name
  description := description
  signature := signature
  evaluate := checked name signature rule

/-- A rule on the text of the only argument. -/
private def onText (result : DataType) (rule : String → Value) :
    List Value → Except Error Value
  | .null _ :: _ | [] => .ok (.null result)
  | value :: _ => .ok (rule value.describe)

/-- The number of characters of a text. -/
def length : ScalarFunction :=
  builtin "LENGTH" "character count of a text value" ⟨some .integer, 1, some 1⟩
    (onText .integer fun s => .integer (Int64.ofNat s.length))

/-- A text in lower case. -/
def lower : ScalarFunction :=
  builtin "LOWER" "text folded to lower case" ⟨some .text, 1, some 1⟩
    (onText .text fun s => .text (Text.lower s))

/-- A text in upper case. -/
def upper : ScalarFunction :=
  builtin "UPPER" "text folded to upper case" ⟨some .text, 1, some 1⟩
    (onText .text fun s => .text (Text.upper s))

/-- The magnitude of a number. -/
private def magnitude : List Value → Except Error Value
  | .null type :: _ => .ok (.null type)
  | .integer n :: _ =>
    match Decimal.int64? n.toInt.natAbs with
    | some size => .ok (.integer size)
    | none => .error (.invalidArgument (.noMagnitude n))
  | .float x :: _ => .ok (.float x.abs)
  | value :: _ => .error (.type (.notANumber value.dataType))
  | [] => .ok .unknown

/-- The magnitude of an integer or a float. -/
def abs : ScalarFunction :=
  builtin "ABS" "magnitude of an integer or float" ⟨none, 1, some 1⟩ magnitude

/-- What a value adds to a joined text: a null adds nothing. -/
private def contribution (value : Value) : String :=
  if value.isNull then "" else value.describe

/-- The texts of all arguments in a row. -/
def concat : ScalarFunction :=
  builtin "CONCAT" "text forms of all arguments, joined" ⟨some .text, 1, none⟩
    fun arguments => .ok (.text (String.join (arguments.map contribution)))

/-- The first argument that is not null, or the last one. -/
private def firstPresent (arguments : List Value) : Value :=
  match arguments.find? fun value => !value.isNull with
  | some value => value
  | none => arguments.getLastD .unknown

/-- The first argument that is not null. -/
def coalesce : ScalarFunction :=
  builtin "COALESCE" "first non-null argument" ⟨none, 1, none⟩
    fun arguments => .ok (firstPresent arguments)

/-- All built-in functions. -/
def builtins : List ScalarFunction := [length, lower, upper, abs, concat, coalesce]

/-! ## Types of results -/

private theorem eq_ok_of_evaluate {name description : String} {signature : Signature}
    {rule : List Value → Except Error Value} {arguments : List Value} {value : Value}
    (h : (builtin name description signature rule).evaluate arguments = .ok value) :
    rule arguments = .ok value := by
  simp only [builtin, checked] at h
  split at h
  · exact h
  · cases h

private theorem dataType_onText {result : DataType} {rule : String → Value}
    {arguments : List Value} {value : Value} (h : onText result rule arguments = .ok value)
    (hrule : ∀ s, (rule s).dataType = result) : value.dataType = result := by
  unfold onText at h
  split at h <;> cases h
  · rfl
  · rfl
  · exact hrule _

/-- A built-in function that declares a type returns values of this type only, nulls included. -/
theorem dataType_of_mem_builtins {function : ScalarFunction} (h : function ∈ builtins)
    {arguments : List Value} {value : Value} (hvalue : function.evaluate arguments = .ok value)
    {type : DataType} (htype : function.signature.returns = some type) :
    value.dataType = type := by
  simp only [builtins, List.mem_cons, List.not_mem_nil, or_false] at h
  rcases h with rfl | rfl | rfl | rfl | rfl | rfl <;> cases htype
  · unfold length at hvalue
    exact dataType_onText (eq_ok_of_evaluate hvalue) fun _ => rfl
  · unfold lower at hvalue
    exact dataType_onText (eq_ok_of_evaluate hvalue) fun _ => rfl
  · unfold upper at hvalue
    exact dataType_onText (eq_ok_of_evaluate hvalue) fun _ => rfl
  · unfold concat at hvalue
    cases eq_ok_of_evaluate hvalue
    rfl

end RecordQuery.ScalarFunction

import RecordQuery.Value.Basic

/-!
# Scalar functions

A scalar function has a name, a signature and a pure rule that takes argument values to a value or
to a failure.
-/

namespace RecordQuery

/-- What a function takes and returns. -/
structure Signature where
  /-- The type of the result, if the arguments do not decide it. -/
  returns : Option DataType
  /-- The least number of arguments. -/
  least : Nat
  /-- The greatest number of arguments, if there is one. -/
  most : Option Nat
  deriving DecidableEq, Repr

/-- Refuses a number of arguments outside the signature. -/
def Signature.checkCount (signature : Signature) (count : Nat) : Except ArityFault Unit :=
  if count < signature.least then .error (.tooFew signature.least count)
  else
    match signature.most with
    | some most => if most < count then .error (.tooMany most count) else .ok ()
    | none => .ok ()

/-- A function that expressions can call. -/
structure ScalarFunction where
  name : String
  /-- What the function computes, for readers. -/
  description : String
  /-- What it takes and returns. -/
  signature : Signature
  /-- Whether calls with constant arguments may be computed at compile time. -/
  isDeterministic : Bool := true
  /-- The result for a list of arguments. -/
  evaluate : List Value → Except Error Value

/-- The domain of the values that a function returns. -/
def ScalarFunction.range (function : ScalarFunction) : Domain :=
  match function.signature.returns with
  | some type => .scalar type
  | none => .any

/-- A function as dumps show it. -/
def ScalarFunction.dump (function : ScalarFunction) : String :=
  "ScalarFunction(" ++ function.name ++ ")"

end RecordQuery

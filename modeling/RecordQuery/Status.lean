/-!
# Reports of a store

A store answers a call it cannot serve with a status: a code, a message and, when the store gives
it, the place in the store that raised it.
-/

namespace RecordQuery

/-- What kind of failure a store reports. -/
inductive StatusCode where
  | success
  | endOfData
  | unknownError
  | operationNotPermitted
  | noSuchObject
  | invalidArgument
  | noMemoryAvailable
  | syntaxError
  | invalidFormat
  | objectCorrupt
  | functionNotImplemented
  deriving DecidableEq, Repr

namespace StatusCode

/-- The words for a code. -/
def label : StatusCode → String
  | success => "success"
  | endOfData => "end of data"
  | unknownError => "unknown error"
  | operationNotPermitted => "operation not permitted"
  | noSuchObject => "no such object"
  | invalidArgument => "invalid argument"
  | noMemoryAvailable => "no memory available"
  | syntaxError => "syntax error"
  | invalidFormat => "invalid format"
  | objectCorrupt => "object corrupt"
  | functionNotImplemented => "function not implemented"

/-- Whether the code reports no failure. -/
def isSuccess (code : StatusCode) : Bool := code == .success

end StatusCode

/-- The place in a store that raised a status. -/
structure StatusSource where
  file : String
  /-- The line in the file. -/
  line : Nat
  /-- The function around the line. -/
  function : String
  deriving DecidableEq, Repr

/-- A report of a store. -/
structure Status where
  /-- The kind of failure. -/
  code : StatusCode
  /-- What failed. -/
  message : String
  /-- The place that raised it. -/
  source : StatusSource := ⟨"", 0, ""⟩
  deriving DecidableEq, Repr

namespace Status

/-- The report that something does not exist. -/
def notFound (message : String) : Status := { code := .noSuchObject, message := message }

/-- A status as one line; the place is left out when it names no file. -/
def describe (status : Status) : String :=
  let place :=
    if status.source.file.isEmpty then ""
    else
      " (" ++ status.source.file ++ ":" ++ toString status.source.line ++ " " ++
        status.source.function ++ "())"
  status.code.label ++ ": " ++ status.message ++ place

end Status

end RecordQuery

import RecordQuery.Query.Parser
import RecordQuery.Script.Parser

/-!
# Reading a text into operations

A text becomes operations by the grammar of its options.  A query gives the operations of all its
clauses before a failure; a script gives all its operations or none.
-/

namespace RecordQuery

/-- The operations that a text gave and how its reading ended. -/
structure Parsed where
  operations : List Operation
  /-- The number of clauses, or the failure. -/
  outcome : Except ParseError Nat

/-- The operations of a reading of a query. -/
def Query.Reading.parsed (reading : Query.Reading) : Parsed where
  operations := Query.operationsOfAll reading.clauses
  outcome :=
    match reading.failure with
    | none => .ok reading.clauses.length
    | some error => .error error

/-- The operations of a script; there are none before all of it is read. -/
def Script.committed : Except ParseError (Array Operation) → Parsed
  | .ok ops => ⟨ops.toList, .ok 1⟩
  | .error error => ⟨[], .error error⟩

/-- Reads a text by the grammar of the options; `record` says whether there is a record to read
columns of.  A failure carries the text. -/
def parseText (options : ParseOptions) (record : Bool) (text : String) : Parsed :=
  let parsed :=
    match options.grammar with
    | .query => (Query.parse options true record text).parsed
    | .columnQuery => (Query.parse options false record text).parsed
    | .script => Script.committed (Script.emit record text)
  { parsed with outcome := parsed.outcome.mapError fun error => { error with query := text } }

end RecordQuery

import RecordQuery.Error

/-!
# Options of parsing

A text is read by one of three grammars.  The options also say which column a bare term is looked
for in, how, and what joins clauses that stand side by side.
-/

namespace RecordQuery

/-- The grammar that a text is read by. -/
inductive Grammar where
  /-- Terms, phrases, groups and column clauses. -/
  | query
  /-- The same without column clauses: every term is looked for in the default column. -/
  | columnQuery
  /-- Expressions with operators and calls. -/
  | script
  deriving DecidableEq, Repr

namespace Grammar

/-- The name of a grammar. -/
def name : Grammar → String
  | query => "query"
  | columnQuery => "column_query"
  | script => "script"

/-- The grammar of a name. -/
def ofName (name : String) : Except Error Grammar :=
  if name = "query" then .ok query
  else if name = "column_query" ∨ name = "column-query" then .ok columnQuery
  else if name = "script" then .ok script
  else .error (.unknownGrammar name)

/-- The grammar of an optional name; without one it is `query`. -/
def ofOption : Option String → Except Error Grammar
  | none => .ok query
  | some name => ofName name

end Grammar

/-- How a text is read. -/
structure ParseOptions where
  /-- The path of the column that bare terms are looked for in. -/
  defaultColumn : Option String := none
  /-- The operator of bare terms. -/
  defaultMode : Operator := .contains
  /-- What joins clauses without a connective of their own. -/
  defaultJoin : Operator := .and
  grammar : Grammar := .query
  deriving DecidableEq

namespace ParseOptions

/-- Refuses a mode that no term can have, a connective that joins nothing and a path with an empty
segment. -/
def check (options : ParseOptions) : Except Error Unit :=
  if !options.defaultMode.isMode then
    .error (.invalidOption .defaultMode options.defaultMode.name)
  else if !options.defaultJoin.isConnective then
    .error (.invalidOption .defaultJoin options.defaultJoin.name)
  else
    match options.defaultColumn with
    | none => .ok ()
    | some path =>
      if (Text.segments path).any (·.isEmpty) then
        .error (.invalidOption .defaultColumn path)
      else .ok ()

/-- Options as descriptions show them. -/
def describe (options : ParseOptions) : String :=
  "\x7bgrammar: " ++ options.grammar.name ++ ", default_column: " ++
    options.defaultColumn.getD "(none)" ++ ", default_mode: " ++ options.defaultMode.name ++
    ", default_join_operator: " ++ options.defaultJoin.name ++ "\x7d"

end ParseOptions

end RecordQuery

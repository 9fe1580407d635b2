import RecordQuery.Regexp.Bracket
import RecordQuery.Regexp.Size

/-!
# Reading a regular expression

The notation has literals, `.`, classes in brackets with set operations, the classes `\d \s \w` and
their complements, assertions, groups with flags, alternatives and the quantifiers
`? * + {n} {n,} {n,m}`.  Back references, look-around and classes by Unicode property are refused,
and so are expressions that nest too deep or grow too large.
-/

namespace RecordQuery.Regexp

/-! ## Quantifiers -/

/-- A number of repetitions, with blanks around it. -/
def readCount (flags : Flags) (input : List Char) : Option (Nat × List Char) :=
  let (digits, after) := flags.span Char.isDigit (input.dropWhile Text.isBlank)
  let count := digits.foldl (fun total c => total * 10 + (c.toNat - '0'.toNat)) 0
  if digits ≠ [] ∧ count < Nat.pow 2 32 then some (count, flags.skip (after.dropWhile Text.isBlank))
  else none

/-- The bounds of a quantifier in braces, after the opening one. -/
def readBounds (flags : Flags) (input : List Char) :
    Option ((Nat × Option Nat) × List Char) :=
  match readCount flags (flags.skip input) with
  | none => none
  | some (least, rest) =>
    match rest with
    | '}' :: after => some ((least, some least), after)
    | ',' :: rest =>
      match flags.skip rest with
      | '}' :: after => some ((least, none), after)
      | rest =>
        match readCount flags rest with
        | some (most, '}' :: after) =>
          if least ≤ most then some ((least, some most), after) else none
        | _ => none
    | _ => none

/-- Drops the mark that a quantifier prefers short matches. -/
def skipLazy : List Char → List Char
  | '?' :: rest => rest
  | input => input

/-! ## Groups -/

/-- The flags between `(?` and the `:` or `)` that ends them, and whether a group follows. -/
def readFlags (flags : Flags) (seen : List Char) (negated : Bool) :
    List Char → Option (Flags × Bool × List Char)
  | [] => none
  | c :: rest =>
    let dangling := negated && seen.head? == some '-'
    if c = ':' then if dangling then none else some (flags, true, rest)
    else if c = ')' then if dangling || seen.isEmpty then none else some (flags, false, rest)
    else if seen.contains c then none
    else if c = '-' then readFlags flags (c :: seen) true rest
    else
      match flags.set c !negated with
      | none => none
      | some changed => readFlags changed (c :: seen) negated rest

/-- Whether a character can stand in the name of a group. -/
def isGroupNameChar (first : Bool) (c : Char) : Bool :=
  c == '_' || Text.isAlphabetic c ||
    !first && (c == '.' || c == '[' || c == ']' || Text.isNumeric c)

/-- The name of a group, after its opening angle bracket. -/
def readGroupName (input : List Char) : Option (List Char × List Char) :=
  match input.span (isGroupNameChar false) with
  | (c :: name, '>' :: after) =>
    if isGroupNameChar true c then some (c :: name, after) else none
  | _ => none

/-- A part of an expression, with the number of constructs nested in it. -/
structure Part where
  /-- What the part matches. -/
  pattern : Pattern
  /-- How deep the part is nested. -/
  nesting : Nat

/-- The deepest nesting of several parts; more than one of them count as a construct of its
own. -/
def joinedNesting : List Nat → Nat
  | [] => 0
  | [nesting] => nesting
  | nestings => nestings.foldl max 0 + 1

/-- A group, or the whole expression, that has not been read to its end. -/
structure OpenGroup where
  /-- The flags in force. -/
  flags : Flags
  /-- Whether the match of the group could be asked for. -/
  capturing : Bool
  /-- The alternatives before the last bar, the latest first. -/
  alternatives : List Part
  /-- The parts since the last bar, the latest first; a change of flags is a part without a
  pattern. -/
  parts : List (Option Part)

namespace OpenGroup

/-- A group that nothing has been read of. -/
def start (flags : Flags) (capturing : Bool) : OpenGroup := ⟨flags, capturing, [], []⟩

/-- Adds a part. -/
def addPart (group : OpenGroup) (part : Part) : OpenGroup :=
  { group with parts := some part :: group.parts }

/-- Adds a pattern that nests nothing. -/
def add (group : OpenGroup) (pattern : Pattern) : OpenGroup := group.addPart ⟨pattern, 0⟩

/-- Changes the flags for what follows. -/
def setFlags (group : OpenGroup) (flags : Flags) : OpenGroup :=
  { group with flags := flags, parts := none :: group.parts }

/-- The parts since the last bar in a row. -/
def branch (group : OpenGroup) : Part :=
  ⟨(group.parts.filterMap id).foldl (fun rest part => .sequence part.pattern rest) .empty,
    joinedNesting (group.parts.map fun part? => (part?.map Part.nesting).getD 0)⟩

/-- Starts the next alternative. -/
def bar (group : OpenGroup) : OpenGroup :=
  { group with alternatives := group.branch :: group.alternatives, parts := [] }

/-- What stands inside a group that is read to its end. -/
def body (group : OpenGroup) : Part :=
  ⟨group.alternatives.foldl (fun later part => .choice part.pattern later) group.branch.pattern,
    joinedNesting (group.branch.nesting :: group.alternatives.map Part.nesting)⟩

/-- A group that is read to its end, as a part of the group around it. -/
def close (group : OpenGroup) : Part :=
  let body := group.body
  ⟨if group.capturing then .capture body.pattern else body.pattern, body.nesting + 1⟩

/-- Repeats the latest part, if it has a pattern. -/
def quantify (group : OpenGroup) (least : Nat) (most : Option Nat) : Option OpenGroup :=
  match group.parts with
  | some part :: parts =>
    some { group with
      parts := some ⟨.repetition part.pattern least most, part.nesting + 1⟩ :: parts }
  | _ => none

/-- Adds what an escape stands for. -/
def addEscape (group : OpenGroup) : Escape → OpenGroup
  | .literal c => group.add (.one (group.flags.fold (.single c)))
  | .charSet set => group.add (.one set)
  | .assertion assertion => group.add (.assert assertion)

end OpenGroup

/-! ## Whole expressions -/

/-- Reads an expression to its end.  `outer` holds the groups around the current one and `names`
the group names in use. -/
def readFrom : Nat → OpenGroup → List OpenGroup → List (List Char) → List Char → Option Part
  | 0, _, _, _, _ => none
  | fuel + 1, group, outer, names, input =>
    let opened (flags : Flags) (capturing : Bool) (names : List (List Char))
        (rest : List Char) : Option Part :=
      readFrom fuel (.start flags capturing) (group :: outer) names rest
    let named (rest : List Char) : Option Part :=
      match readGroupName rest with
      | some (name, after) =>
        if names.contains name then none else opened group.flags true (name :: names) after
      | none => none
    let quantified (least : Nat) (most : Option Nat) (rest : List Char) : Option Part :=
      match group.quantify least most with
      | some repeated => readFrom fuel repeated outer names (skipLazy rest)
      | none => none
    match group.flags.skip input with
    | [] => if outer.isEmpty then some group.body else none
    | '(' :: rest =>
      match group.flags.skip rest with
      | '?' :: 'P' :: '<' :: rest => named rest
      | '?' :: '<' :: rest => named rest
      | '?' :: rest =>
        match readFlags group.flags [] false rest with
        | none => none
        | some (flags, true, after) => opened flags false names after
        | some (flags, false, after) => readFrom fuel (group.setFlags flags) outer names after
      | rest => opened group.flags true names rest
    | ')' :: rest =>
      match outer with
      | [] => none
      | enclosing :: outer => readFrom fuel (enclosing.addPart group.close) outer names rest
    | '|' :: rest => readFrom fuel group.bar outer names rest
    | '[' :: rest =>
      let (cls, afterOpen) := openClass group.flags rest
      match readClass group.flags (rest.length + 1) cls [] afterOpen with
      | none => none
      | some (part, after) =>
        readFrom fuel (group.addPart ⟨.one part.set, part.nesting⟩) outer names after
    | '?' :: rest => quantified 0 (some 1) rest
    | '*' :: rest => quantified 0 none rest
    | '+' :: rest => quantified 1 none rest
    | '{' :: rest =>
      match readBounds group.flags rest with
      | none => none
      | some ((least, most), after) => quantified least most (group.flags.skip after)
    | '.' :: rest =>
      match group.flags.dot? with
      | some set => readFrom fuel (group.add (.one set)) outer names rest
      | none => none
    | '^' :: rest =>
      readFrom fuel (group.add (.assert group.flags.lineStart)) outer names rest
    | '$' :: rest => readFrom fuel (group.add (.assert group.flags.lineEnd)) outer names rest
    | '\\' :: rest =>
      match readEscape group.flags rest with
      | none => none
      | some (escape, after) => readFrom fuel (group.addEscape escape) outer names after
    | c :: rest => readFrom fuel (group.addEscape (.literal c)) outer names rest

/-- The deepest nesting of groups, quantifiers, classes and the like that is accepted. -/
def maxNesting : Nat := 250

/-- The pattern that a text stands for, if it is a regular expression. -/
def Pattern.ofText? (source : String) : Option Pattern :=
  match readFrom (source.toList.length + 1) (.start {} false) [] [] source.toList with
  | none => none
  | some part =>
    if part.nesting ≤ maxNesting ∧ part.pattern.room ≤ maxRoom then some part.pattern else none

end RecordQuery.Regexp

import RecordQuery.Regexp.Escape

/-!
# Classes in brackets

A class lists characters, ranges, escapes, named ASCII classes and further classes, with set
operations between them.  Classes that are still open form a stack, so that nesting needs no
recursion.
-/

namespace RecordQuery.Regexp

/-! ## Named classes -/

/-- The named classes of ASCII characters. -/
def asciiClasses : List (String × List (Char × Char)) := [
  ("alnum", [('0', '9'), ('A', 'Z'), ('a', 'z')]),
  ("alpha", [('A', 'Z'), ('a', 'z')]),
  ("ascii", [('\x00', '\x7f')]),
  ("blank", [('\t', '\t'), (' ', ' ')]),
  ("cntrl", [('\x00', '\x1f'), ('\x7f', '\x7f')]),
  ("digit", [('0', '9')]),
  ("graph", [('!', '~')]),
  ("lower", [('a', 'z')]),
  ("print", [(' ', '~')]),
  ("punct", [('!', '/'), (':', '@'), ('[', '\x60'), ('\x7b', '~')]),
  ("space", [('\t', '\r'), (' ', ' ')]),
  ("upper", [('A', 'Z')]),
  ("word", [('0', '9'), ('A', 'Z'), ('_', '_'), ('a', 'z')]),
  ("xdigit", [('0', '9'), ('A', 'F'), ('a', 'f')])]

/-- A named class as it is written: whether it is a complement, and the members of the name. -/
structure NamedClass where
  /-- Whether the class holds all other characters. -/
  negated : Bool
  /-- The members that the name stands for. -/
  members : CharSet

/-- The set of a named class, unless the flags refuse it. -/
def NamedClass.toSet? (named : NamedClass) (flags : Flags) : Option CharSet :=
  if named.negated then flags.complement? named.members else some named.members

/-- A named class after its opening bracket, such as `:alpha:]` or `:^alpha:]`. -/
def readNamedClass (input : List Char) : Option (NamedClass × List Char) :=
  match input with
  | ':' :: rest =>
    let (negated, named) :=
      match rest with
      | '^' :: named => (true, named)
      | named => (false, named)
    match named.span (· != ':') with
    | (name, ':' :: ']' :: after) =>
      (asciiClasses.lookup (String.ofList name)).map fun ranges =>
        (⟨negated, .ofRanges ranges⟩, after)
    | _ => none
  | _ => none

/-! ## Open classes -/

/-- The operations between the parts of a class. -/
inductive SetOperation where
  | intersection
  | difference
  | exclusive

/-- The result of an operation on two sets. -/
def SetOperation.apply : SetOperation → CharSet → CharSet → CharSet
  | intersection, left, right => .intersection left right
  | difference, left, right => .difference left right
  | exclusive, left, right => .exclusive left right

/-- A part of a class, with the number of constructs nested in it. -/
structure ClassPart where
  /-- The members of the part. -/
  set : CharSet
  /-- How deep the part is nested. -/
  nesting : Nat

/-- Several parts side by side; more than one of them count as a construct of its own. -/
def ClassPart.join : List ClassPart → ClassPart
  | [] => ⟨.nothing, 0⟩
  | [part] => part
  | parts =>
    ⟨parts.foldl (fun set part => .union set part.set) .nothing,
      parts.foldl (fun deepest part => max deepest part.nesting) 0 + 1⟩

/-- A class whose closing bracket has not been read. -/
structure OpenClass where
  /-- Whether the class is the complement of its members. -/
  negated : Bool
  /-- The left operand and the operation that waits for its right one. -/
  pending : Option (ClassPart × SetOperation)
  /-- The parts since the last operation. -/
  parts : List ClassPart

namespace OpenClass

/-- Adds a part. -/
def add (cls : OpenClass) (part : ClassPart) : OpenClass :=
  { cls with parts := part :: cls.parts }

/-- Adds members that nest nothing. -/
def addSet (cls : OpenClass) (set : CharSet) : OpenClass := cls.add ⟨set, 0⟩

/-- The parts with the pending operation applied. -/
def combined (cls : OpenClass) (flags : Flags) : ClassPart :=
  let right := ClassPart.join cls.parts
  match cls.pending with
  | none => right
  | some (left, operation) =>
    ⟨operation.apply (flags.fold left.set) (flags.fold right.set),
      max left.nesting right.nesting + 1⟩

/-- Starts the right operand of an operation. -/
def operate (cls : OpenClass) (flags : Flags) (operation : SetOperation) : OpenClass :=
  { cls with pending := some (cls.combined flags, operation), parts := [] }

/-- A class that is closed, unless the flags refuse its complement. -/
def close (cls : OpenClass) (flags : Flags) : Option ClassPart :=
  let part := cls.combined flags
  let set? := if cls.negated then flags.complement? part.set else some (flags.fold part.set)
  set?.map fun set => ⟨set, part.nesting + 1⟩

end OpenClass

/-- Reads the dashes that open a class as themselves. -/
def readLeadingDashes (flags : Flags) (cls : OpenClass) (input : List Char) :
    OpenClass × List Char :=
  let (dashes, rest) := flags.span (· == '-') input
  (dashes.foldl (fun cls dash => cls.addSet (.single dash)) cls, rest)

/-- Opens a class after its bracket: a `^`, dashes, and a bracket that closes nothing yet. -/
def openClass (flags : Flags) (input : List Char) : OpenClass × List Char :=
  let (negated, rest) :=
    match flags.skip input with
    | '^' :: rest => (true, rest)
    | rest => (false, rest)
  match readLeadingDashes flags ⟨negated, none, []⟩ (flags.skip rest) with
  | (cls, ']' :: after) =>
    if cls.parts.isEmpty then (cls.addSet (.single ']'), after) else (cls, ']' :: after)
  | opened => opened

/-! ## Items -/

/-- One literal or escape inside a class.  Without Unicode a literal beyond ASCII would stand for
parts of a character and is refused. -/
def readClassItem (flags : Flags) (input : List Char) : Option (Escape × List Char) :=
  let item :=
    match input with
    | [] => none
    | '\\' :: rest => readEscape flags rest
    | c :: rest => some (.literal c, rest)
  match item with
  | some (.literal c, _) => if flags.unicode || Text.isAscii c then item else none
  | _ => item

/-- The members that an item stands for; assertions stand for none. -/
def Escape.toSet? : Escape → Option CharSet
  | literal c => some (.single c)
  | charSet set => some set
  | assertion _ => none

/-- What stands behind blanks when looking one character ahead; of a comment only its mark is
passed over. -/
def lookAhead (flags : Flags) (input : List Char) : Option Char :=
  if !flags.extended then input.head?
  else
    match input.dropWhile Text.isBlank with
    | '#' :: rest => (rest.dropWhile Text.isBlank).head?
    | rest => rest.head?

/-- Whether a dash is followed by something that it can form a range with. -/
def formsRange (flags : Flags) (afterDash : List Char) : Bool :=
  match lookAhead flags afterDash with
  | some ']' | some '-' => false
  | _ => true

/-- One item, or a range between two literals. -/
def readClassRange (flags : Flags) (input : List Char) : Option (CharSet × List Char) :=
  match readClassItem flags input with
  | none => none
  | some (item, rest) =>
    match flags.skip rest with
    | [] => none
    | '-' :: afterDash =>
      if formsRange flags afterDash then
        match item, readClassItem flags (flags.skip afterDash) with
        | .literal first, some (.literal last, after) =>
          if first ≤ last then some (.range first last, after) else none
        | _, _ => none
      else item.toSet?.map fun set => (set, '-' :: afterDash)
    | after => item.toSet?.map fun set => (set, after)

/-! ## Whole classes -/

/-- Reads a class up to the bracket that closes the outermost one. -/
def readClass (flags : Flags) :
    Nat → OpenClass → List OpenClass → List Char → Option (ClassPart × List Char)
  | 0, _, _, _ => none
  | fuel + 1, cls, outer, input =>
    match flags.skip input with
    | [] => none
    | '[' :: rest =>
      match readNamedClass rest with
      | some (named, after) =>
        match named.toSet? flags with
        | some set => readClass flags fuel (cls.addSet set) outer after
        | none => none
      | none =>
        let (inner, after) := openClass flags rest
        readClass flags fuel inner (cls :: outer) after
    | ']' :: rest =>
      match cls.close flags, outer with
      | none, _ => none
      | some part, [] => some (part, rest)
      | some part, enclosing :: outer => readClass flags fuel (enclosing.add part) outer rest
    | '&' :: '&' :: rest => readClass flags fuel (cls.operate flags .intersection) outer rest
    | '-' :: '-' :: rest => readClass flags fuel (cls.operate flags .difference) outer rest
    | '~' :: '~' :: rest => readClass flags fuel (cls.operate flags .exclusive) outer rest
    | rest =>
      match readClassRange flags rest with
      | none => none
      | some (set, after) => readClass flags fuel (cls.addSet set) outer after

end RecordQuery.Regexp

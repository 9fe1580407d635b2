import RecordQuery.Text.Letter

/-!
# Cutting texts

Trimming, lines, and cuts at the first or at every separator.
-/

namespace RecordQuery.Text

/-- A text without the blanks around it. -/
def trim (text : List Char) : List Char :=
  ((text.dropWhile isBlank).reverse.dropWhile isBlank).reverse

/-- The parts before and after the first `separator`, if there is one. -/
def splitFirst (separator : Char) : List Char → Option (List Char × List Char)
  | [] => none
  | c :: rest =>
    if c = separator then some ([], rest)
    else (splitFirst separator rest).map fun (before, after) => (c :: before, after)

/-- The parts between separators: one more than there are separators. -/
def splitAll (separator : Char) : List Char → List (List Char)
  | [] => [[]]
  | c :: rest =>
    match splitAll separator rest with
    | [] => [[c]]
    | part :: parts => if c = separator then [] :: part :: parts else (c :: part) :: parts

/-- A line without the carriage return that belongs to its end. -/
private def withoutReturn (line : List Char) : List Char :=
  if line.getLast? = some '\r' then line.dropLast else line

/-- The parts that a line break ends, each without `\r\n` or `\n`, and what follows the last
break if that is not empty. -/
def lines (text : List Char) : List (List Char) :=
  let parts := splitAll '\n' text
  let ended := parts.dropLast.map withoutReturn
  match parts.getLast? with
  | none | some [] => ended
  | some last => ended ++ [last]

/-- The segments of a dotted path. -/
def segments (path : String) : List String :=
  (splitAll '.' path.toList).map String.ofList

/-- What follows the last dot of a name, or the whole name. -/
def afterLastDot (name : String) : String :=
  (segments name).getLastD name

/-- Texts joined by a separator. -/
def joined (separator : String) (texts : List String) : String :=
  separator.intercalate texts

end RecordQuery.Text

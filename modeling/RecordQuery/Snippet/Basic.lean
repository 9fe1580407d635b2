import RecordQuery.Error
import RecordQuery.Snippet.Window

/-!
# Snippets

A snippet cuts the most telling fragments out of a text and wraps every keyword in them in tags.
The first keyword to occur in the text takes the first tag, the next one the second, and so on
around the list of tags.
-/

namespace RecordQuery

/-- The texts put before and behind an occurrence. -/
structure Tag where
  /-- The text before. -/
  opening : String
  /-- The text behind. -/
  closing : String
  deriving DecidableEq, Repr

/-- The tags that rows of texts stand for, the first of which has number `index`. -/
def Tag.ofRowsFrom (index : Nat) : List (List String) → Except Error (List Tag)
  | [] => .ok []
  | [opening, closing] :: rows =>
    (ofRowsFrom (index + 1) rows).map fun tags => ⟨opening, closing⟩ :: tags
  | row :: _ => .error (.invalidArgument (.badTag index row.length))

/-- The tags that rows of texts stand for, two texts each. -/
def Tag.ofRows (rows : List (List String)) : Except Error (List Tag) :=
  ofRowsFrom 0 rows

/-- How snippets are cut and written. -/
structure Snippet.Options where
  /-- Whether the case of text and keywords is ignored. -/
  normalize : Bool := true
  /-- Whether blanks at the start of a fragment are dropped. -/
  skipLeadingSpaces : Bool := false
  /-- The number of characters of a fragment. -/
  width : Nat := 100
  /-- The greatest number of fragments. -/
  maxResults : Nat := 3
  /-- Whether characters of the text that HTML gives a meaning to are written as entities. -/
  htmlEscape : Bool := false
  deriving DecidableEq, Repr

/-- Refuses options that leave no fragment. -/
def Snippet.Options.check (options : Snippet.Options) : Except Error Unit :=
  if options.width = 0 then .error (.invalidArgument .snippetWidth)
  else if options.maxResults = 0 then .error (.invalidArgument .snippetResults)
  else .ok ()

/-- Keywords with the tags and options to show them in texts. -/
structure Snippet where
  /-- The keywords as they are searched for, each once and none empty. -/
  keywords : List (List Char)
  tags : List Tag
  options : Snippet.Options
  deriving DecidableEq

namespace Snippet

/-! ## Making a snippet -/

/-- A text as it is searched. -/
def normalized (options : Snippet.Options) (text : List Char) : List Char :=
  if options.normalize then text.map Text.lowerSingle else text

/-- Adds a member that is not there yet. -/
def addNew {α : Type} [BEq α] (members : List α) (x : α) : List α :=
  if members.contains x then members else members ++ [x]

/-- The members of a list at their first places. -/
def distinct {α : Type} [BEq α] (members : List α) : List α := members.foldl addNew []

/-- The snippet of keywords, tags and options. -/
def make (keywords : List String) (tags : List Tag) (options : Snippet.Options) :
    Except Error Snippet :=
  if tags.isEmpty then .error .emptyTagList
  else
    options.check.map fun _ =>
      let searched := keywords.map fun keyword => normalized options keyword.toList
      ⟨distinct (searched.filter fun keyword => !keyword.isEmpty), tags, options⟩

/-! ## Writing fragments -/

/-- The characters from one offset to another one. -/
def slice (text : List Char) (start stop : Nat) : List Char :=
  (text.drop start).take (stop - start)

/-- A character as HTML writes it. -/
def htmlChar (c : Char) : List Char :=
  if c = '<' then "&lt;".toList
  else if c = '>' then "&gt;".toList
  else if c = '&' then "&amp;".toList
  else if c = '"' then "&quot;".toList
  else [c]

/-- Characters of the text as a fragment shows them. -/
def shown (options : Snippet.Options) (text : List Char) : List Char :=
  if options.htmlEscape then text.flatMap htmlChar else text

/-- The offset of the first character from `start` on that is no blank or starts an occurrence;
`rest` is the text of the window from `start` on. -/
def skipBlanks (occurrences : List Occurrence) (start : Nat) : List Char → Nat
  | [] => start
  | c :: rest =>
    if Text.isBlank c && !(occurrences.any fun o => o.start == start) then
      skipBlanks occurrences (start + 1) rest
    else start

/-- The tags of a keyword: its rank among the keywords of the text picks them. -/
def tagOf (snippet : Snippet) (ranking : List Nat) (keyword : Nat) : Tag :=
  snippet.tags.getD (ranking.idxOf keyword % snippet.tags.length) ⟨"", ""⟩

/-- The text from `cursor` to `stop` with the occurrences in it wrapped in tags. -/
def wrapped (snippet : Snippet) (text : List Char) (ranking : List Nat) (stop cursor : Nat) :
    List Occurrence → List Char
  | [] => shown snippet.options (slice text cursor stop)
  | occurrence :: later =>
    let tag := snippet.tagOf ranking occurrence.keyword
    shown snippet.options (slice text cursor occurrence.start) ++
      (tag.opening.toList ++
        (shown snippet.options (slice text occurrence.start occurrence.stop) ++
          (tag.closing.toList ++
            wrapped snippet text ranking stop occurrence.stop later)))

/-- A window of a text as a fragment. -/
def fragment (snippet : Snippet) (text : List Char) (occurrences : List Occurrence)
    (ranking : List Nat) (window : Window) : String :=
  let start :=
    if snippet.options.skipLeadingSpaces then
      skipBlanks occurrences window.start (slice text window.start window.stop)
    else window.start
  let within := occurrences.filter fun o => start ≤ o.start && o.stop ≤ window.stop
  String.ofList (wrapped snippet text ranking window.stop start within)

/-- The fragments of a text; none if no keyword occurs in it. -/
def fragments (snippet : Snippet) (source : String) : List String :=
  let text := source.toList
  let found := occurrences snippet.keywords (normalized snippet.options text)
  let chosen :=
    windows snippet.options.width snippet.options.maxResults snippet.keywords.length text.length
      found
  let ranking := distinct (found.map (·.keyword))
  chosen.map (snippet.fragment text found ranking)

/-- A snippet as messages show it. -/
def describe (snippet : Snippet) : String :=
  let keywords := snippet.keywords.map fun keyword => Text.quoted (String.ofList keyword)
  "#<Snippet keywords=[" ++ Text.joined ", " keywords ++ "] tags=" ++
    toString snippet.tags.length ++ " width=" ++ toString snippet.options.width ++
    " max_results=" ++ toString snippet.options.maxResults ++ ">"

end Snippet

end RecordQuery

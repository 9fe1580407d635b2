import RecordQuery.Text.CaseTable
import RecordQuery.Text.Letter

/-!
# Lower case and upper case

`lower` and `upper` map whole texts and may change their length; a capital sigma becomes the final
sigma where it ends a word.
-/

namespace RecordQuery.Text

/-- The characters a table maps a character to: a listed sequence, a run's image, or itself. -/
def mapByTable (runs : List CaseRun) (sequences : List (Nat × List Nat)) (c : Char) :
    List Char :=
  match sequences.lookup c.toNat with
  | some codes => codes.map Char.ofNat
  | none =>
    match mapByRuns runs c.toNat with
    | some code => [Char.ofNat code]
    | none => [c]

/-- The lower case of one character by itself. -/
def lowerChar (c : Char) : List Char :=
  if isAscii c then [c.toLower] else mapByTable lowerRuns lowerSequences c

/-- The upper case of one character. -/
def upperChar (c : Char) : List Char :=
  if isAscii c then [c.toUpper] else mapByTable upperRuns upperSequences c

/-! ## The final sigma -/

/-- Whether a character has case. -/
def isCased (c : Char) : Bool := casedRanges.contains c.toNat

/-- Whether a character is passed over when looking for a cased neighbour. -/
def isCaseIgnorable (c : Char) : Bool := caseIgnorableRanges.contains c.toNat

/-- Whether the first character that is not passed over has case. -/
def startsCased : List Char → Bool
  | [] => false
  | c :: rest => if isCaseIgnorable c then startsCased rest else isCased c

/-- Whether a cased character still precedes after reading `c`. -/
def casedAfter (casedBefore : Bool) (c : Char) : Bool :=
  if isCaseIgnorable c then casedBefore else isCased c

/-- The small form of a capital sigma: the final one after a cased character and before none. -/
def lowerSigma (casedBefore : Bool) (rest : List Char) : Char :=
  if casedBefore && !startsCased rest then 'ς' else 'σ'

/-- The lower case of a text whose preceding character is cased or not. -/
def lowerFrom (casedBefore : Bool) : List Char → List Char
  | [] => []
  | c :: rest =>
    (if c = 'Σ' then [lowerSigma casedBefore rest] else lowerChar c) ++
      lowerFrom (casedAfter casedBefore c) rest

/-- The lower case of a text. -/
def lower (text : String) : String := String.ofList (lowerFrom false text.toList)

/-- The upper case of a text. -/
def upper (text : String) : String := String.ofList (text.toList.flatMap upperChar)

/-- The lower case of a character where that is a single character, else the character itself. -/
def lowerSingle (c : Char) : Char :=
  match lowerChar c with
  | [lowered] => lowered
  | _ => c

end RecordQuery.Text

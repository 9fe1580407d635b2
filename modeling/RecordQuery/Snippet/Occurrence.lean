import RecordQuery.Text.Case

/-!
# Occurrences of keywords in a text

The search goes through the text once.  Where several keywords match it takes the longest, and it
goes on behind what it took, so occurrences never overlap.
-/

namespace RecordQuery.Snippet

/-- A run of characters that matches a keyword. -/
structure Occurrence where
  /-- The offset of its first character. -/
  start : Nat
  /-- The offset behind its last character. -/
  stop : Nat
  /-- The index of the keyword. -/
  keyword : Nat
  deriving DecidableEq, Repr

/-- The longer of two matches, each a keyword's index and length; the first one if they are equally
long. -/
def longer (best : Option (Nat × Nat)) (index length : Nat) : Option (Nat × Nat) :=
  match best with
  | none => some (index, length)
  | some (bestIndex, bestLength) =>
    if bestLength < length then some (index, length) else some (bestIndex, bestLength)

/-- The longest of the keywords from `index` on that a text starts with, or `best`. -/
def longestMatch (text : List Char) (best : Option (Nat × Nat)) (index : Nat) :
    List (List Char) → Option (Nat × Nat)
  | [] => best
  | keyword :: later =>
    if keyword.isPrefixOf text then
      longestMatch text (longer best index keyword.length) (index + 1) later
    else longestMatch text best (index + 1) later

/-- The occurrences in a text whose first character has offset `offset`; its first `skip`
characters belong to an earlier occurrence. -/
def occurrencesFrom (keywords : List (List Char)) (offset skip : Nat) :
    List Char → List Occurrence
  | [] => []
  | c :: rest =>
    match skip with
    | skip + 1 => occurrencesFrom keywords (offset + 1) skip rest
    | 0 =>
      match longestMatch (c :: rest) none 0 keywords with
      | some (keyword, length) =>
        ⟨offset, offset + length, keyword⟩ ::
          occurrencesFrom keywords (offset + 1) (length - 1) rest
      | none => occurrencesFrom keywords (offset + 1) 0 rest

/-- The occurrences of keywords in a text. -/
def occurrences (keywords : List (List Char)) (text : List Char) : List Occurrence :=
  occurrencesFrom keywords 0 0 text

end RecordQuery.Snippet

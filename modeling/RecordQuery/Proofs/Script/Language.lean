import RecordQuery.Parse
import RecordQuery.Proofs.Script.Printing
import RecordQuery.Proofs.Script.Recognition

/-!
# The language of scripts

A text is a script exactly if its tokens are derived from the grammar and its numerals stand for
numbers (`parseText_iff_denotes`), what it becomes is the postorder of the only expression that
derives them (`parseText_of_denotes`), and every tree that is printed is such a text
(`parseText_of_tree`).
-/

namespace RecordQuery

open Script

namespace Script

/-- Whether an expression derives all tokens of a script before the one that marks the end. -/
def Denotes (script : String) (e : Expr) : Prop :=
  ∃ tokens finish, tokenize script = tokens ++ [finish] ∧ finish.isFinish = true ∧
    Derives Level.lowest e tokens

/-- A printed tree: any two tokens with a space between them, and parentheses only where an operand
binds less tightly than its place. -/
def Tree.printed (tree : Tree) : String := String.ofList tree.spelling

theorem converts_of_finish {finish : Token} (hfinish : finish.isFinish = true) :
    Converts [finish] := by
  have hkind : finish.kind = .finish := by simpa [Token.isFinish] using hfinish
  exact (converts_cons_of_kind hkind (by simp) (by simp)).mpr converts_nil

/-- The expression of a script is what the reader answers. -/
theorem parse_of_denotes {script : String} {e : Expr} (hconverts : Converts (tokenize script))
    (h : Denotes script e) : parse true script = .ok e := by
  obtain ⟨tokens, finish, htokens, hfinish, hderives⟩ := h
  rw [htokens, converts_append] at hconverts
  rw [parse, htokens]
  exact ofTokens_of_derives hderives hconverts.1 hfinish

theorem denotes_of_parse {script : String} {e : Expr} (h : parse true script = .ok e) :
    Denotes script e ∧ Converts (tokenize script) := by
  obtain ⟨tokens, finish, htokens, hfinish, hinner⟩ := tokenize_ends script
  rw [parse, htokens] at h
  obtain ⟨hderives, hconverts⟩ := derives_of_ofTokens hfinish hinner h
  rw [htokens, converts_append]
  exact ⟨⟨tokens, finish, htokens, hfinish, hderives⟩, hconverts, converts_of_finish hfinish⟩

theorem Denotes.fault?_eq_none {script : String} {e : Expr} (h : Denotes script e) :
    ∀ token ∈ tokenize script, token.fault? = none := by
  obtain ⟨tokens, finish, htokens, hfinish, hderives⟩ := h
  have hkind : finish.kind = .finish := by simpa [Token.isFinish] using hfinish
  rw [htokens, List.forall_mem_append, List.forall_mem_singleton]
  exact ⟨fun token hmem => (hderives.isProper token hmem).1, by simp [Token.fault?, hkind]⟩

/-- A script whose numerals stand for numbers is derived from one expression only. -/
theorem Denotes.unique {script : String} {e other : Expr} (hconverts : Converts (tokenize script))
    (h : Denotes script e) (hother : Denotes script other) : other = e :=
  Except.ok.inj ((parse_of_denotes hconverts hother).symm.trans (parse_of_denotes hconverts h))

/-- A spelling that is cut into tokens of an expression is a script of it, and its numerals stand
for numbers. -/
theorem denotes_of_prints {spelling : List Char} {level : Level} {e : Expr}
    (h : Prints spelling (Writes level e)) (hlevel : Level.lowest ≤ level) :
    Denotes (String.ofList spelling) e ∧ Converts (tokenize (String.ofList spelling)) := by
  have hlexes := h [] _ (Or.inl rfl) lexes_nil
  rw [List.append_nil, ← String.toList_ofList (l := spelling)] at hlexes
  obtain ⟨before, _, htokens, ⟨hderives, hconverts⟩, finish, rfl, hfinish⟩ := hlexes.tokenize
  refine ⟨⟨before, finish, htokens, hfinish, hderives.mono hlevel⟩, ?_⟩
  rw [htokens, converts_append]
  exact ⟨hconverts, converts_of_finish hfinish⟩

/-- A printed tree is a script of its expression, and its numerals stand for numbers. -/
theorem Tree.denotes (tree : Tree) :
    Denotes tree.printed tree.expr ∧ Converts (tokenize tree.printed) :=
  denotes_of_prints tree.prints tree.level_bounds.1

end Script

variable {options : ParseOptions} {text : String}

theorem parseText_eq_script (hgrammar : options.grammar = .script) (record : Bool) :
    parseText options record text =
      { Script.parsed (parse record text) with
        outcome := (Script.parsed (parse record text)).outcome.mapError
          fun error => { error with query := text } } := by
  unfold parseText
  rw [hgrammar, ← committed_emit]

/-- A script becomes the operations of its expression. -/
theorem parseText_of_denotes {e : Expr} (hgrammar : options.grammar = .script)
    (hconverts : Converts (tokenize text)) (hdenotes : Denotes text e) :
    parseText options true text = ⟨e.operations, .ok 1⟩ := by
  rw [parseText_eq_script hgrammar, parse_of_denotes hconverts hdenotes]
  rfl

/-- A text is accepted exactly if some expression derives its tokens, its numerals stand for numbers
and none of its tokens is bad. -/
theorem parseText_iff_denotes (hgrammar : options.grammar = .script) :
    (∃ count, (parseText options true text).outcome = .ok count) ↔
      (∀ token ∈ tokenize text, token.fault? = none) ∧ Converts (tokenize text) ∧
        ∃ e, Denotes text e := by
  constructor
  · rintro ⟨count, hcount⟩
    rw [parseText_eq_script hgrammar] at hcount
    cases hparse : parse true text with
    | error error =>
        rw [hparse] at hcount
        cases hcount
    | ok e =>
        obtain ⟨hdenotes, hconverts⟩ := denotes_of_parse hparse
        exact ⟨hdenotes.fault?_eq_none, hconverts, e, hdenotes⟩
  · rintro ⟨_, hconverts, e, hdenotes⟩
    exact ⟨1, by rw [parseText_of_denotes hgrammar hconverts hdenotes]⟩

theorem parseText_of_tree (hgrammar : options.grammar = .script) (tree : Tree) :
    parseText options true tree.printed = ⟨tree.expr.operations, .ok 1⟩ :=
  have ⟨hdenotes, hconverts⟩ := tree.denotes
  parseText_of_denotes hgrammar hconverts hdenotes

/-- The scripts are the texts without bad tokens and with numerals that stand for numbers whose
tokens an expression derives; the expression is the only one, and its operations are what the script
becomes.  Every tree is printed as such a script. -/
theorem parseText_precedence (hgrammar : options.grammar = .script) :
    (∀ text, (∃ count, (parseText options true text).outcome = .ok count) ↔
      (∀ token ∈ tokenize text, token.fault? = none) ∧ Converts (tokenize text) ∧
        ∃ e, Denotes text e) ∧
    (∀ text e, Converts (tokenize text) → Denotes text e →
      parseText options true text = ⟨e.operations, .ok 1⟩ ∧
        ∀ other, Denotes text other → other = e) ∧
    ∀ tree : Tree, parseText options true tree.printed = ⟨tree.expr.operations, .ok 1⟩ :=
  ⟨fun _ => parseText_iff_denotes hgrammar,
    fun _ _ hconverts hdenotes => ⟨parseText_of_denotes hgrammar hconverts hdenotes,
      fun _ hother => hdenotes.unique hconverts hother⟩,
    parseText_of_tree hgrammar⟩

/-- Operators that group to the left, one operand in parentheses, and a sign. -/
theorem parseText_precedence_grouped :
    let options : ParseOptions := { grammar := .script }
    parseText options true "a - ( b - 1 ) * 2 - c" =
        ⟨[.push (.variableAt 0), .pushValue (.text "a"), .apply .getValue 2,
          .push (.variableAt 0), .pushValue (.text "b"), .apply .getValue 2,
          .pushValue (.integer 1), .apply .minus 2,
          .pushValue (.integer 2), .apply .times 2,
          .apply .minus 2,
          .push (.variableAt 0), .pushValue (.text "c"), .apply .getValue 2,
          .apply .minus 2], .ok 1⟩ ∧
      (∃ count, (parseText options true "!a").outcome = .ok count) ∧
      parseText options true "!a" =
        ⟨[.push (.variableAt 0), .pushValue (.text "a"), .apply .getValue 2, .apply .not 1],
          .ok 1⟩ := by
  intro options
  have hgrammar : options.grammar = .script := rfl
  obtain ⟨haccepted, hread, hprinted⟩ := parseText_precedence hgrammar
  let difference : Joint := ⟨6, .minus, "-", ⟨4, _, rfl, rfl, by decide⟩⟩
  let product : Joint := ⟨7, .times, "*", ⟨5, _, rfl, rfl, by decide⟩⟩
  let name (c : Char) (hname : IsName (String.ofList [c])) : Tree := .column ⟨_, hname⟩
  let tree : Tree :=
    .binary difference
      (.binary difference (name 'a' ⟨⟨_, _, rfl, by decide, by simp⟩, by decide⟩)
        (.binary product
          (.binary difference (name 'b' ⟨⟨_, _, rfl, by decide, by simp⟩, by decide⟩)
            (.literal (.integer 1 (by decide))))
          (.literal (.integer 2 (by decide)))))
      (name 'c' ⟨⟨_, _, rfl, by decide, by simp⟩, by decide⟩)
  -- The parentheses are the only ones printed: the others follow from the levels.
  have htext : tree.printed = "a - ( b - 1 ) * 2 - c" := by decide +kernel
  have htree : parseText options true tree.printed = _ := hprinted tree
  rw [htext] at htree
  let sign : Token := ⟨.operator, "!", ⟨0, 1, 1⟩⟩
  let column : Token := ⟨.identifier, "a", ⟨1, 1, 2⟩⟩
  let finish : Token := ⟨.finish, "", ⟨2, 1, 3⟩⟩
  have htokens : tokenize "!a" = [sign, column, finish] := by rfl
  have hcolumn : Derives Level.primary (.column column.spelling) [column] := .column rfl
  have hnot : Derives Level.sign (.not (.column "a")) [sign, column] :=
    .not ⟨rfl, rfl⟩ (hcolumn.mono (Nat.le_of_ble_eq_true rfl))
  have hdenotes : Denotes "!a" (.not (.column "a")) :=
    ⟨[sign, column], finish, htokens, rfl, hnot.mono (Nat.le_of_ble_eq_true rfl)⟩
  have hconverts : Converts (tokenize "!a") := by
    simp [htokens, sign, column, finish, Token.IsNumeral]
  exact ⟨htree, (haccepted "!a").mpr ⟨hdenotes.fault?_eq_none, hconverts, _, hdenotes⟩,
    (hread _ _ hconverts hdenotes).1⟩

end RecordQuery

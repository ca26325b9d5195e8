import Mathlib.Data.List.Forall2
import TableQuery.Proofs.ClauseWords
import TableQuery.Proofs.ConditionReading
import TableQuery.Proofs.TextSpelling

/-!
# Quoted words in a condition

A query text may put the field and the literal of a predicate between double
quotes, and then they can be any strings. The quotes are undone before the
words are looked at: which clause a word opens and whether it is a parenthesis
is decided by what it says, never by how it was written.

So quoting protects against the gaps and the quotes of the text and against
nothing else. A quoted word is data exactly where the same word would be data
on a command line: when it is `Ordinary`, neither a parenthesis nor a keyword.
The predicate then selects the rows whose entry is the literal. The other
words keep their meaning inside quotes, and the last theorem shows what
becomes of each kind.
-/

namespace TableQuery

namespace Query

/-- A text between double quotes. -/
def doubleQuoted (s : String) : String :=
  String.ofList ('\x22' :: Lexeme.escape s.toList ++ ['\x22'])

/-- The text of a query for the rows in which a field has a value. The table
stands in it as it is written. -/
def equalityText (table field literal : String) : String :=
  " ".intercalate ["select", "x", "from", table, "where",
    doubleQuoted field, "=", doubleQuoted literal]

/-- The words of that query. -/
def equalityWords (path field literal : String) : List String :=
  ["select", "x", "from", path, "where", field, "=", literal]

/-- Neither a parenthesis nor, in any letter case, the keyword of a clause. -/
structure Ordinary (word : String) : Prop where
  notParenthesis : word ≠ "(" ∧ word ≠ ")"
  notKeyword : ∀ keyword ∈ ["select", "from", "where"],
    Text.folded word ≠ keyword.toList

/-! ## The text is its words -/

open Lexeme (Spelling Spelled)

theorem apart_space (raw rest : List Char) :
    Lexeme.Apart raw (' ' :: rest) := by
  intro _ c hc
  injection hc with hc
  subst hc
  decide

theorem spelled_intercalate {words : List String} {raws : List (List Char)}
    (h : List.Forall₂ (fun word raw => Spelling word.toList raw) words raws)
    {gap : List Char} (hgap : ∀ c ∈ gap, Lexeme.isGap c = true) :
    Spelled words (gap ++ [' '].intercalate raws) := by
  -- Behind the first word the gap is the space, so it must not be fixed.
  induction h generalizing gap with
  | nil =>
      rw [List.intercalate_nil, List.append_nil]
      exact .nil hgap
  | @cons word raw words raws hraw hrest ih =>
      cases hrest with
      | nil =>
          have hlast : Spelled [] [] := .nil fun c hc => by cases hc
          rw [List.intercalate_singleton, ← List.append_nil raw]
          exact .cons hgap hraw (fun _ c hc => by cases hc) hlast
      | cons =>
          have hspace : ∀ c ∈ [' '], Lexeme.isGap c = true :=
            List.forall_mem_singleton.2 rfl
          rw [List.intercalate_cons_cons, List.append_assoc]
          exact .cons hgap hraw (apart_space raw _) (ih hspace)

/-- Words that are written with a space between are the words of the text. -/
theorem ofText_intercalate {words raws : List String}
    (h : List.Forall₂ (fun word raw : String =>
      Spelling word.toList raw.toList) words raws) :
    ofText (" ".intercalate raws) = ofWords words := by
  apply ofText_of_spelled
  rw [String.toList_intercalate]
  have hgap : ∀ c ∈ ([] : List Char), Lexeme.isGap c = true :=
    fun c hc => by cases hc
  exact spelled_intercalate (List.forall₂_map_right_iff.2 h) hgap

theorem spelling_bare {word : String}
    (h : (word != "" && word.toList.all Lexeme.isWordChar) = true) :
    Spelling word.toList word.toList := by
  rw [Bool.and_eq_true, bne_iff_ne] at h
  refine .bare ?_ (List.all_eq_true.1 h.2)
  rw [Ne, String.toList_eq_nil_iff]
  exact h.1

theorem spelling_doubleQuoted (s : String) :
    Spelling s.toList (doubleQuoted s).toList := by
  rw [doubleQuoted, String.toList_ofList]
  exact .double s.toList

/-- Whatever the field and the literal are, their quotes only keep the text
together. -/
theorem ofText_equalityText {path table : String}
    (htable : Spelling path.toList table.toList) (field literal : String) :
    ofText (equalityText table field literal) =
      ofWords (equalityWords path field literal) := by
  apply ofText_intercalate
  have hselect : Spelling "select".toList "select".toList := spelling_bare rfl
  have hx : Spelling "x".toList "x".toList := spelling_bare rfl
  have hfrom : Spelling "from".toList "from".toList := spelling_bare rfl
  have hwhere : Spelling "where".toList "where".toList := spelling_bare rfl
  have hequals : Spelling "=".toList "=".toList := spelling_bare rfl
  exact .cons hselect <| .cons hx <| .cons hfrom <| .cons htable <|
    .cons hwhere <| .cons (spelling_doubleQuoted field) <| .cons hequals <|
    .cons (spelling_doubleQuoted literal) .nil

/-! ## The words are a predicate -/

theorem Ordinary.ofWord?_eq_none {word : String} (h : Ordinary word) :
    Clause.ofWord? word = none :=
  ofWord?_eq_none_iff.2 h.notKeyword

theorem Ordinary.parenthesis?_eq_none {word : String} (h : Ordinary word) :
    Condition.parenthesis? word = none :=
  Condition.parenthesis?_eq_none h.notParenthesis.1 h.notParenthesis.2

theorem ofWords_equalityWords {path field literal : String}
    (hne : path ≠ "") (hpath : Clause.ofWord? path = none)
    (hfield : Ordinary field) (hliteral : Ordinary literal) :
    ofWords (equalityWords path field literal) =
      .ok ⟨["x"], path, [field, "=", literal]⟩ := by
  have hx : ∀ word ∈ ["x"], Clause.ofWord? word = none := by decide
  have hcondition : ∀ word ∈ [field, "=", literal], Clause.ofWord? word = none := by
    simp only [List.forall_mem_cons]
    exact ⟨hfield.ofWord?_eq_none, rfl, hliteral.ofWord?_eq_none, nofun⟩
  have hread := ofWords_inOrder hx hpath hcondition
  exact hread.trans (finish_eq_ok_iff.2 ⟨rfl, List.cons_ne_nil _ _, hne⟩)

end Query

namespace Predicate

theorem holds_equals (t : Table) (field literal : String) (row : Nat) :
    Predicate.holds t ⟨field, "=", literal⟩ row =
      decide (t.entry? field row = some literal) := by
  have hequals : Comparison.ofSymbol? "=" = some .equal := rfl
  rw [Predicate.holds, hequals]
  cases t.entry? field row with
  | none => rfl
  | some cell => simp only [Comparison.holds, Option.some.injEq]

end Predicate

namespace Query

/-- Ordinary words are data between quotes: the query is understood, and what
it selects from a loaded table is, in ascending order, the rows whose entry in
the field is the literal. -/
theorem quoted_ordinary_words_are_data
    {files : Path → Entry} {separator path table : String}
    {t : Table} {field literal : String}
    (hload : Table.load files (Path.ofString path) separator = .ok t)
    (htable : Lexeme.Spelling path.toList table.toList) (hne : path ≠ "")
    (hpath : Clause.ofWord? path = none) (hfield : Ordinary field)
    (hliteral : Ordinary literal) :
    ∃ query selection,
      ofText (equalityText table field literal) = .ok query ∧
      Selection.ofQuery files separator query = .ok selection ∧
      selection.rows.toList =
        ((List.range' 1 t.rowCount).filter fun row =>
          t.entry? field row = some literal).map Int.ofNat := by
  have htext := ofText_equalityText htable field literal
  rw [ofWords_equalityWords hne hpath hfield hliteral] at htext
  have hequals : Condition.parenthesis? "=" = none := rfl
  have htokens := Condition.tokens_predicate (t := t)
    hfield.parenthesis?_eq_none hequals hliteral.parenthesis?_eq_none []
  have hexpression : SetExpression.Expression
      (Condition.Reading.field.tokens t [field, "=", literal])
      (t.rowsWhere (Predicate.holds t ⟨field, "=", literal⟩)) := by
    rw [htokens, Predicate.matching_eq (Table.even_of_load hload)]
    exact .operand (.set _)
  obtain ⟨selection, hselection, hrows⟩ := Selection.ofQuery_of_expression
    ⟨["x"], path, [field, "=", literal]⟩ hload (List.cons_ne_nil _ _)
    hexpression
  refine ⟨_, selection, htext, hselection, ?_⟩
  -- The reading filters by `holds`, the statement by the entry itself.
  rw [hrows, funext (Predicate.holds_equals t field literal)]
  rfl

/-- A file with semicolons between the cells, quotes and backslashes in them. -/
def oddFile : List UInt8 :=
  "x;a\x22b\n1;and\n2;c\\ d\n".toList.map fun c => c.toNat.toUInt8

/-- The table of `oddFile`. -/
def oddTable : Table :=
  .ofRows (.ofString "T") ["x", "a\x22b"] [["1", "and"], ["2", "c\\ d"]]

theorem quoted_backslash_selects_second_row :
    Table.load (fun _ => .file oddFile) (.ofString "T") ";" = .ok oddTable ∧
    ∃ query selection,
      ofText (equalityText "T" "a\x22b" "c\\ d") = .ok query ∧
      Selection.ofQuery (fun _ => .file oddFile) ";" query = .ok selection ∧
      selection.rows.toList = [2] :=
  ⟨rfl, quoted_ordinary_words_are_data (t := oddTable) rfl
    (spelling_bare rfl) (by decide) rfl
    ⟨by decide, by decide⟩ ⟨by decide, by decide⟩⟩

/-- A file in which parentheses and keywords are fields and cells. -/
def clashFile : List UInt8 :=
  "x f ( select\n1 ( 2 3\n4 where 5 6\n".toList.map fun c => c.toNat.toUInt8

/-- The table of `clashFile`. -/
def clashTable : Table :=
  .ofRows (.ofString "T") ["x", "f", "(", "select"]
    [["1", "(", "2", "3"], ["4", "where", "5", "6"]]

/-- Parentheses and keywords are no data between quotes. A parenthesis opens a
group that nothing closes, as a literal and as a field. A keyword that is the
literal ends the clause, so that the predicate breaks off and no row is
selected; a keyword that is the field leaves no condition, and every row is. -/
theorem quoted_syntax_is_not_data :
    Table.load (fun _ => .file clashFile) (.ofString "T") " " =
      .ok clashTable ∧
    (clashTable.entry? "f" 1 = some "(" ∧
      ∃ query, ofText (equalityText "T" "f" "(") = .ok query ∧
        Selection.ofQuery (fun _ => .file clashFile) " " query =
          .error (.condition .unexpectedEnd)) ∧
    (clashTable.entry? "(" 1 = some "2" ∧
      ∃ query, ofText (equalityText "T" "(" "2") = .ok query ∧
        Selection.ofQuery (fun _ => .file clashFile) " " query =
          .error (.condition .unexpectedEnd)) ∧
    (clashTable.entry? "f" 2 = some "where" ∧
      ∃ query selection, ofText (equalityText "T" "f" "where") = .ok query ∧
        Selection.ofQuery (fun _ => .file clashFile) " " query =
          .ok selection ∧ selection.rows.toList = []) ∧
    (clashTable.entry? "select" 2 = some "6" ∧
      ∃ query selection, ofText (equalityText "T" "select" "3") = .ok query ∧
        Selection.ofQuery (fun _ => .file clashFile) " " query =
          .ok selection ∧ selection.rows.toList = [1, 2]) := by
  have hT : Lexeme.Spelling "T".toList "T".toList := spelling_bare rfl
  have htext := ofText_equalityText hT
  exact ⟨rfl, ⟨rfl, _, htext _ _, rfl⟩, ⟨rfl, _, htext _ _, rfl⟩,
    ⟨rfl, _, _, htext _ _, rfl, rfl⟩, ⟨rfl, _, _, htext _ _, rfl, rfl⟩⟩

end Query

end TableQuery

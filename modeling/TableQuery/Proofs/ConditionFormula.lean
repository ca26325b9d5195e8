import TableQuery.Proofs.ConditionReading

/-!
# What a well-formed condition selects

A well-formed condition is a Boolean formula over predicates, written with
`and` and `or` that bind alike and to the left. `Formula` is its syntax,
`words` how it is written, and `holds` its truth at one row of a table; the
last never mentions sets of rows.

The main statement is that the selected rows are the rows at which the formula
is true. It is an induction on the syntax in which two things are generalised.
The words may be followed by others, because the reading of a condition has no
end of its own before the words run out. And what is shown of the tokens is a
derivation, not a value: a formula in a group is an operand there, and the
grammar puts the parts together where the evaluator would need its stack.
-/

namespace TableQuery

open SetExpression (Expression)

namespace Condition

/-- A word that is no parenthesis. -/
structure PlainWord where
  text : String
  plain : text ≠ "(" ∧ text ≠ ")"

end Condition

/-- The word for a connective, in small letters. -/
def Connective.keyword : Connective → String
  | .and => "and"
  | .or => "or"

/-- What a connective makes of two truth values. -/
def Connective.apply : Connective → Bool → Bool → Bool
  | .and => Bool.and
  | .or => Bool.or

namespace Condition

/-- A word that spells a connective, in any letter case. -/
structure ConnectiveWord where
  text : String
  connective : Connective
  spells : Text.folded text = connective.keyword.toList

mutual

/-- Operands joined by connectives, to the left. -/
inductive Formula where
  | operand (o : Operand)
  | join (left : Formula) (connective : ConnectiveWord) (right : Operand)

/-- A predicate, or a formula in parentheses. -/
inductive Operand where
  | predicate (field comparison literal : PlainWord)
  | group (f : Formula)

end

mutual

/-- The words that a formula is written with. -/
def Formula.words : Formula → List String
  | .operand o => o.words
  | .join left c right => left.words ++ c.text :: right.words

def Operand.words : Operand → List String
  | .predicate field comparison literal =>
    [field.text, comparison.text, literal.text]
  | .group f => "(" :: f.words ++ [")"]

end

mutual

/-- Whether a formula is true at a row. -/
def Formula.holds (t : Table) (row : Nat) : Formula → Bool
  | .operand o => o.holds t row
  | .join left c right =>
    c.connective.apply (left.holds t row) (right.holds t row)

def Operand.holds (t : Table) (row : Nat) : Operand → Bool
  | .predicate field comparison literal =>
    Predicate.holds t ⟨field.text, comparison.text, literal.text⟩ row
  | .group f => f.holds t row

end

theorem PlainWord.parenthesis?_eq_none (w : PlainWord) :
    parenthesis? w.text = none :=
  Condition.parenthesis?_eq_none w.plain.1 w.plain.2

theorem tokens_plain_predicate {t : Table}
    (field comparison literal : PlainWord) (words : List String) :
    Reading.field.tokens t
        (field.text :: comparison.text :: literal.text :: words) =
      .set (Predicate.matching t
          ⟨field.text, comparison.text, literal.text⟩) ::
        Reading.connective.tokens t words :=
  tokens_predicate field.parenthesis?_eq_none
    comparison.parenthesis?_eq_none literal.parenthesis?_eq_none words

theorem ConnectiveWord.connective?_eq_some (w : ConnectiveWord) :
    connective? w.text = some w.connective := by
  rw [connective?, w.spells]
  cases w.connective with
  | and => rfl
  | or => rfl

theorem join_rowsWhere (c : Connective) (t : Table) (p q : Nat → Bool) :
    c.join (t.rowsWhere p) (t.rowsWhere q) =
      t.rowsWhere fun row => c.apply (p row) (q row) := by
  cases c with
  | and => exact t.rowsWhere_and p q
  | or => exact t.rowsWhere_or p q

mutual

theorem Formula.derives {t : Table} (ht : t.Even) (f : Formula) :
    ∃ ts, Expression ts (t.rowsWhere fun row => f.holds t row) ∧
      ∀ words, Reading.field.tokens t (f.words ++ words) =
        ts ++ Reading.connective.tokens t words := by
  match f with
  | .operand o =>
      obtain ⟨ts, hts, htokens⟩ := o.derives ht
      exact ⟨ts, .operand hts, htokens⟩
  | .join left c right =>
      obtain ⟨ts, hts, hleft⟩ := left.derives ht
      obtain ⟨us, hus, hright⟩ := right.derives ht
      refine ⟨ts ++ .connective c.connective :: us, ?_, fun words => ?_⟩
      · have hjoin := Expression.join c.connective hts hus
        rw [join_rowsWhere] at hjoin
        exact hjoin
      · rw [Formula.words, List.append_assoc, List.cons_append, hleft,
          tokens_connective c.connective?_eq_some, hright,
          List.append_assoc, List.cons_append]

theorem Operand.derives {t : Table} (ht : t.Even) (o : Operand) :
    ∃ ts, SetExpression.Operand ts (t.rowsWhere fun row => o.holds t row) ∧
      ∀ words, Reading.field.tokens t (o.words ++ words) =
        ts ++ Reading.connective.tokens t words := by
  match o with
  | .predicate field comparison literal =>
      have hrows := Predicate.matching_eq ht
        ⟨field.text, comparison.text, literal.text⟩
      simp only [Operand.holds, Operand.words]
      refine ⟨_, .set _, fun words => ?_⟩
      rw [← hrows]
      exact tokens_plain_predicate field comparison literal words
  | .group f =>
      -- Parentheses do not move the reading: the words of the group are read
      -- as those of a formula, with the closing one behind them.
      obtain ⟨ts, hts, htokens⟩ := f.derives ht
      refine ⟨.opening :: ts ++ [.closing], .group hts, fun words => ?_⟩
      rw [Operand.words, List.cons_append, List.cons_append, tokens_opening,
        List.append_assoc, htokens, List.singleton_append, tokens_closing]
      simp only [List.cons_append, List.append_assoc, List.nil_append]

end

theorem Formula.expression {t : Table} (ht : t.Even) (f : Formula) :
    Expression (Reading.field.tokens t f.words)
      (t.rowsWhere fun row => f.holds t row) := by
  obtain ⟨ts, hts, htokens⟩ := f.derives ht
  have hall := htokens []
  rw [List.append_nil] at hall
  rw [hall]
  show Expression (ts ++ []) _
  rw [List.append_nil]
  exact hts

theorem Formula.words_ne_nil (f : Formula) : f.words ≠ [] := by
  match f with
  | .operand (.predicate _ _ _) => simp [Formula.words, Operand.words]
  | .operand (.group _) => simp [Formula.words, Operand.words]
  | .join _ _ _ => simp [Formula.words]

/-- A well-formed condition is never refused, and what it selects from a
loaded table is, in ascending order, the rows at which its formula is true. -/
theorem formula_selects_true_rows {files : Path → Entry}
    {separator path : String} {t : Table} (fields : List String) (f : Formula)
    (hload : Table.load files (Path.ofString path) separator = .ok t) :
    ∃ selection,
      Selection.ofQuery files separator ⟨fields, path, f.words⟩ =
        .ok selection ∧
      selection.rows.toList =
        ((List.range' 1 t.rowCount).filter fun row => f.holds t row).map
          Int.ofNat := by
  have ht := Table.even_of_load hload
  obtain ⟨selection, hselection, hrows⟩ := Selection.ofQuery_of_expression
    ⟨fields, path, f.words⟩ hload f.words_ne_nil (f.expression ht)
  refine ⟨selection, hselection, ?_⟩
  rw [hrows]
  rfl

/-- `( a = 1 OR b = 5 ) and c -gt 7` -/
def sampleFormula : Formula :=
  .join
    (.operand (.group
      (.join (.operand (.predicate ⟨"a", by decide⟩ ⟨"=", by decide⟩
          ⟨"1", by decide⟩))
        ⟨"OR", .or, by decide⟩
        (.predicate ⟨"b", by decide⟩ ⟨"=", by decide⟩ ⟨"5", by decide⟩))))
    ⟨"and", .and, by decide⟩
    (.predicate ⟨"c", by decide⟩ ⟨"-gt", by decide⟩ ⟨"7", by decide⟩)

/-- A file of three fields and three rows, as bytes. -/
def sampleFile : List UInt8 :=
  "a b c\n1 4 7\n2 5 8\n3 6 9\n".toList.map fun c => c.toNat.toUInt8

/-- The table of `sampleFile`. -/
def sampleTable : Table :=
  .ofRows (.ofString "A") ["a", "b", "c"]
    [["1", "4", "7"], ["2", "5", "8"], ["3", "6", "9"]]

theorem sampleFormula_selects_second_row :
    Table.load (fun _ => .file sampleFile) (.ofString "A") " " =
      .ok sampleTable ∧
    ∃ selection,
      Selection.ofQuery (fun _ => .file sampleFile) " "
        ⟨["a"], "A", ["(", "a", "=", "1", "OR", "b", "=", "5", ")", "and",
          "c", "-gt", "7"]⟩ = .ok selection ∧
      selection.rows.toList = [2] :=
  ⟨rfl, formula_selects_true_rows (t := sampleTable) ["a"] sampleFormula rfl⟩

end Condition

end TableQuery

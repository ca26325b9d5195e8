import TableQuery.Proofs.ConditionFormula
import TableQuery.Proofs.SetRefusal

/-!
# Empty groups in a condition

For a set expression an empty group is an operand like any other: the empty
set. For the words of a condition it is none. Parentheses do not move the
reading, so behind `( )` a field is still due, and a connective that follows
is taken for that field.

`Outline` is the syntax of formulas in which a group may be empty, and `fill`
puts a predicate into every gap. As long as no connective stands behind an
empty group (`emptyGroupsLast`), the condition means what its filled form means
when the predicate matches no row. As soon as one does, the condition is
refused: the words of the next operand come one role too late, so that a set or
a parenthesis lands right behind the closing parenthesis.

Both halves are inductions on the syntax that generalise over the words that
follow. The first carries a derivation along, the second needs the evaluator's
stack, because what is refused lies inside groups that are still open.
-/

namespace TableQuery

open SetExpression (Expression walk)

namespace Condition

mutual

/-- Operands joined by connectives, to the left. -/
inductive Outline where
  | operand (o : OutlineOperand)
  | join (left : Outline) (connective : ConnectiveWord)
      (right : OutlineOperand)

/-- A predicate, or an outline in parentheses, or nothing in parentheses. -/
inductive OutlineOperand where
  | predicate (field comparison literal : PlainWord)
  | group (f : Outline)
  | emptyGroup

end

mutual

def Outline.words : Outline → List String
  | .operand o => o.words
  | .join left c right => left.words ++ c.text :: right.words

def OutlineOperand.words : OutlineOperand → List String
  | .predicate field comparison literal =>
    [field.text, comparison.text, literal.text]
  | .group f => "(" :: f.words ++ [")"]
  | .emptyGroup => ["(", ")"]

end

mutual

/-- The formula with one predicate in place of every empty group. -/
def Outline.fill (field comparison literal : PlainWord) : Outline → Formula
  | .operand o => .operand (o.fill field comparison literal)
  | .join left c right =>
    .join (left.fill field comparison literal) c
      (right.fill field comparison literal)

def OutlineOperand.fill (field comparison literal : PlainWord) :
    OutlineOperand → Operand
  | .predicate f c l => .predicate f c l
  | .group f => .group (f.fill field comparison literal)
  | .emptyGroup => .predicate field comparison literal

end

mutual

/-- Whether an outline is true at a row; an empty group is true at none. -/
def Outline.holds (t : Table) (row : Nat) : Outline → Bool
  | .operand o => o.holds t row
  | .join left c right =>
    c.connective.apply (left.holds t row) (right.holds t row)

def OutlineOperand.holds (t : Table) (row : Nat) : OutlineOperand → Bool
  | .predicate field comparison literal =>
    Predicate.holds t ⟨field.text, comparison.text, literal.text⟩ row
  | .group f => f.holds t row
  | .emptyGroup => false

end

mutual

/-- Whether the last operand is an empty group, however deep. -/
def Outline.endsEmpty : Outline → Bool
  | .operand o => o.endsEmpty
  | .join _ _ right => right.endsEmpty

def OutlineOperand.endsEmpty : OutlineOperand → Bool
  | .predicate _ _ _ => false
  | .group f => f.endsEmpty
  | .emptyGroup => true

end

mutual

/-- Whether no connective stands behind an empty group. -/
def Outline.emptyGroupsLast : Outline → Bool
  | .operand o => o.emptyGroupsLast
  | .join left _ right =>
    left.emptyGroupsLast && !left.endsEmpty && right.emptyGroupsLast

def OutlineOperand.emptyGroupsLast : OutlineOperand → Bool
  | .predicate _ _ _ => true
  | .group f => f.emptyGroupsLast
  | .emptyGroup => true

end

/-- Where the reading stands behind an outline. -/
def Reading.behind (endsEmpty : Bool) : Reading :=
  if endsEmpty then .field else .connective

/-! ## What the gaps mean -/

section

variable {t : Table} {field comparison literal : PlainWord} {row : Nat}

mutual

theorem Outline.holds_fill (hnone : Predicate.holds t
      ⟨field.text, comparison.text, literal.text⟩ row = false) (f : Outline) :
    (f.fill field comparison literal).holds t row = f.holds t row := by
  match f with
  | .operand o => exact o.holds_fill hnone
  | .join left c right =>
      rw [Outline.fill, Formula.holds, Outline.holds, left.holds_fill hnone,
        right.holds_fill hnone]

theorem OutlineOperand.holds_fill (hnone : Predicate.holds t
      ⟨field.text, comparison.text, literal.text⟩ row = false)
    (o : OutlineOperand) :
    (o.fill field comparison literal).holds t row = o.holds t row := by
  match o with
  | .predicate _ _ _ => rfl
  | .group f => exact f.holds_fill hnone
  | .emptyGroup => exact hnone

end

end

/-! ## Empty groups at the end -/

section

variable {t : Table}

mutual

theorem Outline.derives (ht : t.Even) (f : Outline)
    (hlast : f.emptyGroupsLast = true) :
    ∃ ts, Expression ts (t.rowsWhere fun row => f.holds t row) ∧
      ∀ words, Reading.field.tokens t (f.words ++ words) =
        ts ++ (Reading.behind f.endsEmpty).tokens t words := by
  match f with
  | .operand o =>
      obtain ⟨ts, hts, htokens⟩ := o.derives ht hlast
      exact ⟨ts, .operand hts, htokens⟩
  | .join left c right =>
      simp only [Outline.emptyGroupsLast, Bool.and_eq_true,
        Bool.not_eq_true'] at hlast
      obtain ⟨⟨hleftLast, hends⟩, hrightLast⟩ := hlast
      obtain ⟨ts, hts, hleft⟩ := left.derives ht hleftLast
      obtain ⟨us, hus, hright⟩ := right.derives ht hrightLast
      refine ⟨ts ++ .connective c.connective :: us, ?_, fun words => ?_⟩
      · have hjoin := Expression.join c.connective hts hus
        rw [join_rowsWhere] at hjoin
        exact hjoin
      · have hbehind : Reading.behind left.endsEmpty = .connective := by
          rw [hends]
          rfl
        rw [Outline.words, List.append_assoc, List.cons_append, hleft,
          hbehind, tokens_connective c.connective?_eq_some, hright,
          List.append_assoc, List.cons_append]
        rfl

theorem OutlineOperand.derives (ht : t.Even) (o : OutlineOperand)
    (hlast : o.emptyGroupsLast = true) :
    ∃ ts, SetExpression.Operand ts (t.rowsWhere fun row => o.holds t row) ∧
      ∀ words, Reading.field.tokens t (o.words ++ words) =
        ts ++ (Reading.behind o.endsEmpty).tokens t words := by
  match o with
  | .predicate f c l =>
      obtain ⟨ts, hts, htokens⟩ := (Operand.predicate f c l).derives ht
      exact ⟨ts, hts, htokens⟩
  | .group f =>
      obtain ⟨ts, hts, htokens⟩ := f.derives ht hlast
      refine ⟨.opening :: ts ++ [.closing], .group hts, fun words => ?_⟩
      rw [OutlineOperand.words, List.cons_append, List.cons_append,
        tokens_opening, List.append_assoc, htokens, List.singleton_append,
        tokens_closing]
      simp only [OutlineOperand.endsEmpty, List.cons_append,
        List.append_assoc, List.nil_append]
  | .emptyGroup =>
      refine ⟨[.opening, .closing], ?_, fun words => ?_⟩
      · simp only [OutlineOperand.holds, t.rowsWhere_false]
        exact .emptyGroup
      · rw [OutlineOperand.words, List.cons_append, List.cons_append,
          List.nil_append, tokens_opening, tokens_closing]
        rfl

end

end

/-! ## Connectives behind empty groups -/

section

variable {t : Table}

theorem tokens_field {word : String} (h : parenthesis? word = none)
    (words : List String) :
    Reading.field.tokens t (word :: words) =
      (Reading.comparison word).tokens t words := by
  rw [tokens_cons, Reading.step, h]
  rfl

/-- Once a word is taken for a field, the operand behind it shows a set or a
parenthesis first. -/
theorem tokens_late {word : String} (h : parenthesis? word = none)
    (o : OutlineOperand) (words : List String) :
    ∃ token rest,
      Reading.field.tokens t (word :: (o.words ++ words)) = token :: rest ∧
      (token = .opening ∨ ∃ s, token = .set s) := by
  match o with
  | .predicate field comparison literal =>
      have htokens := tokens_predicate (t := t) h field.parenthesis?_eq_none
        comparison.parenthesis?_eq_none (literal.text :: words)
      exact ⟨_, _, htokens, .inr ⟨_, rfl⟩⟩
  | .group f =>
      have htokens := tokens_opening (t := t) (.comparison word)
        (f.words ++ [")"] ++ words)
      exact ⟨_, _, (tokens_field h _).trans htokens, .inl rfl⟩
  | .emptyGroup =>
      have htokens := tokens_opening (t := t) (.comparison word)
        (")" :: words)
      exact ⟨_, _, (tokens_field h _).trans htokens, .inl rfl⟩

theorem walk_value_eq_none {outer : List SetExpression.Left} {s : IndexSet}
    {token : SetExpression.Token} {rest : List SetExpression.Token}
    (h : token = .opening ∨ ∃ s, token = .set s) :
    walk outer (.value s) (token :: rest) = none := by
  obtain rfl | ⟨u, rfl⟩ := h
  · rfl
  · rfl

mutual

theorem Outline.walk_eq_none (ht : t.Even) (f : Outline)
    (hlast : f.emptyGroupsLast = false) (outer : List SetExpression.Left)
    (words : List String) :
    walk outer (.operand none) (Reading.field.tokens t (f.words ++ words)) =
      none := by
  match f with
  | .operand o => exact o.walk_eq_none ht hlast outer none words
  | .join left c right =>
      rw [Outline.words, List.append_assoc, List.cons_append]
      cases hleftLast : left.emptyGroupsLast with
      | false => exact left.walk_eq_none ht hleftLast outer _
      | true =>
          obtain ⟨ts, hts, hleft⟩ := left.derives ht hleftLast
          rw [hleft, SetExpression.walk_append, hts.walk_eq outer,
            Option.bind_some]
          cases hends : left.endsEmpty with
          | true =>
              -- The connective stands where a field is due.
              have hplain : parenthesis? c.text = none :=
                parenthesis?_of_connective? c.connective?_eq_some
              obtain ⟨token, rest, htokens, htoken⟩ :=
                tokens_late (t := t) hplain right words
              show walk outer (.value _) (Reading.field.tokens t _) = none
              rw [htokens]
              exact walk_value_eq_none htoken
          | false =>
              have hrightLast : right.emptyGroupsLast = false := by
                simpa [Outline.emptyGroupsLast, hleftLast, hends] using hlast
              show walk outer (.value _) (Reading.connective.tokens t _) = none
              rw [tokens_connective c.connective?_eq_some]
              exact right.walk_eq_none ht hrightLast outer _ words

theorem OutlineOperand.walk_eq_none (ht : t.Even) (o : OutlineOperand)
    (hlast : o.emptyGroupsLast = false) (outer : List SetExpression.Left)
    (left : SetExpression.Left) (words : List String) :
    walk outer (.operand left) (Reading.field.tokens t (o.words ++ words)) =
      none := by
  match o with
  | .predicate _ _ _ => cases hlast
  | .group f =>
      rw [OutlineOperand.words, List.cons_append, List.cons_append,
        tokens_opening, List.append_assoc]
      exact f.walk_eq_none ht hlast (left :: outer) _
  | .emptyGroup => cases hlast

end

end

theorem Outline.words_ne_nil (f : Outline) : f.words ≠ [] := by
  match f with
  | .operand (.predicate _ _ _) => simp [Outline.words, OutlineOperand.words]
  | .operand (.group _) => simp [Outline.words, OutlineOperand.words]
  | .operand .emptyGroup => simp [Outline.words, OutlineOperand.words]
  | .join _ _ _ => simp [Outline.words]

theorem holds_of_not_hasField {t : Table} {p : Predicate}
    (h : t.hasField p.field = false) (row : Nat) : p.holds t row = false := by
  have hentry : t.entry? p.field row = none := by
    rw [Table.entry?, Table.column?_of_not_hasField h]
    rfl
  rw [Predicate.holds, hentry]
  cases Comparison.ofSymbol? p.comparison <;> rfl

/-- With its empty groups last a condition is accepted and selects what it
selects with a predicate on an unknown field in their place. With a connective
behind one of them it is refused. -/
theorem empty_groups_count_only_last {files : Path → Entry}
    {separator path : String} {t : Table} (fields : List String) (f : Outline)
    (field comparison literal : PlainWord)
    (hload : Table.load files (Path.ofString path) separator = .ok t)
    (hfield : t.hasField field.text = false) :
    (f.emptyGroupsLast = true → ∃ selection filled,
      Selection.ofQuery files separator ⟨fields, path, f.words⟩ =
        .ok selection ∧
      Selection.ofQuery files separator
        ⟨fields, path, (f.fill field comparison literal).words⟩ =
        .ok filled ∧
      selection.rows = filled.rows) ∧
    (f.emptyGroupsLast = false → ∃ token n,
      Selection.ofQuery files separator ⟨fields, path, f.words⟩ =
        .error (.condition (.unexpected token n))) := by
  have ht := Table.even_of_load hload
  constructor
  · intro hlast
    obtain ⟨ts, hts, htokens⟩ := f.derives ht hlast
    have hexpression : Expression (Reading.field.tokens t f.words)
        (t.rowsWhere fun row => f.holds t row) := by
      have hall := htokens []
      rw [List.append_nil] at hall
      rw [hall]
      show Expression (ts ++ []) _
      rw [List.append_nil]
      exact hts
    obtain ⟨selection, hselection, hrows⟩ := Selection.ofQuery_of_expression
      ⟨fields, path, f.words⟩ hload f.words_ne_nil hexpression
    obtain ⟨filled, hfilled, hfilledRows⟩ := Selection.ofQuery_of_expression
      ⟨fields, path, (f.fill field comparison literal).words⟩ hload
      (Formula.words_ne_nil _) (Formula.expression ht _)
    refine ⟨selection, filled, hselection, hfilled, ?_⟩
    rw [hrows, hfilledRows]
    congr 1
    funext row
    exact (f.holds_fill (holds_of_not_hasField hfield row)).symm
  · intro hlast
    have hwalk := f.walk_eq_none ht hlast [] []
    rw [List.append_nil] at hwalk
    obtain ⟨token, n, he⟩ := SetExpression.exists_unexpected_of_walk hwalk
    refine ⟨token, n, ?_⟩
    rw [Selection.ofQuery_eq_error_iff ⟨fields, path, f.words⟩ hload]
    exact he

/-- `a = 1 or ( )` selects what `a = 1 or z = 1` selects. -/
theorem trailing_empty_group_selects_as_filled :
    Table.load (fun _ => .file sampleFile) (.ofString "A") " " =
      .ok sampleTable ∧
    sampleTable.hasField "z" = false ∧
    ∃ selection filled,
      Selection.ofQuery (fun _ => .file sampleFile) " "
        ⟨["a"], "A", ["a", "=", "1", "or", "(", ")"]⟩ = .ok selection ∧
      Selection.ofQuery (fun _ => .file sampleFile) " "
        ⟨["a"], "A", ["a", "=", "1", "or", "z", "=", "1"]⟩ = .ok filled ∧
      selection.rows = filled.rows :=
  ⟨rfl, rfl, (empty_groups_count_only_last (t := sampleTable) ["a"]
    (.join (.operand (.predicate ⟨"a", by decide⟩ ⟨"=", by decide⟩
        ⟨"1", by decide⟩))
      ⟨"or", .or, by decide⟩ .emptyGroup)
    ⟨"z", by decide⟩ ⟨"=", by decide⟩ ⟨"1", by decide⟩ rfl rfl).1 rfl⟩

/-- `( ) or a = 1` is refused, while the same with a predicate that matches no
row in front selects the first row. -/
theorem leading_empty_group_is_refused :
    Table.load (fun _ => .file sampleFile) (.ofString "A") " " =
      .ok sampleTable ∧
    sampleTable.hasField "z" = false ∧
    Selection.ofQuery (fun _ => .file sampleFile) " "
      ⟨["a"], "A", ["(", ")", "or", "a", "=", "1"]⟩ =
        .error (.condition (.unexpected (.set .empty) 2)) ∧
    ∃ filled, Selection.ofQuery (fun _ => .file sampleFile) " "
        ⟨["a"], "A", ["z", "=", "1", "or", "a", "=", "1"]⟩ = .ok filled ∧
      filled.rows.toList = [1] :=
  ⟨rfl, rfl, rfl, _, rfl, rfl⟩

end Condition

end TableQuery

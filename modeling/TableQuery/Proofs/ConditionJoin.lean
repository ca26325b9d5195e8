import TableQuery.Proofs.ConditionParts

/-!
# Joining conditions

What the connectives mean between whole conditions. A condition that ends in
front of a connective is joined with a second one in parentheses, and the rows
that are selected are the intersection or the union of what the two select on
their own. Neither needs to be a formula: words may be passed over, predicates
may break off, parentheses may stand inside a predicate, and the second
condition may come to no tokens at all, for then its parentheses are an empty
group.

A predicate that no row can satisfy is a special case on the right of a
connective. Behind `or` it may be put in anywhere, inside open groups and into
conditions that are refused: the evaluator holds a value there
(`value_of_walk`), and joining the empty set to it leads back to the same place.
-/

namespace TableQuery

open SetExpression (walk evaluate Expression)

/-- A predicate on an unknown field, or with an unknown comparison, stands for
the empty set. -/
theorem Predicate.matching_eq_empty {t : Table} {p : Predicate}
    (h : t.hasField p.field = false ∨
      Comparison.ofSymbol? p.comparison = none) :
    p.matching t = .empty := by
  rw [matching, rows]
  cases hc : Comparison.ofSymbol? p.comparison with
  | none => rfl
  | some c =>
      rcases h with hfield | hnone
      · simp only [Table.column, Table.column?_of_not_hasField hfield]
      · rw [hc] at hnone
        cases hnone

namespace Condition

section

variable {t : Table} {ws vs : List String} {s u : IndexSet}

/-! ## Parts as operands -/

theorem expression_of_evaluate (hcount : (plainWords ws).length % 4 = 3)
    (hws : evaluate (Reading.field.tokens t ws) = .ok s) :
    Expression (Reading.field.tokens t ws) s := by
  rcases SetExpression.evaluate_eq_ok_iff.1 hws with ⟨hnil, -⟩ | hderives
  · exact absurd hnil (tokens_ne_nil hcount)
  · exact hderives

/-- A condition in parentheses is an operand, even if it makes no tokens. -/
theorem operand_group (hvs : evaluate (Reading.field.tokens t vs) = .ok u) :
    SetExpression.Operand
      (Reading.field.tokens t ("(" :: vs ++ [")"])) u := by
  rw [List.cons_append, tokens_opening, tokens_append, tokens_closing]
  exact SetExpression.operand_of_evaluate hvs

theorem operand_predicate (field comparison literal : PlainWord) :
    SetExpression.Operand
      (Reading.field.tokens t [field.text, comparison.text, literal.text])
      (Predicate.matching t ⟨field.text, comparison.text, literal.text⟩) := by
  rw [tokens_plain_predicate]
  exact .set _

theorem expression_join (c : ConnectiveWord)
    (hcount : (plainWords ws).length % 4 = 3)
    (hws : evaluate (Reading.field.tokens t ws) = .ok s)
    (hvs : SetExpression.Operand (Reading.field.tokens t vs) u) :
    Expression (Reading.field.tokens t (ws ++ c.text :: vs))
      (c.connective.join s u) := by
  rw [tokens_append, after_eq_connective hcount,
    tokens_connective c.connective?_eq_some]
  exact .join c.connective (expression_of_evaluate hcount hws) hvs

/-! ## A predicate behind `or` -/

theorem walk_insert (c : ConnectiveWord) (hc : c.connective = .or)
    {field comparison literal : PlainWord}
    (hnone : Predicate.matching t
      ⟨field.text, comparison.text, literal.text⟩ = .empty)
    (hcount : (plainWords ws).length % 4 = 3) (more : List String) :
    walk [] (.operand none) (Reading.field.tokens t
        (ws ++ c.text :: field.text :: comparison.text :: literal.text ::
          more)) =
      walk [] (.operand none) (Reading.field.tokens t (ws ++ more)) := by
  rw [tokens_append, tokens_append, after_eq_connective hcount,
    tokens_connective c.connective?_eq_some, tokens_plain_predicate, hnone,
    hc, SetExpression.walk_append, SetExpression.walk_append]
  cases hwalk : walk [] (.operand none) (Reading.field.tokens t ws) with
  | none => rfl
  | some place =>
      obtain ⟨outer, state⟩ := place
      obtain ⟨s, rfl⟩ := value_of_walk hcount hwalk
      show walk outer (.value (s.union .empty)) _ = walk outer (.value s) _
      rw [IndexSet.union_empty]

theorem tokens_append_ne_nil (hcount : (plainWords ws).length % 4 = 3)
    (more : List String) : Reading.field.tokens t (ws ++ more) ≠ [] := by
  rw [tokens_append]
  exact List.append_ne_nil_of_left_ne_nil (tokens_ne_nil hcount) _

end

/-! ## What is selected -/

open Selection (Selects Refuses)

/-- Two accepted conditions, the second one in parentheses, select together
the rows that both select when `and` stands between them, and the rows that
either selects when `or` does. The first has to end in front of a connective,
and the second must not be empty, since no condition at all selects every
row. -/
theorem connective_joins_selections {files : Path → Entry}
    {separator path : String} {fields ws vs : List String}
    {rows rows' : IndexSet} (c : ConnectiveWord)
    (hcount : (plainWords ws).length % 4 = 3) (hne : vs ≠ [])
    (hws : Selects files separator ⟨fields, path, ws⟩ rows)
    (hvs : Selects files separator ⟨fields, path, vs⟩ rows') :
    ∃ joined, Selects files separator
        ⟨fields, path, ws ++ c.text :: ("(" :: vs ++ [")"])⟩ joined ∧
      (c.connective = .and → ∀ i, i ∈ joined ↔ i ∈ rows ∧ i ∈ rows') ∧
      (c.connective = .or → ∀ i, i ∈ joined ↔ i ∈ rows ∨ i ∈ rows') := by
  obtain ⟨t, hload⟩ := hws.exists_load
  rw [Selection.selects_iff ⟨fields, path, ws⟩ hload
    (words_ne_nil hcount)] at hws
  rw [Selection.selects_iff ⟨fields, path, vs⟩ hload hne] at hvs
  have hjoin := expression_join c hcount hws (operand_group hvs)
  refine ⟨_, Selection.ofQuery_of_expression
    ⟨fields, path, ws ++ c.text :: ("(" :: vs ++ [")"])⟩ hload
    (by simp) hjoin, ?_, ?_⟩
  · intro hc i
    rw [hc]
    exact IndexSet.mem_inter
  · intro hc i
    rw [hc]
    exact IndexSet.mem_union

/-- `a = 1 or b = 5` and a condition that holds a parenthesis inside its
predicate and breaks off behind a word that is no connective. -/
theorem joined_conditions_select_second_row :
    (plainWords ["a", "=", "1", "or", "b", "=", "5"]).length % 4 = 3 ∧
    (["c", "(", "-gt", "7", ")", "xor", "b"] : List String) ≠ [] ∧
    Selects (fun _ => .file sampleFile) " "
      ⟨["a"], "A", ["a", "=", "1", "or", "b", "=", "5"]⟩
      ⟨[1, 2], by decide⟩ ∧
    Selects (fun _ => .file sampleFile) " "
      ⟨["a"], "A", ["c", "(", "-gt", "7", ")", "xor", "b"]⟩
      ⟨[2, 3], by decide⟩ ∧
    ∃ joined, Selects (fun _ => .file sampleFile) " "
        ⟨["a"], "A", ["a", "=", "1", "or", "b", "=", "5", "AND", "(", "c",
          "(", "-gt", "7", ")", "xor", "b", ")"]⟩ joined ∧
      ∀ i, i ∈ joined ↔ i = 2 := by
  have hcount :
      (plainWords ["a", "=", "1", "or", "b", "=", "5"]).length % 4 = 3 := by
    decide
  have hleft : Selects (fun _ => .file sampleFile) " "
      ⟨["a"], "A", ["a", "=", "1", "or", "b", "=", "5"]⟩
      ⟨[1, 2], by decide⟩ := ⟨_, rfl, rfl⟩
  have hright : Selects (fun _ => .file sampleFile) " "
      ⟨["a"], "A", ["c", "(", "-gt", "7", ")", "xor", "b"]⟩
      ⟨[2, 3], by decide⟩ := ⟨_, rfl, rfl⟩
  obtain ⟨joined, hjoined, hand, -⟩ := connective_joins_selections
    ⟨"AND", .and, by decide⟩ hcount (by decide) hleft hright
  refine ⟨hcount, by decide, hleft, hright, joined, hjoined, fun i => ?_⟩
  rw [hand rfl i, IndexSet.mem_def, IndexSet.mem_def]
  simp only [List.mem_cons, List.not_mem_nil, or_false]
  omega

/-- A predicate that no row can satisfy changes nothing when it is put in
behind `or`, at any place where a connective is due: what is refused stays
refused, and what is selected stays selected. Behind a last `and` it leaves no
row. -/
theorem hopeless_predicate_is_neutral {files : Path → Entry}
    {separator path : String} {t : Table} (fields : List String)
    {us : List String} (orWord andWord : ConnectiveWord)
    (hor : orWord.connective = .or) (hand : andWord.connective = .and)
    (field comparison literal : PlainWord)
    (hload : Table.load files (Path.ofString path) separator = .ok t)
    (hopeless : t.hasField field.text = false ∨
      Comparison.ofSymbol? comparison.text = none)
    (hcount : (plainWords us).length % 4 = 3) (vs : List String) :
    (Refuses files separator ⟨fields, path, us ++ orWord.text ::
        field.text :: comparison.text :: literal.text :: vs⟩ ↔
      Refuses files separator ⟨fields, path, us ++ vs⟩) ∧
    (∀ rows, Selects files separator ⟨fields, path, us ++ orWord.text ::
        field.text :: comparison.text :: literal.text :: vs⟩ rows ↔
      Selects files separator ⟨fields, path, us ++ vs⟩ rows) ∧
    ((plainWords (us ++ vs)).length % 4 = 3 →
      ∀ rows, Selects files separator ⟨fields, path, us ++ vs⟩ rows →
        Selects files separator ⟨fields, path, (us ++ vs) ++
          [andWord.text, field.text, comparison.text, literal.text]⟩
          .empty) := by
  have hempty := Predicate.matching_eq_empty (t := t)
    (p := ⟨field.text, comparison.text, literal.text⟩) hopeless
  have hne : us ≠ [] := words_ne_nil hcount
  have hselects : ∀ rows, Selects files separator ⟨fields, path,
        us ++ orWord.text :: field.text :: comparison.text ::
          literal.text :: vs⟩ rows ↔
      Selects files separator ⟨fields, path, us ++ vs⟩ rows := by
    intro rows
    rw [Selection.selects_iff ⟨fields, path, _⟩ hload (by simp),
      Selection.selects_iff ⟨fields, path, us ++ vs⟩ hload (by simp [hne]),
      SetExpression.evaluate_eq_ok_iff_walk (tokens_append_ne_nil hcount _),
      SetExpression.evaluate_eq_ok_iff_walk (tokens_append_ne_nil hcount _),
      walk_insert orWord hor hempty hcount]
  refine ⟨?_, hselects, fun hcount' rows hrows => ?_⟩
  · rw [Selection.refuses_iff ⟨fields, path, _⟩ hload,
      Selection.refuses_iff ⟨fields, path, us ++ vs⟩ hload]
    simp only [hselects]
  · rw [Selection.selects_iff ⟨fields, path, us ++ vs⟩ hload
      (words_ne_nil hcount')] at hrows
    have hjoin := expression_join andWord hcount' hrows
      (operand_predicate field comparison literal)
    rw [hand, hempty] at hjoin
    change Expression _ (rows.inter .empty) at hjoin
    rw [IndexSet.inter_empty] at hjoin
    exact Selection.ofQuery_of_expression ⟨fields, path, _⟩ hload
      (by simp) hjoin

/-- `( a = 1 ) and c = 7` with `OR z = q` inside its group, and with
`And z = q` behind it. The table has no field `z`. -/
theorem unknown_field_is_neutral_in_group :
    Table.load (fun _ => .file sampleFile) (.ofString "A") " " =
      .ok sampleTable ∧
    sampleTable.hasField "z" = false ∧
    (plainWords ["(", "a", "=", "1"]).length % 4 = 3 ∧
    Selects (fun _ => .file sampleFile) " " ⟨["a"], "A",
      ["(", "a", "=", "1", "OR", "z", "=", "q", ")", "and", "c", "=", "7"]⟩
      ⟨[1], by decide⟩ ∧
    ¬ Refuses (fun _ => .file sampleFile) " " ⟨["a"], "A",
      ["(", "a", "=", "1", "OR", "z", "=", "q", ")", "and", "c", "=",
        "7"]⟩ ∧
    Selects (fun _ => .file sampleFile) " " ⟨["a"], "A",
      ["(", "a", "=", "1", ")", "and", "c", "=", "7", "And", "z", "=", "q"]⟩
      .empty := by
  have htable : Table.load (fun _ => .file sampleFile) (.ofString "A") " " =
      .ok sampleTable := rfl
  have hcount : (plainWords ["(", "a", "=", "1"]).length % 4 = 3 := by decide
  have hrows : Selects (fun _ => .file sampleFile) " "
      ⟨["a"], "A", ["(", "a", "=", "1", ")", "and", "c", "=", "7"]⟩
      ⟨[1], by decide⟩ := ⟨_, rfl, rfl⟩
  obtain ⟨hrefuses, hselects, hlast⟩ := hopeless_predicate_is_neutral
    ["a"] ⟨"OR", .or, by decide⟩ ⟨"And", .and, by decide⟩ rfl rfl
    ⟨"z", by decide⟩ ⟨"=", by decide⟩ ⟨"q", by decide⟩ htable (.inl rfl)
    hcount [")", "and", "c", "=", "7"]
  refine ⟨htable, rfl, hcount, (hselects _).2 hrows, ?_,
    hlast (by decide) _ hrows⟩
  intro hrefused
  obtain ⟨e, he⟩ := hrefuses.1 hrefused
  cases he

end Condition

end TableQuery

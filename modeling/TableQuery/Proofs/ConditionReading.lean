import TableQuery.Proofs.SetGrammar
import TableQuery.Proofs.TableRows
import TableQuery.Selection

/-!
# From the words of a condition to rows

A condition passes through three stages: its words become tokens, each
predicate on the way becomes the set of rows that satisfy it, and the tokens
are evaluated. The lemmas here say what each stage does to one predicate, one
parenthesis or one connective *in front of any further words*, so that a
proof about a whole condition never looks into the reading again.

A predicate is understood row by row: `Predicate.holds` asks for the
comparison, then for the entry, and `matching_eq` says that the set the
reading puts in place of the predicate is the set of the rows at which it
holds. That is where tables have to be even.
-/

namespace TableQuery

/-! ## Predicates, row by row -/

theorem Comparison.mem_rows {c : Comparison} {column : List String}
    {literal : String} {i : Int} :
    i ∈ c.rows column literal ↔
      1 ≤ i ∧ ∃ cell, column[i.toNat]? = some cell ∧
        c.holds cell literal = true := by
  rw [Comparison.rows, IndexSet.mem_ofList, List.mem_filterMap]
  constructor
  · rintro ⟨⟨cell, n⟩, hmem, hif⟩
    obtain ⟨hn, hcell⟩ := List.mk_mem_zipIdx_iff_le_and_getElem?_sub.1 hmem
    obtain ⟨hholds, heq⟩ := Option.ite_none_right_eq_some.1 hif
    injection heq with heq
    subst heq
    refine ⟨Int.ofNat_le.2 hn, cell, ?_, hholds⟩
    rw [List.getElem?_drop, Nat.add_sub_cancel' hn] at hcell
    exact hcell
  · rintro ⟨hi, cell, hcell, hholds⟩
    refine ⟨(cell, i.toNat), ?_, ?_⟩
    · rw [List.mk_mem_zipIdx_iff_le_and_getElem?_sub, List.getElem?_drop,
        Nat.add_sub_cancel' (by omega)]
      exact ⟨by omega, hcell⟩
    · simp only [hholds, if_true, Option.some.injEq]
      exact Int.toNat_of_nonneg (by omega)

namespace Predicate

/-- Whether a row satisfies a predicate: the comparison is one, the field has
an entry there, and the entry compares with the literal as it says. -/
def holds (t : Table) (p : Predicate) (row : Nat) : Bool :=
  match Comparison.ofSymbol? p.comparison, t.entry? p.field row with
  | some c, some cell => c.holds cell p.literal
  | _, _ => false

/-- The set that stands for a predicate in a set expression. -/
def matching (t : Table) (p : Predicate) : IndexSet :=
  match p.rows t with
  | .ok rows => rows
  | .error _ => .empty

theorem matching_eq {t : Table} (ht : t.Even) (p : Predicate) :
    p.matching t = t.rowsWhere (p.holds t) := by
  cases hc : Comparison.ofSymbol? p.comparison with
  | none =>
      have hholds : p.holds t = fun _ => false := by
        funext row
        simp only [holds, hc]
      rw [hholds, t.rowsWhere_false, matching, rows, hc]
  | some c =>
      cases hcolumn : t.column? p.field with
      | none =>
          have hholds : p.holds t = fun _ => false := by
            funext row
            simp only [holds, hc, Table.entry?, hcolumn, Option.bind_none]
          rw [hholds, t.rowsWhere_false]
          simp only [matching, rows, hc, Table.column, hcolumn]
      | some cells =>
          apply IndexSet.ext_mem
          intro i
          have hentry : t.entry? p.field i.toNat = cells[i.toNat]? := by
            rw [Table.entry?, hcolumn, Option.bind_some]
          simp only [matching, rows, hc, Table.column, hcolumn,
            Comparison.mem_rows, Table.mem_rowsWhere, Array.getElem?_toList,
            ← hentry]
          cases hcell : t.entry? p.field i.toNat with
          | none => simp [holds, hc, hcell]
          | some cell =>
              have hle := ht.le_of_entry? hcell
              simp only [holds, hc, hcell, Option.some.injEq,
                exists_eq_left']
              constructor
              · rintro ⟨hi, hholds⟩
                exact ⟨⟨hi, by omega⟩, hholds⟩
              · rintro ⟨⟨hi, -⟩, hholds⟩
                exact ⟨hi, hholds⟩

end Predicate

/-! ## Words become tokens -/

namespace Condition

/-- The set expression that the words from a place on make. -/
def Reading.tokens (t : Table) (r : Reading) (words : List String) :
    List SetExpression.Token :=
  (r.run t words).1

theorem tokens_cons {t : Table} {r : Reading} {word : String}
    {words : List String} :
    r.tokens t (word :: words) =
      (r.step t word).2.1 ++ (r.step t word).1.tokens t words := rfl

/-- What a word that is no parenthesis adds to the tokens. -/
def Reading.emitted (t : Table) (r : Reading) (word : String) :
    List SetExpression.Token :=
  match r with
  | .field | .comparison _ => []
  | .literal f c => [.set (Predicate.matching t ⟨f, c, word⟩)]
  | .connective =>
    ((connective? word).map SetExpression.Token.connective).toList

theorem tokens_step {t : Table} {r : Reading} {word : String}
    (h : parenthesis? word = none) :
    (r.step t word).2.1 = r.emitted t word := by
  unfold Reading.step Reading.emitted
  rw [h]
  match r with
  | .field | .comparison _ => rfl
  | .literal f c =>
      simp only [Predicate.matching]
      cases Predicate.rows t ⟨f, c, word⟩ with
      | ok rows => rfl
      | error flaw => rfl
  | .connective =>
      simp only
      cases connective? word with
      | some c => rfl
      | none => rfl

theorem parenthesis?_eq_none {word : String} (h₁ : word ≠ "(")
    (h₂ : word ≠ ")") : parenthesis? word = none := by
  rw [parenthesis?, if_neg h₁, if_neg h₂]

theorem parenthesis?_eq_some {word : String} {token : SetExpression.Token}
    (h : parenthesis? word = some token) :
    token = .opening ∨ token = .closing := by
  unfold parenthesis? at h
  split at h
  · cases h
    exact .inl rfl
  · split at h
    · cases h
      exact .inr rfl
    · cases h

theorem tokens_parenthesis {t : Table} {r : Reading} {word : String}
    {token : SetExpression.Token} (h : parenthesis? word = some token)
    (words : List String) :
    r.tokens t (word :: words) = token :: r.tokens t words := by
  rw [tokens_cons, step_of_parenthesis h]
  rfl

theorem tokens_opening {t : Table} (r : Reading) (words : List String) :
    r.tokens t ("(" :: words) = .opening :: r.tokens t words :=
  tokens_parenthesis rfl words

theorem tokens_closing {t : Table} (r : Reading) (words : List String) :
    r.tokens t (")" :: words) = .closing :: r.tokens t words :=
  tokens_parenthesis rfl words

theorem tokens_predicate {t : Table} {field comparison literal : String}
    (hf : parenthesis? field = none) (hc : parenthesis? comparison = none)
    (hl : parenthesis? literal = none) (words : List String) :
    Reading.field.tokens t (field :: comparison :: literal :: words) =
      .set (Predicate.matching t ⟨field, comparison, literal⟩) ::
        Reading.connective.tokens t words := by
  simp only [tokens_cons, Reading.step, hf, hc, hl, List.nil_append]
  rw [Predicate.matching]
  cases Predicate.rows t ⟨field, comparison, literal⟩ with
  | ok rows => rfl
  | error flaw => rfl

theorem parenthesis?_of_connective? {word : String} {c : Connective}
    (h : connective? word = some c) : parenthesis? word = none := by
  apply parenthesis?_eq_none
  · rintro rfl
    have hnone : connective? "(" = none := by decide
    rw [hnone] at h
    cases h
  · rintro rfl
    have hnone : connective? ")" = none := by decide
    rw [hnone] at h
    cases h

theorem tokens_connective {t : Table} {word : String} {c : Connective}
    (h : connective? word = some c) (words : List String) :
    Reading.connective.tokens t (word :: words) =
      .connective c :: Reading.field.tokens t words := by
  rw [tokens_cons, Reading.step, parenthesis?_of_connective? h]
  simp only [h]
  rfl

end Condition

/-! ## Tokens become rows -/

namespace Selection

theorem ofQuery_of_load {files : Path → Entry}
    {separator : String} {query : Query} {t : Table}
    (h : Table.load files (Path.ofString query.table) separator = .ok t) :
    ofQuery files separator query =
      (ofTable query t).mapError .condition := by
  rw [ofQuery, h]
  rfl

/-- What is selected from a table, apart from the notes. -/
theorem map_rows_ofTable (query : Query) (t : Table) :
    (ofTable query t).map (·.rows) =
      if query.condition = [] then .ok (.upTo t.rowCount)
      else SetExpression.evaluate
        (Condition.Reading.field.tokens t query.condition) := by
  by_cases hnil : query.condition = []
  · rw [if_pos hnil, ofTable, if_pos (List.isEmpty_iff.2 hnil)]
    rfl
  · rw [if_neg hnil, ofTable, if_neg (mt List.isEmpty_iff.1 hnil)]
    show ((SetExpression.evaluate
      (Condition.Reading.field.tokens t query.condition)).map _).map _ = _
    cases SetExpression.evaluate
        (Condition.Reading.field.tokens t query.condition) with
    | error e => rfl
    | ok s => rfl

/-- A selection is made from the table that was loaded. -/
theorem load_of_ofQuery {files : Path → Entry}
    {separator : String} {query : Query} {selection : Selection}
    (h : ofQuery files separator query = .ok selection) :
    ∃ t, Table.load files (Path.ofString query.table) separator = .ok t ∧
      ofTable query t = .ok selection := by
  cases hload : Table.load files (Path.ofString query.table) separator with
  | error e =>
      rw [ofQuery, hload] at h
      cases h
  | ok t =>
      rw [ofQuery_of_load hload] at h
      cases hof : ofTable query t with
      | error e => rw [hof] at h; cases h
      | ok s =>
          rw [hof] at h
          cases h
          exact ⟨t, rfl, hof⟩

/-- A query selects just these rows. -/
def Selects (files : Path → Entry) (separator : String)
    (query : Query) (rows : IndexSet) : Prop :=
  ∃ selection, ofQuery files separator query = .ok selection ∧
    selection.rows = rows

/-- The condition of a query is refused. -/
def Refuses (files : Path → Entry) (separator : String)
    (query : Query) : Prop :=
  ∃ e, ofQuery files separator query = .error (.condition e)

section

variable {files : Path → Entry} {separator : String} {t : Table}

theorem Selects.exists_load {query : Query} {rows : IndexSet}
    (h : Selects files separator query rows) :
    ∃ t, Table.load files (Path.ofString query.table) separator = .ok t := by
  obtain ⟨selection, hselection, -⟩ := h
  obtain ⟨t, hload, -⟩ := load_of_ofQuery hselection
  exact ⟨t, hload⟩

theorem selects_iff (query : Query) {rows : IndexSet}
    (hload : Table.load files (Path.ofString query.table) separator = .ok t)
    (hne : query.condition ≠ []) :
    Selects files separator query rows ↔
      SetExpression.evaluate
        (Condition.Reading.field.tokens t query.condition) = .ok rows := by
  have hrows := map_rows_ofTable query t
  rw [if_neg hne] at hrows
  rw [← hrows, Selects, ofQuery_of_load hload]
  cases ofTable query t with
  | error e => simp [Except.mapError, Except.map]
  | ok s => simp [Except.mapError, Except.map]

/-- Over a loaded table a query is refused if it selects nothing at all, not
even no rows. -/
theorem refuses_iff (query : Query)
    (hload : Table.load files (Path.ofString query.table) separator = .ok t) :
    Refuses files separator query ↔
      ¬ ∃ rows, Selects files separator query rows := by
  simp only [Refuses, Selects, ofQuery_of_load hload]
  cases ofTable query t with
  | error e => simp [Except.mapError]
  | ok s => simp [Except.mapError]

/-- A condition whose tokens have a value selects that value. -/
theorem ofQuery_of_expression {s : IndexSet} (query : Query)
    (hload : Table.load files (Path.ofString query.table) separator = .ok t)
    (hne : query.condition ≠ [])
    (h : SetExpression.Expression
      (Condition.Reading.field.tokens t query.condition) s) :
    ∃ selection, ofQuery files separator query = .ok selection ∧
      selection.rows = s :=
  (selects_iff query hload hne).2 (SetExpression.evaluate_of_expression h)

/-- Only the tokens of the condition can be refused. -/
theorem ofQuery_eq_error_iff {e : SetExpression.Error} (query : Query)
    (h : Table.load files (Path.ofString query.table) separator = .ok t) :
    ofQuery files separator query = .error (.condition e) ↔
      SetExpression.evaluate
        (Condition.Reading.field.tokens t query.condition) = .error e := by
  rw [ofQuery_of_load h]
  have hrows := map_rows_ofTable query t
  by_cases hnil : query.condition = []
  · rw [if_pos hnil] at hrows
    rw [hnil]
    show _ ↔ Except.ok IndexSet.empty = Except.error e
    cases hof : ofTable query t with
    | error e' => rw [hof] at hrows; cases hrows
    | ok s => simp [Except.mapError]
  · rw [if_neg hnil] at hrows
    rw [← hrows]
    cases ofTable query t with
    | error e' => simp [Except.mapError, Except.map]
    | ok s => simp [Except.mapError, Except.map]

end

end Selection

end TableQuery

import TableQuery.Proofs.MappedSets
import TableQuery.Proofs.SelectedRows

/-!
# Conditions are decided row by row

Whether a query selects a row depends on that row and on nothing else in the
table. Here this is a statement about two tables. Row numbers of one of them
are sent to row numbers of the other, and every row looks like the row it is
sent to (`RowsLike`); where the other rows are, and how many there are, is left
open. Then the rows that a query selects from the first table are those that
are sent to selected rows of the second one (`map_rows_ofTable_of_rowsLike`),
and the query is refused over both tables or over none.

`selectedBack` takes a set of rows back along the numbering. It keeps unions,
intersections and the empty set, being a condition on row numbers, so all that
is left to show is that it takes the set of a predicate to the set of this
predicate, and the rest is `SetExpression.evaluate_mapSet`.
-/

namespace TableQuery

namespace Table

/-- The rows of a table that are sent into a set. -/
def selectedBack (t : Table) (send : Nat → Nat) (s : IndexSet) : IndexSet :=
  t.rowsWhere fun row => decide ((send row : Int) ∈ s.toList)

/-- Every row of a table looks like the row of another one that it is sent to. -/
structure RowsLike (t u : Table) (send : Nat → Nat) : Prop where
  within : ∀ row, 1 ≤ row → row ≤ t.rowCount →
    1 ≤ send row ∧ send row ≤ u.rowCount
  entry?_eq : ∀ name row, 1 ≤ row → row ≤ t.rowCount →
    t.entry? name row = u.entry? name (send row)

section

variable {t u : Table} {send : Nat → Nat}

theorem mem_selectedBack {s : IndexSet} {i : Int} :
    i ∈ t.selectedBack send s ↔
      (1 ≤ i ∧ i ≤ t.rowCount) ∧ (send i.toNat : Int) ∈ s := by
  rw [selectedBack, mem_rowsWhere, decide_eq_true_iff, IndexSet.mem_def]

theorem keepsJoins_selectedBack (t : Table) (send : Nat → Nat) :
    SetExpression.KeepsJoins (t.selectedBack send) where
  empty := by
    apply IndexSet.ext_mem
    intro i
    simp [mem_selectedBack]
  join c s u := by
    apply IndexSet.ext_mem
    intro i
    cases c with
    | and =>
        simp only [Connective.join, IndexSet.mem_inter, mem_selectedBack]
        tauto
    | or =>
        simp only [Connective.join, IndexSet.mem_union, mem_selectedBack]
        tauto

theorem RowsLike.selectedBack_rowsWhere (h : t.RowsLike u send)
    {p q : Nat → Bool}
    (hp : ∀ row, 1 ≤ row → row ≤ t.rowCount → p row = q (send row)) :
    t.selectedBack send (u.rowsWhere q) = t.rowsWhere p := by
  apply IndexSet.ext_mem
  intro i
  rw [mem_selectedBack, mem_rowsWhere, mem_rowsWhere, Int.toNat_natCast]
  constructor
  · rintro ⟨hi, -, hq⟩
    refine ⟨hi, ?_⟩
    rw [hp i.toNat (by omega) (by omega)]
    exact hq
  · intro ⟨hi, hholds⟩
    have hwithin := h.within i.toNat (by omega) (by omega)
    refine ⟨hi, by omega, ?_⟩
    rw [← hp i.toNat (by omega) (by omega)]
    exact hholds

theorem RowsLike.selectedBack_upTo (h : t.RowsLike u send) :
    t.selectedBack send (.upTo u.rowCount) = .upTo t.rowCount := by
  apply IndexSet.ext_mem
  intro i
  rw [mem_selectedBack, IndexSet.mem_upTo, IndexSet.mem_upTo]
  constructor
  · exact And.left
  · intro hi
    have hwithin := h.within i.toNat (by omega) (by omega)
    exact ⟨hi, by omega⟩

end

end Table

open Table (RowsLike)

section

variable {t u : Table} {send : Nat → Nat}

theorem Predicate.matching_of_rowsLike (h : t.RowsLike u send) (ht : t.Even)
    (hu : u.Even) (p : Predicate) :
    p.matching t = t.selectedBack send (p.matching u) := by
  rw [matching_eq ht, matching_eq hu]
  refine (h.selectedBack_rowsWhere ?_).symm
  intro row h₁ h₂
  rw [holds, holds, h.entry?_eq p.field row h₁ h₂]

namespace Condition

/-- What the words of a condition are is settled without the table. -/
theorem step_fst_eq (t u : Table) (r : Reading) (word : String) :
    (r.step t word).1 = (r.step u word).1 := by
  unfold Reading.step
  cases parenthesis? word with
  | some token => rfl
  | none =>
      match r with
      | .field | .comparison _ => rfl
      | .literal f c =>
          simp only
          cases Predicate.rows t ⟨f, c, word⟩ <;>
            cases Predicate.rows u ⟨f, c, word⟩ <;> rfl
      | .connective => rfl

theorem tokens_step_of_rowsLike (h : t.RowsLike u send) (ht : t.Even)
    (hu : u.Even) (r : Reading) (word : String) :
    (r.step t word).2.1 =
      ((r.step u word).2.1).map
        (SetExpression.Token.mapSet (t.selectedBack send)) := by
  cases hword : parenthesis? word with
  | some token =>
      rw [step_of_parenthesis hword, step_of_parenthesis hword]
      obtain rfl | rfl := parenthesis?_eq_some hword <;> rfl
  | none =>
      rw [tokens_step hword, tokens_step hword]
      match r with
      | .field | .comparison _ => rfl
      | .literal f c =>
          rw [Reading.emitted, Predicate.matching_of_rowsLike h ht hu]
          rfl
      | .connective =>
          simp only [Reading.emitted]
          cases connective? word <;> rfl

theorem tokens_of_rowsLike (h : t.RowsLike u send) (ht : t.Even)
    (hu : u.Even) (r : Reading) (words : List String) :
    r.tokens t words =
      (r.tokens u words).map
        (SetExpression.Token.mapSet (t.selectedBack send)) := by
  induction words generalizing r with
  | nil => rfl
  | cons word words ih =>
      rw [tokens_cons, tokens_cons, List.map_append,
        ← tokens_step_of_rowsLike h ht hu, step_fst_eq t u, ih]

end Condition

namespace Selection

/-- A query selects from a table the rows that are sent to those it selects
from the other one, and is refused where it is refused there. -/
theorem map_rows_ofTable_of_rowsLike (h : t.RowsLike u send) (ht : t.Even)
    (hu : u.Even) (query : Query) :
    (ofTable query t).map (·.rows) =
      (((ofTable query u).map (·.rows)).map (t.selectedBack send)).mapError
        (SetExpression.Error.mapSet (t.selectedBack send)) := by
  rw [map_rows_ofTable, map_rows_ofTable]
  by_cases hnil : query.condition = []
  · rw [if_pos hnil, if_pos hnil]
    exact congrArg Except.ok h.selectedBack_upTo.symm
  · rw [if_neg hnil, if_neg hnil, Condition.tokens_of_rowsLike h ht hu]
    exact SetExpression.evaluate_mapSet
      (Table.keepsJoins_selectedBack t send) _

theorem rows_of_rowsLike (h : t.RowsLike u send) (ht : t.Even) (hu : u.Even)
    {query : Query} {s r : Selection} (hs : ofTable query t = .ok s)
    (hr : ofTable query u = .ok r) :
    s.rows = t.selectedBack send r.rows := by
  have hrows := map_rows_ofTable_of_rowsLike h ht hu query
  rw [hs, hr] at hrows
  exact Except.ok.inj hrows

theorem exists_ofTable_of_rowsLike (h : t.RowsLike u send) (ht : t.Even)
    (hu : u.Even) (query : Query) :
    (∃ s, ofTable query t = .ok s) ↔ ∃ s, ofTable query u = .ok s := by
  have hrows := map_rows_ofTable_of_rowsLike h ht hu query
  cases hs : ofTable query t with
  | ok s =>
      cases hr : ofTable query u with
      | ok r => simp
      | error e => rw [hs, hr] at hrows; cases hrows
  | error e =>
      cases hr : ofTable query u with
      | ok r => rw [hs, hr] at hrows; cases hrows
      | error e => simp

end Selection

end

end TableQuery

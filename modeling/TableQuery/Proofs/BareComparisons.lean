import Mathlib.Data.String.Basic
import TableQuery.Proofs.ConditionReading
import TableQuery.Proofs.NumberOrder

/-!
# The bare comparisons

The four comparisons without a dash take any texts. Equality and its opposite
look at the texts alone, so that they part the rows of a column between them.
The two orderings turn from numbers to texts and back within one column, cell by
cell, whenever a cell or the literal is no number. They stay each other's
opposite all the same, because both turn at the same cells
(`greater_holds_eq`), and each of the two orders they turn between lets at most
one of them hold.

Where both are numbers the orderings are those of the dashed comparisons. Where
they are not, the order is that of the texts, and with equality the orderings
leave no cell out and hold of none together.
-/

namespace TableQuery

open Number (IsNumber)
open scoped ExtendedRat

namespace Comparison

/-! ## One cell and the literal -/

section

variable {a b : String}

theorem unequal_holds_eq (a b : String) : unequal.holds a b = !equal.holds a b := by
  rw [holds, holds, decide_not]

/-- Turning the texts round turns the ordering round. -/
theorem greater_holds_eq (a b : String) : greater.holds a b = less.holds b a := by
  rw [holds, holds]
  cases Number.read? a with
  | none => cases Number.read? b with
    | none | some n => rfl
  | some m => cases Number.read? b with
    | none | some n => rfl

theorem holds_of_isNumber (ha : IsNumber a) (hb : IsNumber b) :
    greater.holds a b = (numeric .greater).holds a b ∧
      less.holds a b = (numeric .less).holds a b := by
  obtain ⟨m, hm⟩ := ha
  obtain ⟨n, hn⟩ := hb
  simp only [holds, hm, hn]
  exact ⟨rfl, rfl⟩

theorem holds_of_not_isNumber (h : ¬ (IsNumber a ∧ IsNumber b)) :
    greater.holds a b = decide (b < a) ∧ less.holds a b = decide (a < b) := by
  simp only [holds]
  split
  · next m n hm hn => exact absurd ⟨⟨m, hm⟩, ⟨n, hn⟩⟩ h
  · exact ⟨rfl, rfl⟩

theorem not_greater_and_less (a b : String) :
    ¬ (greater.holds a b = true ∧ less.holds a b = true) := by
  rintro ⟨hgreater, hless⟩
  by_cases h : IsNumber a ∧ IsNumber b
  · rw [(holds_of_isNumber h.1 h.2).1] at hgreater
    rw [(holds_of_isNumber h.1 h.2).2] at hless
    obtain ⟨x, y, hx, hy, hyx⟩ := (holds_iff (by decide)).1 hgreater
    have hxy := (holds_iff_onLine hx hy).1 hless
    exact lt_asymm hyx hxy
  · rw [(holds_of_not_isNumber h).1, decide_eq_true_eq] at hgreater
    rw [(holds_of_not_isNumber h).2, decide_eq_true_eq] at hless
    exact lt_asymm hgreater hless

theorem existsUnique_of_not_isNumber (h : ¬ (IsNumber a ∧ IsNumber b)) :
    ∃! c, c ∈ [less, equal, greater] ∧ c.holds a b = true := by
  obtain ⟨hgreater, hless⟩ := holds_of_not_isNumber h
  refine existsUnique_of_trichotomy (x := a) (y := b) ?_ decide_eq_true_iff ?_
  · rw [hless, decide_eq_true_iff]
  · rw [hgreater, decide_eq_true_iff]

end

/-! ## The rows of a column -/

section

variable {column : List String} {literal : String} {c d : Comparison}

theorem natCast_mem_rows {i : ℕ} {cell : String} (hi : 1 ≤ i)
    (hcell : column[i]? = some cell) :
    (i : ℤ) ∈ c.rows column literal ↔ c.holds cell literal = true := by
  rw [mem_rows, Int.toNat_natCast, hcell]
  simp only [Option.some.injEq, exists_eq_left']
  exact and_iff_right (by exact_mod_cast hi)

theorem rows_inter_eq_empty
    (h : ∀ cell, ¬ (c.holds cell literal = true ∧ d.holds cell literal = true)) :
    (c.rows column literal).inter (d.rows column literal) = .empty := by
  refine IndexSet.ext_mem fun i => iff_of_false (fun hmem => ?_) IndexSet.not_mem_empty
  obtain ⟨hc, hd⟩ := IndexSet.mem_inter.1 hmem
  obtain ⟨-, cell, hcell, hcholds⟩ := mem_rows.1 hc
  obtain ⟨-, cell', hcell', hdholds⟩ := mem_rows.1 hd
  obtain rfl := Option.some.inj (hcell.symm.trans hcell')
  exact h cell ⟨hcholds, hdholds⟩

theorem rows_union_eq_upTo
    (h : ∀ cell, c.holds cell literal = true ∨ d.holds cell literal = true) :
    (c.rows column literal).union (d.rows column literal) =
      .upTo (column.length - 1) := by
  refine IndexSet.ext_mem fun i => ?_
  rw [IndexSet.mem_union, mem_rows, mem_rows, IndexSet.mem_upTo]
  constructor
  · rintro (⟨hi, cell, hcell, -⟩ | ⟨hi, cell, hcell, -⟩)
    · obtain ⟨hlt, -⟩ := List.getElem?_eq_some_iff.1 hcell
      omega
    · obtain ⟨hlt, -⟩ := List.getElem?_eq_some_iff.1 hcell
      omega
  · rintro ⟨hi, hle⟩
    have hlt : i.toNat < column.length := by omega
    have hcell := List.getElem?_eq_getElem hlt
    exact (h column[i.toNat]).imp (fun hc => ⟨hi, _, hcell, hc⟩)
      (fun hd => ⟨hi, _, hcell, hd⟩)

end

/-- Over any column the bare comparisons agree among each other and with the
dashed ones, and none of them selects the header. -/
theorem bare_comparisons_agree (column : List String) (literal : String) :
    ((equal.rows column literal).inter (unequal.rows column literal) = .empty ∧
      (equal.rows column literal).union (unequal.rows column literal) =
        .upTo (column.length - 1)) ∧
    (greater.rows column literal).inter (less.rows column literal) = .empty ∧
    (∀ (i : ℕ) (cell : String), 1 ≤ i → column[i]? = some cell →
      (IsNumber cell ∧ IsNumber literal →
        ((i : ℤ) ∈ greater.rows column literal ↔
          (i : ℤ) ∈ (numeric .greater).rows column literal) ∧
        ((i : ℤ) ∈ less.rows column literal ↔
          (i : ℤ) ∈ (numeric .less).rows column literal)) ∧
      (¬ (IsNumber cell ∧ IsNumber literal) →
        ∃! c, c ∈ [less, equal, greater] ∧ (i : ℤ) ∈ c.rows column literal)) ∧
    (∀ a b, greater.holds a b = true ↔ less.holds b a = true) ∧
    ∀ c : Comparison, 0 ∉ c.rows column literal := by
  refine ⟨⟨rows_inter_eq_empty fun cell => ?_, rows_union_eq_upTo fun cell => ?_⟩,
    rows_inter_eq_empty fun cell => not_greater_and_less cell literal,
    fun i cell hi hcell => ?_, fun a b => by rw [greater_holds_eq], fun c hzero => ?_⟩
  · rw [unequal_holds_eq]
    cases equal.holds cell literal with
    | true | false => decide
  · rw [unequal_holds_eq]
    cases equal.holds cell literal with
    | true | false => decide
  · simp only [natCast_mem_rows hi hcell]
    refine ⟨fun h => ?_, existsUnique_of_not_isNumber⟩
    obtain ⟨hgreater, hless⟩ := holds_of_isNumber h.1 h.2
    rw [hgreater, hless]
    exact ⟨Iff.rfl, Iff.rfl⟩
  · obtain ⟨hpos, -⟩ := mem_rows.1 hzero
    exact absurd hpos (by decide)

/-- A column of numbers, texts and what is not a number. -/
def mixedColumn : List String := ["h", "10", "9.50", "nan", "x"]

/-- As a text `10` is less than `9.5`, as a number greater. -/
theorem mixedColumn_agrees :
    ((1 : ℤ) ∈ greater.rows mixedColumn "9.5" ∧
      (1 : ℤ) ∈ (numeric .greater).rows mixedColumn "9.5") ∧
    ∃! c, c ∈ [less, equal, greater] ∧ (4 : ℤ) ∈ c.rows mixedColumn "9.5" := by
  obtain ⟨-, -, hcells, -, -⟩ := bare_comparisons_agree mixedColumn "9.5"
  have hliteral : IsNumber "9.5" := by decide +kernel
  have hnumber : IsNumber "10" := by decide +kernel
  have htext : ¬ IsNumber "x" := by decide +kernel
  have hholds : (numeric .greater).holds "10" "9.5" = true := by decide +kernel
  have hfirst : mixedColumn[1]? = some "10" := rfl
  have hgreater : (1 : ℤ) ∈ (numeric .greater).rows mixedColumn "9.5" :=
    (natCast_mem_rows (by decide) hfirst).2 hholds
  have hbare := ((hcells 1 "10" (by decide) hfirst).1 ⟨hnumber, hliteral⟩).1
  exact ⟨⟨hbare.2 hgreater, hgreater⟩,
    (hcells 4 "x" (by decide) rfl).2 fun h => htext h.1⟩

end Comparison

end TableQuery

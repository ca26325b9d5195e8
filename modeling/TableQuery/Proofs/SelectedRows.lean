import TableQuery.Proofs.ConditionFormula
import TableQuery.Proofs.RelatedSets

/-!
# Selected rows can be shown

Showing a selection looks cells up by row number, and nothing at that place
checks that the table has such a row. It need not: a set expression has no
members but those of its sets (`drawnFrom_of_evaluate`), each set of a condition
is made of rows of the table, and in an even table every column has an entry for
each of these and for the header.

`Showable` is this fact about a selection, made once where the selection is
made (`showable_of_ofTable`) and used wherever it is shown. What is shown then
follows without a failure left in it: an entry for each field, nothing for a
field the table lacks (`Showable.lines_eq`).
-/

namespace TableQuery

/-! ## The sets of a condition -/

namespace Condition

theorem parenthesis?_ne_set {word : String} {u : IndexSet} :
    parenthesis? word ≠ some (.set u) := by
  intro h
  cases parenthesis?_eq_some h with
  | inl h => cases h
  | inr h => cases h

theorem exists_matching_of_mem_step {t : Table} {r : Reading} {word : String}
    {u : IndexSet} (h : SetExpression.Token.set u ∈ (r.step t word).2.1) :
    ∃ p : Predicate, u = p.matching t := by
  cases hword : parenthesis? word with
  | some token =>
      rw [step_of_parenthesis hword, List.mem_singleton] at h
      subst h
      exact absurd hword parenthesis?_ne_set
  | none =>
      rw [tokens_step hword] at h
      match r with
      | .field | .comparison _ => cases h
      | .literal f c =>
          cases List.mem_singleton.1 h
          exact ⟨⟨f, c, word⟩, rfl⟩
      | .connective =>
          rw [Reading.emitted, Option.mem_toList, Option.map_eq_some_iff] at h
          obtain ⟨c, -, hc⟩ := h
          cases hc

theorem exists_matching_of_mem_tokens {t : Table} {r : Reading}
    {words : List String} {u : IndexSet}
    (h : SetExpression.Token.set u ∈ r.tokens t words) :
    ∃ p : Predicate, u = p.matching t := by
  induction words generalizing r with
  | nil => cases h
  | cons word words ih =>
      rw [tokens_cons] at h
      rcases List.mem_append.1 h with h | h
      · exact exists_matching_of_mem_step h
      · exact ih h

end Condition

/-! ## Entries -/

namespace Table

/-- What a field shows in a row: its entry, or nothing where there is none. -/
def shown (t : Table) (name : String) (row : Nat) : String :=
  t.entry? name row |>.getD ""

theorem shown_of_not_hasField {t : Table} {name : String}
    (h : t.hasField name = false) (row : Nat) : t.shown name row = "" := by
  rw [shown, entry?, column?_of_not_hasField h]
  rfl

/-- A field that an even table has shows its entry, in the header and in every
row. -/
theorem Even.entry?_eq_shown {t : Table} (ht : t.Even) {name : String}
    (hname : t.hasField name = true) {row : Nat} (h : row ≤ t.rowCount) :
    t.entry? name row = some (t.shown name row) := by
  obtain ⟨cells, hcells⟩ := Option.isSome_iff_exists.1 hname
  have hsize := ht name cells hcells
  have hlt : row < cells.size := by omega
  have hentry : t.entry? name row = some cells[row] := by
    unfold entry?
    rw [hcells, Option.bind_some, Array.getElem?_eq_getElem hlt]
  rw [shown, hentry]
  rfl

theorem Even.cell_eq {t : Table} (ht : t.Even) (name : String) {row : Int}
    (h₀ : 0 ≤ row) (h : row ≤ t.rowCount) :
    t.cell name row = .ok (t.shown name row.toNat) := by
  rw [cell, shown, entry?]
  cases hcells : t.column? name with
  | none => rfl
  | some cells =>
      have hsize := ht name cells hcells
      have hlt : row.toNat < cells.size := by omega
      rw [Option.bind_some]
      simp only [cellAt]
      rw [if_neg (by omega), if_neg (by omega), Array.getElem?_eq_getElem hlt]
      rfl

end Table

/-! ## Selections -/

namespace Selection

/-- A selection that can be shown: its table is even, and has its rows. -/
structure Showable (s : Selection) : Prop where
  even : s.table.Even
  within : ∀ i ∈ s.rows, 1 ≤ i ∧ i ≤ s.table.rowCount

theorem ofTable_eq_ok {query : Query} {t : Table} {s : Selection}
    (h : ofTable query t = .ok s) : s.query = query ∧ s.table = t := by
  rw [ofTable] at h
  split at h
  · cases h
    exact ⟨rfl, rfl⟩
  · simp only at h
    cases hrows : SetExpression.evaluate
        (Condition.interpret t query.condition).1 with
    | error e => rw [hrows] at h; cases h
    | ok rows =>
        rw [hrows] at h
        cases h
        exact ⟨rfl, rfl⟩

theorem showable_of_ofTable {query : Query} {t : Table} {s : Selection}
    (ht : t.Even) (h : ofTable query t = .ok s) : s.Showable := by
  have htable := (ofTable_eq_ok h).2
  rw [← htable] at ht
  refine ⟨ht, fun i hi => ?_⟩
  rw [htable] at ht ⊢
  have hrows := map_rows_ofTable query t
  rw [h] at hrows
  split at hrows
  · injection hrows with hrows
    rw [← IndexSet.mem_upTo, ← hrows]
    exact hi
  · obtain ⟨u, hu, hiu⟩ :=
      SetExpression.drawnFrom_of_evaluate hrows.symm i hi
    obtain ⟨p, rfl⟩ := Condition.exists_matching_of_mem_tokens hu
    rw [Predicate.matching_eq ht, Table.mem_rowsWhere] at hiu
    exact hiu.1

theorem showable_of_ofQuery {files : Path → Entry}
    {separator : String} {query : Query} {s : Selection}
    (h : ofQuery files separator query = .ok s) : s.Showable := by
  obtain ⟨t, hload, hof⟩ := load_of_ofQuery h
  exact showable_of_ofTable (Table.even_of_load hload) hof

/-- What the fields of the query show in a row, the separator between. -/
def shownRow (s : Selection) (separator : String) (row : Int) : String :=
  separator.intercalate
    (s.query.fields.map fun name => s.table.shown name row.toNat)

theorem Showable.line_eq {s : Selection} (hs : s.Showable)
    (separator : String) {row : Int} (h₀ : 0 ≤ row)
    (h : row ≤ s.table.rowCount) :
    s.line separator row = .ok (s.shownRow separator row) := by
  have hcells : (s.query.fields.mapM fun name => s.table.cell name row) =
      .ok (s.query.fields.map fun name =>
        s.table.shown name row.toNat) := by
    rw [mapM_eq_ok_iff, List.map_map]
    exact List.map_congr_left fun name _ => hs.even.cell_eq name h₀ h
  rw [line, hcells]
  rfl

/-- A selection with rows is shown, the header first where it is wanted. -/
theorem Showable.lines_eq {s : Selection} (hs : s.Showable)
    (hne : s.rows.toList ≠ []) (separator : String) (header : Bool) :
    s.lines separator header =
      .ok (((if header then [0] else []) ++ s.rows.toList).map
        (s.shownRow separator)) := by
  have hlines : (((if header then [0] else []) ++ s.rows.toList).mapM
      (s.line separator)) = .ok
        (((if header then [0] else []) ++ s.rows.toList).map
          (s.shownRow separator)) := by
    rw [mapM_eq_ok_iff, List.map_map]
    refine List.map_congr_left fun row hrow => ?_
    rcases List.mem_append.1 hrow with hheader | hrow
    · obtain rfl : row = 0 := by
        split at hheader
        · exact List.mem_singleton.1 hheader
        · cases hheader
      exact hs.line_eq separator (Int.le_refl 0) (by omega)
    · obtain ⟨h₁, h₂⟩ := hs.within row hrow
      exact hs.line_eq separator (by omega) h₂
  rw [lines, if_neg (mt List.isEmpty_iff.1 hne)]
  simp only
  rw [hlines]
  rfl

theorem lines_of_no_rows {s : Selection} (h : s.rows.toList = [])
    (separator : String) (header : Bool) :
    s.lines separator header = .error (.noRows s.query.table) := by
  rw [lines, if_pos (List.isEmpty_iff.2 h)]

/-- Whatever query is executed on whatever file, the rows that are selected are
rows of the loaded table in ascending order, and they can be shown: there is a
line for each of them, the header's first where it is wanted, and none is ever
missing a cell. A line has an entry for each field of the query, which is that
of the table in this row, or nothing where the table lacks the field. Only
where no row is selected nothing is shown, not even a header. -/
theorem selection_shows_its_rows {files : Path → Entry}
    {separator : String} {query : Query} {s : Selection}
    (h : ofQuery files separator query = .ok s) :
    s.query = query ∧
    Table.load files (Path.ofString query.table) separator = .ok s.table ∧
    s.rows.toList.Pairwise (· < ·) ∧
    (∀ row ∈ s.rows.toList, 1 ≤ row ∧ row ≤ s.table.rowCount) ∧
    (∀ (outputSeparator : String) (header : Bool),
      (s.lines outputSeparator header = .error (.noRows query.table) ↔
        s.rows.toList = []) ∧
      (s.rows.toList ≠ [] → s.lines outputSeparator header =
        .ok (((if header then [0] else []) ++ s.rows.toList).map fun row : Int =>
          outputSeparator.intercalate (query.fields.map fun name =>
            s.table.shown name row.toNat))) ∧
      ∀ e, s.lines outputSeparator header ≠ .error (.cell e)) ∧
    ∀ row : Int, row = 0 ∨ row ∈ s.rows.toList → ∀ name,
      (s.table.hasField name = true → s.table.entry? name row.toNat =
        some (s.table.shown name row.toNat)) ∧
      (s.table.hasField name = false →
        s.table.shown name row.toNat = "") := by
  have hs := showable_of_ofQuery h
  obtain ⟨t, hload, hof⟩ := load_of_ofQuery h
  obtain ⟨rfl, rfl⟩ := ofTable_eq_ok hof
  refine ⟨rfl, hload, s.rows.ascending, hs.within,
    fun outputSeparator header => ?_, fun row hrow name => ?_⟩
  · by_cases hnil : s.rows.toList = []
    · have hlines := lines_of_no_rows hnil outputSeparator header
      refine ⟨⟨fun _ => hnil, fun _ => hlines⟩, fun hne => absurd hnil hne,
        fun e he => ?_⟩
      rw [hlines] at he
      cases he
    · have hlines := hs.lines_eq hnil outputSeparator header
      refine ⟨⟨fun he => ?_, fun he => absurd he hnil⟩, fun _ => hlines,
        fun e he => ?_⟩
      · rw [hlines] at he
        cases he
      · rw [hlines] at he
        cases he
  · have hle : row.toNat ≤ s.table.rowCount := by
      rcases hrow with rfl | hrow
      · exact Nat.zero_le _
      · have := hs.within row hrow
        omega
    exact ⟨fun hname => hs.even.entry?_eq_shown hname hle,
      fun hname => Table.shown_of_not_hasField hname _⟩

/-- A field that is unknown, and a condition with a word too many. -/
def sampleQuery : Query where
  fields := ["c", "z", "a"]
  table := "A"
  condition := ["a", "-ge", "2", "xor"]

theorem sampleQuery_shows_two_rows :
    ∃ s, ofQuery (fun _ => .file Condition.sampleFile) " " sampleQuery =
        .ok s ∧
      s.rows.toList = [2, 3] ∧
      s.lines "|" true = .ok ["c||a", "8||2", "9||3"] := by
  obtain ⟨s, hs, hrows⟩ : ∃ s, ofQuery (fun _ => .file Condition.sampleFile)
      " " sampleQuery = .ok s ∧ s.rows.toList = [2, 3] := ⟨_, rfl, rfl⟩
  obtain ⟨-, hload, -, -, hlines, -⟩ := selection_shows_its_rows hs
  have hsample : Table.load (fun _ => .file Condition.sampleFile)
      (Path.ofString sampleQuery.table) " " = .ok Condition.sampleTable := rfl
  rw [hsample] at hload
  injection hload with htable
  refine ⟨s, hs, hrows, ?_⟩
  rw [(hlines "|" true).2.1 (by simp [hrows]), hrows, ← htable]
  rfl

end Selection

end TableQuery

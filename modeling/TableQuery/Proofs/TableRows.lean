import Mathlib.Tactic.Tauto
import TableQuery.IndexSet
import TableQuery.Proofs.FilledColumns

/-!
# The rows of a loaded table

Nothing in `Table` keeps its columns equally long, and a cell is looked up in
a column by its row number without asking whether the column reaches that far.
What makes this right is said here once: a table that comes from a file is
`Even`, so each of its columns has an entry for exactly the numbers from zero
to the row count, and a set of rows may be described by a property of row
numbers alone.

`rowsWhere` is that description. The two connectives of set expressions act on
it as the Boolean connectives act on the properties, which is how a condition
gets its meaning row by row.
-/

namespace TableQuery.Table

/-- The entry of a column in a row; row zero is the header. -/
def entry? (t : Table) (name : String) (row : Nat) : Option String :=
  (t.column? name).bind fun cells => cells[row]?

theorem column?_of_not_hasField {t : Table} {name : String}
    (h : t.hasField name = false) : t.column? name = none := by
  rwa [hasField, Option.isSome_eq_false_iff, Option.isNone_iff_eq_none] at h

/-- Every column has its header and one cell for each row. -/
def Even (t : Table) : Prop :=
  ∀ name cells, t.column? name = some cells → cells.size = t.rowCount + 1

/-! ## Loading makes tables even -/

theorem lookup_map_mk {names : List String} {f : String → Array String}
    {name : String} {cells : Array String}
    (h : (names.map fun n => (n, f n)).lookup name = some cells) :
    name ∈ names ∧ cells = f name := by
  obtain ⟨before, after, hsplit, -⟩ := List.lookup_eq_some_iff.1 h
  have hmem : (name, cells) ∈ names.map fun n => (n, f n) := by
    rw [hsplit]
    exact List.mem_append_right _ List.mem_cons_self
  obtain ⟨n, hn, heq⟩ := List.mem_map.1 hmem
  injection heq with hname hcells
  subst hname
  exact ⟨hn, hcells.symm⟩

theorem size_columnOf {header : List String} {rows : List (List String)}
    {name : String} : (columnOf header rows name).size = rows.length + 1 := by
  simp [columnOf]

theorem even_ofRows (path : Path) (header : List String)
    (rows : List (List String)) : (ofRows path header rows).Even := by
  intro name cells h
  obtain ⟨-, rfl⟩ := lookup_map_mk h
  exact size_columnOf

theorem even_empty (path : Path) : ({ path } : Table).Even := by
  intro name cells h
  cases h

/-- A table is read from no lines, or from a line of fields and the lines of
its rows. -/
theorem ofLines_eq_ok {path : Path} {separator : String}
    {lines : List (List Char)} {t : Table}
    (h : ofLines path separator lines = .ok t) :
    lines = [] ∧ t = { path } ∨
    ∃ first rest header rows, lines = first :: rest ∧
      Cells.split separator first = .ok header ∧
      rest.mapM (Cells.split separator) = .ok rows ∧
      t = ofRows path header rows := by
  match lines with
  | [] =>
      cases h
      exact .inl ⟨rfl, rfl⟩
  | first :: rest =>
      rw [ofLines_cons] at h
      cases hheader : Cells.split separator first with
      | error e => rw [hheader] at h; cases h
      | ok header =>
          cases hrows : rest.mapM (Cells.split separator) with
          | error e => rw [hheader, hrows] at h; cases h
          | ok rows =>
              rw [hheader, hrows] at h
              cases h
              exact .inr ⟨first, rest, header, rows, rfl, hheader, hrows, rfl⟩

theorem load_eq_ok {files : Path → Entry} {path : Path}
    {separator : String} {t : Table}
    (h : load files path separator = .ok t) :
    ∃ lines, fileLines path (files path) = .ok lines ∧
      ofLines path separator lines = .ok t := by
  rw [load] at h
  cases hlines : fileLines path (files path) with
  | error e => rw [hlines] at h; cases h
  | ok lines =>
      refine ⟨lines, rfl, ?_⟩
      rw [hlines] at h
      change (ofLines path separator lines).mapError LoadError.cells = .ok t at h
      cases hof : ofLines path separator lines with
      | error e => rw [hof] at h; cases h
      | ok t' => rw [hof] at h; cases h; rfl

theorem even_of_load {files : Path → Entry} {path : Path}
    {separator : String} {t : Table}
    (h : load files path separator = .ok t) : t.Even := by
  obtain ⟨lines, -, hlines⟩ := load_eq_ok h
  rcases ofLines_eq_ok hlines with ⟨-, rfl⟩ | ⟨_, _, header, rows, -, -, -, rfl⟩
  · exact even_empty path
  · exact even_ofRows path header rows

theorem Even.le_of_entry? {t : Table} (h : t.Even) {name text : String}
    {row : Nat} (hentry : t.entry? name row = some text) :
    row ≤ t.rowCount := by
  obtain ⟨cells, hcells, hrow⟩ := Option.bind_eq_some_iff.1 hentry
  have hsize := h name cells hcells
  obtain ⟨hlt, -⟩ := Array.getElem?_eq_some_iff.1 hrow
  omega

/-! ## Sets of rows -/

/-- The rows of a table, the header aside, at which something holds. -/
def rowsWhere (t : Table) (p : Nat → Bool) : IndexSet where
  toList := ((List.range' 1 t.rowCount).filter p).map Int.ofNat
  ascending := by
    rw [List.pairwise_map]
    exact ((List.pairwise_lt_range' 1).filter p).imp Int.ofNat_lt.2

theorem mem_rowsWhere {t : Table} {p : Nat → Bool} {i : Int} :
    i ∈ t.rowsWhere p ↔ (1 ≤ i ∧ i ≤ t.rowCount) ∧ p i.toNat = true := by
  rw [IndexSet.mem_def, rowsWhere, List.mem_map]
  constructor
  · rintro ⟨row, hrow, rfl⟩
    obtain ⟨hrange, hp⟩ := List.mem_filter.1 hrow
    have hrange := List.mem_range'_1.1 hrange
    exact ⟨⟨Int.ofNat_le.2 hrange.1, Int.ofNat_le.2 (by omega)⟩, hp⟩
  · rintro ⟨⟨h₁, h₂⟩, hp⟩
    refine ⟨i.toNat, List.mem_filter.2 ⟨List.mem_range'_1.2 ?_, hp⟩, ?_⟩
    · omega
    · exact Int.toNat_of_nonneg (by omega)

theorem rowsWhere_and (t : Table) (p q : Nat → Bool) :
    (t.rowsWhere p).inter (t.rowsWhere q) =
      t.rowsWhere fun row => p row && q row := by
  apply IndexSet.ext_mem
  intro i
  simp only [IndexSet.mem_inter, mem_rowsWhere, Bool.and_eq_true]
  tauto

theorem rowsWhere_or (t : Table) (p q : Nat → Bool) :
    (t.rowsWhere p).union (t.rowsWhere q) =
      t.rowsWhere fun row => p row || q row := by
  apply IndexSet.ext_mem
  intro i
  simp only [IndexSet.mem_union, mem_rowsWhere, Bool.or_eq_true]
  tauto

theorem rowsWhere_false (t : Table) :
    t.rowsWhere (fun _ => false) = .empty := by
  apply IndexSet.ext_mem
  intro i
  simp [mem_rowsWhere]

end TableQuery.Table

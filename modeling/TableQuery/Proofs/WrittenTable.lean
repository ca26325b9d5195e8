import Mathlib.Data.List.Forall2
import TableQuery.Proofs.EncodedText
import TableQuery.Proofs.LineEnds
import TableQuery.Proofs.TableLayout
import TableQuery.Proofs.WrittenCells

/-!
# Tables that were written to a file

A table holds its cells by column and a file holds them by row. Writing turns
the columns of a table into rows, each written into a line of its own, and
loading turns the lines into columns again. Nothing is lost on the way if the
table is `Rectangular`: its columns are its fields, all of them different, and
each has a cell for every row under a header that is its name. The place of a
column is then the place where the header first has its name, which is where
loading looks for it (`Rectangular.ofRows_eq`).

How the cells were written does not matter here, only that each line is
`Written` for the separator that the file is loaded with.
-/

namespace TableQuery

namespace Text

/-- Lines as the text of a file, a line feed behind each. -/
def filed (lines : List (List Char)) : List Char :=
  lines.flatMap fun line => line ++ ['\n']

theorem setOut_filed (lines : List (List Char)) :
    SetOut lines (filed lines) := by
  induction lines with
  | nil => exact .rest [] rfl
  | cons line lines ih =>
      rw [filed, List.flatMap_cons]
      exact .ended line .feed ih

/-- Of the lines of a file the blank ones are left out. -/
theorem inkedLines_filed_eq_filter {lines : List (List Char)}
    (hbreak : ∀ line ∈ lines, ∀ c ∈ line, isLineBreak c = false) :
    inkedLines (filed lines) = lines.filter (!isAllBlank ·) :=
  (setOut_filed lines).inkedLines_eq hbreak

theorem inkedLines_filed {lines : List (List Char)}
    (hbreak : ∀ line ∈ lines, ∀ c ∈ line, isLineBreak c = false)
    (hink : ∀ line ∈ lines, isAllBlank line = false) :
    inkedLines (filed lines) = lines := by
  rw [inkedLines_filed_eq_filter hbreak, List.filter_eq_self]
  intro line hline
  rw [hink line hline]
  rfl

end Text

namespace Cells

theorem exists_written_of_mem {separator : String}
    {rows : List (List String)} {lines : List (List Char)}
    (h : List.Forall₂ (Written separator) rows lines) :
    ∀ line ∈ lines, ∃ cells, Written separator cells line := by
  induction h with
  | nil =>
      intro line hline
      cases hline
  | @cons cells _ _ _ hfirst _ ih =>
      exact List.forall_mem_cons.2 ⟨⟨cells, hfirst⟩, ih⟩

theorem map_split_of_written {separator : String}
    {rows : List (List String)} {lines : List (List Char)}
    (h : List.Forall₂ (Written separator) rows lines) :
    lines.map (split separator) = rows.map .ok := by
  induction h with
  | nil => rfl
  | cons hfirst _ ih => rw [List.map_cons, List.map_cons, hfirst.split_eq, ih]

end Cells

namespace Table

theorem load_filed {files : Path → Entry} {path : Path}
    {separator : String} {lines : List (List Char)} {first : List Char}
    {rest : List (List Char)}
    (hinked : Text.inkedLines (Text.filed lines) = first :: rest)
    (hfile : files path = .file (Text.Utf8.encode (Text.filed lines)))
    {names : List String} {rows : List (List String)}
    (hfirst : Cells.split separator first = .ok names)
    (hrest : rest.map (Cells.split separator) = rows.map .ok) :
    load files path separator = .ok (ofRows path names rows) := by
  have hread : fileLines path (files path) = .ok (first :: rest) := by
    rw [hfile, fileLines_of_decode (Text.Utf8.decode_encode _), hinked]
  rw [load_of_fileLines hread, ofLines_of_split path hfirst hrest]
  rfl

/-- The cells of a row, in the order of the columns; row zero is the header. -/
def rowCells (t : Table) (row : Nat) : List String :=
  t.columns.map fun column => column.2.getD row ""

/-- The cells of all rows, those of the header first. -/
def rowsOfCells (t : Table) : List (List String) :=
  (List.range (t.rowCount + 1)).map t.rowCells

/-- A table with at least one field and a column for each, all different and
all equally long. -/
structure Rectangular (t : Table) : Prop where
  fields_ne_nil : t.fields ≠ []
  nodup_fields : t.fields.Nodup
  keys_eq : t.columns.map Prod.fst = t.fields
  size_eq : ∀ column ∈ t.columns, column.2.size = t.rowCount + 1
  header_eq : ∀ column ∈ t.columns, column.2[0]? = some column.1

/-- Under different names the place of a column is the place of its name. -/
theorem Rectangular.getD_idxOf {t : Table} (ht : t.Rectangular) {α : Type}
    (f : String × Array String → α) (default : α)
    {column : String × Array String} (h : column ∈ t.columns) :
    (t.columns.map f).getD (t.fields.idxOf column.1) default = f column := by
  obtain ⟨place, hplace, hcolumn⟩ := List.mem_iff_getElem.1 h
  have hlength : t.fields.length = t.columns.length := by
    rw [← ht.keys_eq, List.length_map]
  have hfield : place < t.fields.length := by omega
  have hname : t.fields[place] = column.1 := by
    simp only [← ht.keys_eq, List.getElem_map, hcolumn]
  have hidx : t.fields.idxOf column.1 = place := by
    rw [← hname]
    exact ht.nodup_fields.idxOf_getElem _ _
  rw [hidx, List.getD_eq_getElem?_getD, List.getElem?_map,
    List.getElem?_eq_getElem hplace, hcolumn]
  rfl

theorem Rectangular.rowCells_zero {t : Table} (ht : t.Rectangular) :
    t.rowCells 0 = t.fields := by
  rw [← ht.keys_eq]
  refine List.map_congr_left fun column hcolumn => ?_
  rw [Array.getD_eq_getD_getElem?, ht.header_eq column hcolumn]
  rfl

theorem Rectangular.rowsOfCells_eq {t : Table} (ht : t.Rectangular) :
    t.rowsOfCells =
      t.fields :: (List.range t.rowCount).map fun row => t.rowCells (row + 1) := by
  rw [rowsOfCells, List.range_succ_eq_map, List.map_cons, ht.rowCells_zero,
    List.map_map]
  rfl

theorem Rectangular.columnOf_eq {t : Table} (ht : t.Rectangular)
    {column : String × Array String} (h : column ∈ t.columns) :
    columnOf t.fields
      ((List.range t.rowCount).map fun row => t.rowCells (row + 1)) column.1 =
      column.2 := by
  have hname : column.1 ∈ t.fields := by
    rw [← ht.keys_eq]
    exact List.mem_map_of_mem h
  -- Entry by entry: the header is entry zero of every column.
  refine Array.ext_getElem? fun row => ?_
  rw [getElem?_columnOf hname, ← ht.rowsOfCells_eq, rowsOfCells,
    List.getElem?_map, Option.map_map]
  by_cases hrow : row < t.rowCount + 1
  · have hlt : row < column.2.size := by
      rw [ht.size_eq column h]
      exact hrow
    rw [List.getElem?_range hrow, Array.getElem?_eq_getElem hlt]
    refine congrArg some ((ht.getD_idxOf _ "" h).trans ?_)
    exact Array.getElem_eq_getD "" |>.symm
  · have hle : column.2.size ≤ row := by
      rw [ht.size_eq column h]
      omega
    rw [List.getElem?_eq_none (by rw [List.length_range]; omega),
      Array.getElem?_eq_none hle]
    rfl

theorem eraseDups_of_nodup {names : List String} (h : names.Nodup) :
    names.eraseDups = names := by
  induction names with
  | nil => rfl
  | cons name names ih =>
      obtain ⟨hname, hnames⟩ := List.nodup_cons.1 h
      have hfilter : names.filter (fun n => !n == name) = names := by
        rw [List.filter_eq_self]
        intro n hn
        rw [Bool.not_eq_true', beq_eq_false_iff_ne]
        rintro rfl
        exact hname hn
      rw [List.eraseDups_cons, hfilter, ih hnames]

theorem Rectangular.ofRows_eq {t : Table} (ht : t.Rectangular) :
    ofRows t.path t.fields
      ((List.range t.rowCount).map fun row => t.rowCells (row + 1)) = t := by
  have hcolumns : (t.fields.map fun name => (name, columnOf t.fields
      ((List.range t.rowCount).map fun row => t.rowCells (row + 1)) name)) =
      t.columns := by
    conv_lhs => rw [← ht.keys_eq, List.map_map]
    refine (List.map_congr_left fun column hcolumn => ?_).trans
      (List.map_id t.columns)
    show (column.1, columnOf (t.columns.map Prod.fst) _ column.1) = column
    rw [ht.keys_eq, ht.columnOf_eq hcolumn]
  rw [ofRows, eraseDups_of_nodup ht.nodup_fields, hcolumns, List.length_map,
    List.length_range]

theorem Rectangular.ofLines_eq {t : Table} (ht : t.Rectangular)
    {separator : String} {lines : List (List Char)}
    (h : List.Forall₂ (Cells.Written separator) t.rowsOfCells lines) :
    ofLines t.path separator lines = .ok t := by
  rw [ht.rowsOfCells_eq] at h
  cases h with
  | @cons _ first _ rest hfirst hrest =>
      have hrows : rest.mapM (Cells.split separator) =
          .ok ((List.range t.rowCount).map fun row => t.rowCells (row + 1)) :=
        mapM_eq_ok_iff.2 (Cells.map_split_of_written hrest)
      rw [ofLines_cons, hfirst.split_eq, hrows]
      exact congrArg Except.ok ht.ofRows_eq

/-- A rectangular table whose rows are written into the lines of a file, each
for the separator that the file is read with, is the table that is loaded. -/
theorem written_table_is_loaded {files : Path → Entry}
    {t : Table} (ht : t.Rectangular) {separator : String}
    {lines : List (List Char)}
    (hlines : List.Forall₂ (Cells.Written separator) t.rowsOfCells lines)
    (hfile : files t.path = .file (Text.Utf8.encode (Text.filed lines))) :
    load files t.path separator = .ok t := by
  have hwritten := Cells.exists_written_of_mem hlines
  have hinked : Text.inkedLines (Text.filed lines) = lines := by
    refine Text.inkedLines_filed (fun line hline => ?_) (fun line hline => ?_)
    · obtain ⟨cells, hcells⟩ := hwritten line hline
      exact hcells.isLineBreak_eq_false
    · obtain ⟨cells, hcells⟩ := hwritten line hline
      exact hcells.isAllBlank_eq_false
  have hread : fileLines t.path (files t.path) = .ok lines := by
    rw [hfile, fileLines_of_decode (Text.Utf8.decode_encode _), hinked]
  rw [load_of_fileLines hread, ht.ofLines_eq hlines]
  rfl

/-- A table whose cells need quotes. -/
def markedTable : Table :=
  .ofRows (.ofString "T") ["a", ","] [["", "x,\x22y"], ["\x22", " "]]

/-- A table whose cells need none. -/
def plainTable : Table :=
  .ofRows (.ofString "T") ["a", "b"] [["1", "é"]]

/-- The first table between quotes and the second one in the other two ways,
with runs of spacing and with a separator of two characters. -/
theorem sampleTables_are_loaded :
    (markedTable.Rectangular ∧
      load (fun _ => .file (Text.Utf8.encode
        "\x22a\x22,\x22,\x22\n\x22\x22,\x22x,\x22\x22y\x22\n\x22\x22\x22\x22,\x22 \x22\n".toList))
        (.ofString "T") "," = .ok markedTable) ∧
    (plainTable.Rectangular ∧
      load (fun _ => .file (Text.Utf8.encode "a \tb\n 1 é \n".toList))
        (.ofString "T") "" = .ok plainTable ∧
      load (fun _ => .file (Text.Utf8.encode "a==b\n1==é\n".toList))
        (.ofString "T") "==" = .ok plainTable) := by
  have hmarked : markedTable.Rectangular :=
    ⟨by decide, by decide, rfl, by decide, by decide⟩
  have hplain : plainTable.Rectangular :=
    ⟨by decide, by decide, rfl, by decide, by decide⟩
  refine ⟨⟨hmarked, ?_⟩, hplain, ?_, ?_⟩
  · have hall : (markedTable.rowsOfCells.all fun cells => cells.all fun cell =>
        cell.toList.all (!Text.isLineBreak ·)) = true := by decide
    have hfree : ∀ cells ∈ markedTable.rowsOfCells, ∀ cell ∈ cells,
        ∀ d ∈ cell.toList, Text.isLineBreak d = false := by
      simpa only [List.all_eq_true, Bool.not_eq_true'] using hall
    have hlines : List.Forall₂ (Cells.Written ",") markedTable.rowsOfCells
        (markedTable.rowsOfCells.map fun cells =>
          [','].intercalate (cells.map Cells.quoted)) := by
      refine List.forall₂_map_right_iff.2
        (List.forall₂_same.2 fun cells hcells => ?_)
      refine .quoted rfl (by decide) (by decide) (by decide) ?_ ?_
        (hfree cells hcells)
      all_goals revert cells; decide
    exact written_table_is_loaded hmarked hlines rfl
  · have hnone : ∀ c ∈ ([] : List Char), Cells.isSpacing c = true :=
      List.all_eq_true.1 rfl
    have hspace : ∀ c ∈ [' '], Cells.isSpacing c = true :=
      List.all_eq_true.1 (by decide)
    have hrun : ∀ c ∈ [' ', '\t'], Cells.isSpacing c = true :=
      List.all_eq_true.1 (by decide)
    have hheader : Cells.Written "" ["a", "b"]
        ([] ++ (['a'] ++ ([' ', '\t'] ++ (['b'] ++ [])))) :=
      .spaced (.inl rfl) hnone
        (.cons (by decide) (by decide) hrun (.last (by decide) hnone))
    have hrow : Cells.Written "" ["1", "é"]
        ([' '] ++ (['1'] ++ ([' '] ++ (['é'] ++ [' '])))) :=
      .spaced (.inl rfl) hspace
        (.cons (by decide) (by decide) hspace (.last (by decide) hspace))
    exact written_table_is_loaded hplain (.cons hheader (.cons hrow .nil)) rfl
  · have hall : (plainTable.rowsOfCells.all fun cells => cells.all fun cell =>
        cell.toList.all fun d =>
          decide (d ∉ "==".toList ∧ Text.isLineBreak d = false)) = true := by
      decide
    have hfree : ∀ cells ∈ plainTable.rowsOfCells, ∀ cell ∈ cells,
        ∀ d ∈ cell.toList,
          d ∉ "==".toList ∧ Text.isLineBreak d = false := by
      simpa only [List.all_eq_true, decide_eq_true_eq] using hall
    have hseparator : ∀ d ∈ "==".toList, Text.isLineBreak d = false := by
      intro d hd
      rw [List.eq_of_mem_replicate (n := 2) hd]
      decide
    have hlines : List.Forall₂ (Cells.Written "==") plainTable.rowsOfCells
        (plainTable.rowsOfCells.map fun cells =>
          ['=', '='].intercalate (cells.map String.toList)) := by
      refine List.forall₂_map_right_iff.2
        (List.forall₂_same.2 fun cells hcells => ?_)
      refine .literal (by decide) hseparator (hfree cells hcells) ?_
      revert cells
      decide
    exact written_table_is_loaded hplain hlines rfl

end Table

end TableQuery

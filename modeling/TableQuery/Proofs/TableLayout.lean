import Mathlib.Data.List.Induction
import TableQuery.Proofs.FileLines

/-!
# The layout of a loaded table

What a table holds once it is loaded, put together from the cells of its lines.
The first line has the names, repeated ones included; a field is a name, at the
place where it comes first, and the fields stand in the order of these places
(`pairwise_idxOf_eraseDups`). So the place of a field in a row is not its place
among the fields, and a row is read at the one to fill the column of the other.

`LaidOut` says this of all columns at once. It asks nothing of the rows: a row
that is too short has no cell at some place and counts as empty there, and cells
that no name stands above are not looked at.
-/

namespace TableQuery.Table

open Text (inkedLines unified)

/-- Where names are kept once each, they keep the order in which they come
first. -/
theorem pairwise_idxOf_eraseDups (names : List String) :
    names.eraseDups.Pairwise fun a b => names.idxOf a < names.idxOf b := by
  induction names using List.reverseRecOn with
  | nil => exact .nil
  | append_singleton names name ih =>
      have hplace : ∀ a ∈ names, (names ++ [name]).idxOf a = names.idxOf a := by
        intro a ha
        rw [List.idxOf_append, if_pos ha]
      have hkept : names.eraseDups.Pairwise fun a b =>
          (names ++ [name]).idxOf a < (names ++ [name]).idxOf b := by
        refine ih.imp_of_mem fun {a b} ha hb hlt => ?_
        rw [hplace a (List.mem_eraseDups.1 ha),
          hplace b (List.mem_eraseDups.1 hb)]
        exact hlt
      rw [List.eraseDups_append]
      by_cases hname : name ∈ names
      · have hnone : [name].removeAll names = [] := by
          simp [List.removeAll, hname]
        rw [hnone, List.eraseDups_nil, List.append_nil]
        exact hkept
      · -- A new name comes behind all the others.
        have hnew : ([name].removeAll names).eraseDups = [name] := by
          simp [List.removeAll, hname, List.eraseDups_cons]
        rw [hnew, List.pairwise_append]
        refine ⟨hkept, List.pairwise_singleton _ _, fun a ha b hb => ?_⟩
        have ha := List.mem_eraseDups.1 ha
        rw [List.mem_singleton.1 hb, hplace a ha, List.idxOf_append,
          if_neg hname]
        have hlt := List.idxOf_lt_length_iff.2 ha
        omega

/-- A table made of names and rows. Its fields are the names, each of them
once and in the order in which they come first; it has one column for each
field, in this order; and a column has its name on top and below it, for each
row, the cell at the place where its name comes first, or nothing where the row
is too short. -/
structure LaidOut (t : Table) (names : List String)
    (rows : List (List String)) : Prop where
  mem_fields : ∀ name, name ∈ t.fields ↔ name ∈ names
  nodup_fields : t.fields.Nodup
  order : t.fields.Pairwise fun a b => names.idxOf a < names.idxOf b
  keys_eq : t.columns.map Prod.fst = t.fields
  rowCount_eq : t.rowCount = rows.length
  size_eq : ∀ name column, (name, column) ∈ t.columns →
    column.size = t.rowCount + 1
  header_eq : ∀ name column, (name, column) ∈ t.columns →
    column[0]? = some name
  cell_eq : ∀ name column, (name, column) ∈ t.columns →
    ∀ row cells, rows[row]? = some cells →
      column[row + 1]? = some (cells.getD (names.idxOf name) "")

theorem laidOut_empty (path : Path) : LaidOut { path } [] [] where
  mem_fields name := Iff.rfl
  nodup_fields := .nil
  order := .nil
  keys_eq := rfl
  rowCount_eq := rfl
  size_eq name column h := by cases h
  header_eq name column h := by cases h
  cell_eq name column h := by cases h

theorem mem_columns_ofRows {path : Path} {header : List String}
    {rows : List (List String)} {name : String} {column : Array String}
    (h : (name, column) ∈ (ofRows path header rows).columns) :
    name ∈ header ∧ column = columnOf header rows name := by
  obtain ⟨n, hn, heq⟩ := List.mem_map.1 h
  cases heq
  exact ⟨List.mem_eraseDups.1 hn, rfl⟩

theorem laidOut_ofRows (path : Path) (header : List String)
    (rows : List (List String)) :
    (ofRows path header rows).LaidOut header rows where
  mem_fields name := List.mem_eraseDups
  nodup_fields := (pairwise_idxOf_eraseDups header).imp fun h heq => by
    rw [heq] at h
    exact Nat.lt_irrefl _ h
  order := pairwise_idxOf_eraseDups header
  keys_eq := by
    simp only [ofRows, List.map_map, Function.comp_def, List.map_id']
  rowCount_eq := rfl
  size_eq name column h := by
    rw [(mem_columns_ofRows h).2]
    exact size_columnOf
  header_eq name column h := by
    rw [(mem_columns_ofRows h).2]
    rfl
  cell_eq name column h row cells hrow := by
    obtain ⟨hname, rfl⟩ := mem_columns_ofRows h
    rw [getElem?_columnOf hname, List.getElem?_cons_succ, hrow, Option.map_some]

theorem laidOut_of_ofLines {path : Path} {separator : String}
    {lines : List (List Char)} {t : Table}
    (h : ofLines path separator lines = .ok t) :
    t.rowCount = lines.length - 1 ∧
    (lines = [] ∧ t.LaidOut [] [] ∨
      ∃ first rest names rows, lines = first :: rest ∧
        Cells.split separator first = .ok names ∧
        rest.map (Cells.split separator) = rows.map .ok ∧
        t.LaidOut names rows) := by
  refine ⟨(madeFrom_of_ofLines h).rowCount_eq, ?_⟩
  rcases ofLines_eq_ok h with
    ⟨hnil, rfl⟩ | ⟨first, rest, names, rows, hlines, hnames, hrows, rfl⟩
  · exact .inl ⟨hnil, laidOut_empty path⟩
  · exact .inr ⟨first, rest, names, rows, hlines, hnames,
      mapM_eq_ok_iff.1 hrows, laidOut_ofRows path names rows⟩

/-- A file whose lines can all be split is loaded, and its table is laid out
from the cells of the lines: the first one has the names and each further one
is a row. A file without lines has neither fields nor rows. -/
theorem loaded_table_is_laid_out (files : Path → Entry)
    (path : Path) {separator : String} {bytes : List UInt8} {text : List Char}
    (hfile : files path = .file bytes)
    (hdecode : Text.Utf8.decode bytes = .ok text)
    (hcells : ∀ line ∈ inkedLines (unified text),
      ∃ cells, Cells.split separator line = .ok cells) :
    ∃ t, load files path separator = .ok t ∧
      t.rowCount = (inkedLines (unified text)).length - 1 ∧
      (inkedLines (unified text) = [] ∧ t.LaidOut [] [] ∨
        ∃ first rest names rows, inkedLines (unified text) = first :: rest ∧
          Cells.split separator first = .ok names ∧
          rest.map (Cells.split separator) = rows.map .ok ∧
          t.LaidOut names rows) := by
  obtain ⟨t, ht⟩ := exists_ofLines_of_split path hcells
  refine ⟨t, ?_, laidOut_of_ofLines ht⟩
  rw [load_of_decode hfile hdecode, ht]
  rfl

/-- A file that names a field twice, with a short row, a blank line and a row
that is too long. -/
def raggedFile : List UInt8 :=
  "b,a,b\n1\n \n2,3,4,5\n".toList.map fun c => c.toNat.toUInt8

/-- The text of `raggedFile`. -/
def raggedText : List Char :=
  "b,a,b\n1\n \n2,3,4,5\n".toList

theorem raggedFile_is_laid_out :
    (fun _ : Path => Entry.file raggedFile) (.ofString "T") = .file raggedFile ∧
    Text.Utf8.decode raggedFile = .ok raggedText ∧
    (∀ line ∈ inkedLines (unified raggedText),
      ∃ cells, Cells.split "," line = .ok cells) ∧
    ∃ t, load (fun _ => .file raggedFile) (.ofString "T") "," = .ok t ∧
      t.rowCount = 2 ∧
      t.LaidOut ["b", "a", "b"] [["1"], ["2", "3", "4", "5"]] := by
  have hfile : (fun _ : Path => Entry.file raggedFile) (.ofString "T") =
      .file raggedFile := rfl
  have hdecode : Text.Utf8.decode raggedFile = .ok raggedText := rfl
  have hlines : inkedLines (unified raggedText) =
      ["b,a,b".toList, "1".toList, "2,3,4,5".toList] := by decide
  have hcells : ∀ line ∈ inkedLines (unified raggedText),
      ∃ cells, Cells.split "," line = .ok cells := by
    rw [hlines]
    simp only [List.forall_mem_cons]
    exact ⟨⟨_, rfl⟩, ⟨_, rfl⟩, ⟨_, rfl⟩, fun _ h => by cases h⟩
  refine ⟨hfile, hdecode, hcells, ?_⟩
  obtain ⟨t, hload, hcount, hlaid⟩ := loaded_table_is_laid_out
    (fun _ => .file raggedFile) (.ofString "T") hfile hdecode hcells
  rw [hlines] at hcount hlaid
  refine ⟨t, hload, hcount, ?_⟩
  rcases hlaid with ⟨hnil, -⟩ | ⟨_, _, names, rows, hsplit, hnames, hrows, h⟩
  · cases hnil
  · cases hsplit
    cases hnames
    have hconcrete : ["1".toList, "2,3,4,5".toList].mapM (Cells.split ",") =
        .ok [["1"], ["2", "3", "4", "5"]] := rfl
    rw [← mapM_eq_ok_iff, hconcrete] at hrows
    cases hrows
    exact h

end TableQuery.Table

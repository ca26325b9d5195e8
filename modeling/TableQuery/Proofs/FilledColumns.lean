import TableQuery.Proofs.ResultLists
import TableQuery.Table.Load

/-!
# What filling the columns comes to

Loading goes over the header once and then over the lines, and takes every
column a cell further with each line. `ofRows` is the table that this makes,
with each column given at once by the rows, and `ofLines_cons` says that it is
this table. What else there is to say about loaded tables is said of `ofRows`.

Two steps carry it. One more name of the header opens a column or is passed
over, according to whether it was seen before (`map_opened_concat`); one more
line extends every column by its cell (`Column.extend_push`).
-/

namespace TableQuery.Table

/-- The column of a field: its name, and the cell of each row at the place
where the header first has that name. -/
def columnOf (header : List String) (rows : List (List String)) (name : String) :
    Array String :=
  (name :: rows.map fun row => row.getD (header.idxOf name) "").toArray

/-- The table that a header and rows of cells make. -/
def ofRows (path : Path) (header : List String) (rows : List (List String)) :
    Table where
  path
  fields := header.eraseDups
  columns := header.eraseDups.map fun name => (name, columnOf header rows name)
  rowCount := rows.length

/-! ## The header -/

/-- The column of a field before there are any rows. -/
def opened (header : List String) (name : String) : Column :=
  ⟨name, header.idxOf name, #[name]⟩

theorem map_opened_concat (seen : List String) (name : String) :
    (seen ++ [name]).eraseDups.map (opened (seen ++ [name])) =
      if name ∈ seen then seen.eraseDups.map (opened seen)
      else seen.eraseDups.map (opened seen) ++ [⟨name, seen.length, #[name]⟩] := by
  -- Names that were seen keep their places.
  have hseen : seen.eraseDups.map (opened (seen ++ [name])) =
      seen.eraseDups.map (opened seen) := by
    refine List.map_congr_left fun n hn => ?_
    rw [opened, opened, List.idxOf_append, if_pos (List.mem_eraseDups.1 hn)]
  rw [List.eraseDups_append, List.map_append, hseen]
  by_cases hname : name ∈ seen
  · simp [List.removeAll, hname]
  · have hsingle : [name].eraseDups = [name] := rfl
    simp [List.removeAll, hname, hsingle, opened, List.idxOf_append]

theorem any_opened_iff {seen : List String} {name : String} :
    (seen.eraseDups.map (opened seen)).any (·.name = name) = true ↔
      name ∈ seen := by
  constructor
  · intro h
    obtain ⟨column, hcolumn, hname⟩ := List.any_eq_true.1 h
    obtain ⟨n, hn, rfl⟩ := List.mem_map.1 hcolumn
    obtain rfl : n = name := of_decide_eq_true hname
    exact List.mem_eraseDups.1 hn
  · intro h
    exact List.any_eq_true.2 ⟨opened seen name,
      List.mem_map_of_mem (List.mem_eraseDups.2 h), decide_eq_true rfl⟩

theorem addColumns_seen (seen names : List String) :
    addColumns (seen.eraseDups.map (opened seen)) seen.length names =
      (seen ++ names).eraseDups.map (opened (seen ++ names)) := by
  induction names generalizing seen with
  | nil => rw [addColumns, List.append_nil]
  | cons name names ih =>
      have hnext := ih (seen ++ [name])
      rw [map_opened_concat, List.length_append, List.length_singleton] at hnext
      rw [addColumns, List.append_cons seen]
      by_cases hname : name ∈ seen
      · rw [if_pos hname] at hnext
        rw [if_pos (any_opened_iff.2 hname), hnext]
      · rw [if_neg hname] at hnext
        rw [if_neg (mt any_opened_iff.1 hname), hnext]

theorem addColumns_eq (header : List String) :
    addColumns [] 0 header = header.eraseDups.map (opened header) :=
  addColumns_seen [] header

/-! ## The rows -/

/-- The column with its cells of several rows. -/
def Column.extend (column : Column) (rows : List (List String)) : Column :=
  { column with
    cells := column.cells ++
      (rows.map fun row => row.getD column.place "").toArray }

theorem Column.extend_push (column : Column) (row : List String)
    (rows : List (List String)) :
    (column.push row.toArray).extend rows = column.extend (row :: rows) := by
  simp [push, extend, List.getD_eq_getElem?_getD]

theorem addRows_eq (separator : String) (columns : List Column)
    (lines : List (List Char)) :
    addRows separator columns lines =
      (lines.mapM (Cells.split separator)).map fun rows =>
        columns.map (·.extend rows) := by
  induction lines generalizing columns with
  | nil =>
      have hnone : ∀ column : Column, column.extend [] = column := fun column => by
        simp [Column.extend]
      show Except.ok columns = .ok (columns.map (·.extend []))
      simp only [hnone, List.map_id']
  | cons line lines ih =>
      rw [addRows, List.mapM_cons]
      cases Cells.split separator line with
      | error e => rfl
      | ok row =>
          show addRows separator (columns.map (·.push row.toArray)) lines = _
          rw [ih]
          simp only [List.map_map, Function.comp_def, Column.extend_push]
          cases lines.mapM (Cells.split separator) <;> rfl

/-! ## Both -/

theorem extend_opened (header : List String) (rows : List (List String))
    (name : String) :
    (opened header name).extend rows =
      ⟨name, header.idxOf name, columnOf header rows name⟩ := by
  simp [opened, Column.extend, columnOf]

/-- Rows read into the columns of a header make its table. -/
theorem ofRows_eq (path : Path) (header : List String)
    (rows : List (List String)) :
    ofRows path header rows =
      let columns := (header.eraseDups.map (opened header)).map (·.extend rows)
      { path
        fields := columns.map (·.name)
        columns := columns.map fun column => (column.name, column.cells)
        rowCount := rows.length } := by
  simp only [ofRows, List.map_map, Function.comp_def, extend_opened,
    List.map_id']

/-- Lines make the table of their header and their rows. -/
theorem ofLines_cons (path : Path) (separator : String) (first : List Char)
    (rest : List (List Char)) :
    ofLines path separator (first :: rest) = do
      let header ← Cells.split separator first
      let rows ← rest.mapM (Cells.split separator)
      return ofRows path header rows := by
  rw [ofLines]
  cases Cells.split separator first with
  | error e => rfl
  | ok header =>
      show (do
        let columns ← addRows separator (addColumns [] 0 header) rest
        return _) = _
      rw [addColumns_eq, addRows_eq]
      cases hrows : rest.mapM (Cells.split separator) with
      | error e => rfl
      | ok rows =>
          have hlength : rest.length = rows.length := by
            have hlengths := congrArg List.length (mapM_eq_ok_iff.1 hrows)
            rwa [List.length_map, List.length_map] at hlengths
          show _ = Except.ok (ofRows path header rows)
          rw [ofRows_eq, ← hlength]
          rfl

end TableQuery.Table

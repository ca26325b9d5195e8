import TableQuery.Proofs.SelectedRows
import TableQuery.Proofs.WrittenTable

/-!
# Rows without quotes

Most files that are separated by one character hold no quotes. Without them the
reader of quoted cells has nothing to do but to look for the separator, and its
cells are the pieces between the separators (`lineCells_eq_pieces`), empty ones
included.

So rows of cells that are joined by the separator are read back cell by cell,
once a line is a row at all. That is settled before the separator is looked
for: a line of white space is no row. Where the separator itself is white space,
as a tab is, this leaves out a row that has nothing else in its cells
(`isBlankRow`), and the rows behind it move up. No other row is left out.
-/

namespace TableQuery

namespace Cells

/-! ## Pieces -/

/-- The places that are left where there are no quotes. -/
def Place.Unquoted (place : Place) : Prop :=
  place = .recordStart ∨ place = .cellStart ∨ place = .plain

theorem Place.Unquoted.move_eq {place : Place} (h : place.Unquoted)
    (separator : Char) {c : Char} (hc : c ≠ '\x22') :
    place.move separator c = if c = separator then .close else .add .plain := by
  rcases h with rfl | rfl | rfl
  · exact if_neg hc
  · exact if_neg hc
  · rfl

theorem piecesFrom_singleton (separator : Char) (begun : List Char) (c : Char)
    (cs : List Char) :
    piecesFrom [separator] begun (c :: cs) =
      if c = separator then begun.reverse :: piecesFrom [separator] [] cs
      else piecesFrom [separator] (c :: begun) cs := by
  rw [piecesFrom]
  by_cases hc : c = separator
  · subst hc
    simp
  · have hne : ¬ separator = c := fun h => hc h.symm
    simp [hc, hne]

/-- Where cells end without quotes does not depend on the place, except that
nothing at all is no cell. -/
theorem cellsFrom_eq_piecesFrom (separator : Char) {place : Place}
    (hplace : place.Unquoted) (begun : List Char) {cs : List Char}
    (hcs : '\x22' ∉ cs) (hstart : place = .recordStart → cs ≠ []) :
    cellsFrom separator place begun cs = piecesFrom [separator] begun cs := by
  induction cs generalizing place begun with
  | nil =>
      rw [cellsFrom, piecesFrom, if_neg fun h => hstart h rfl]
  | cons c cs ih =>
      rw [List.mem_cons, not_or] at hcs
      have hmove := hplace.move_eq separator (Ne.symm hcs.1)
      rw [piecesFrom_singleton]
      by_cases hc : c = separator
      · rw [if_pos hc] at hmove ⊢
        rw [cellsFrom, hmove]
        exact congrArg _ (ih (.inr (.inl rfl)) [] hcs.2 (fun h => by cases h))
      · rw [if_neg hc] at hmove ⊢
        rw [cellsFrom, hmove]
        exact ih (.inr (.inr rfl)) (c :: begun) hcs.2 (fun h => by cases h)

/-- The cells of a line without quotes are what the separator leaves of it. -/
theorem lineCells_eq_pieces (separator : Char) {line : List Char}
    (hne : line ≠ []) (hquote : '\x22' ∉ line) :
    lineCells separator line = pieces [separator] line :=
  cellsFrom_eq_piecesFrom separator (.inl rfl) [] hquote fun _ => hne

/-- So a line with neither quotes nor line ends is split like one that is only
searched for the separator, as long as no piece is too long. -/
theorem split_eq_pieces {text : String} {separator : Char}
    (htext : text.toList = [separator]) (hspace : separator ≠ ' ')
    {line : List Char} (hne : line ≠ []) (hquote : '\x22' ∉ line)
    (hends : ∀ c ∈ line, Reading.isLineEnd c = false) :
    split text line =
      if ∀ piece ∈ pieces [separator] line, piece.length ≤ maxCellLength then
        .ok ((pieces [separator] line).map String.ofList)
      else .error .cellTooLong := by
  rw [split_quoted htext hspace, quotedCells_eq hends,
    lineCells_eq_pieces separator hne hquote]
  split
  · rfl
  · rfl

/-! ## Joined cells -/

/-- A cell that can stand in a line as it is, next to a separator. -/
structure Unquoted (separator : Char) (cell : String) : Prop where
  free : ∀ c ∈ cell.toList,
    c ≠ separator ∧ c ≠ '\x22' ∧ Text.isLineBreak c = false
  length_le : cell.length ≤ maxCellLength

instance (separator : Char) (cell : String) :
    Decidable (Unquoted separator cell) :=
  decidable_of_iff
    (cell.toList.all (fun c =>
      decide (c ≠ separator ∧ c ≠ '\x22' ∧ Text.isLineBreak c = false)) = true ∧
      cell.length ≤ maxCellLength) <| by
    simp only [List.all_eq_true, decide_eq_true_eq]
    exact ⟨fun h => ⟨h.1, h.2⟩, fun h => ⟨h.free, h.length_le⟩⟩

/-- Cells as a line, a separator between any two of them. -/
def joined (separator : Char) (cells : List String) : List Char :=
  [separator].intercalate (cells.map String.toList)

/-- A row of nothing but white space, with the separators between its cells. -/
def isBlankRow (separator : Char) (cells : List String) : Bool :=
  Text.isBlank separator && cells.all (Text.isAllBlank ·.toList)

theorem joined_cons_cons (separator : Char) (cell next : String)
    (cells : List String) :
    joined separator (cell :: next :: cells) =
      cell.toList ++ separator :: joined separator (next :: cells) := by
  rw [joined, List.map_cons, List.map_cons, List.intercalate_cons_cons,
    List.append_assoc, List.singleton_append]
  rfl

theorem joined_ne_nil (separator : Char) {cells : List String}
    (h : 2 ≤ cells.length) : joined separator cells ≠ [] := by
  match cells, h with
  | cell :: next :: cells, _ => simp [joined_cons_cons]

theorem isAllBlank_joined_cons (separator : Char) (cell : String)
    (cells : List String) :
    Text.isAllBlank (joined separator (cell :: cells)) =
      (Text.isAllBlank cell.toList &&
        cells.all fun next =>
          Text.isBlank separator && Text.isAllBlank next.toList) := by
  induction cells generalizing cell with
  | nil => simp [joined]
  | cons next cells ih =>
      have hnext := ih next
      rw [Text.isAllBlank] at hnext
      rw [joined_cons_cons, Text.isAllBlank, List.all_append, List.all_cons,
        hnext, List.all_cons, Bool.and_assoc]
      rfl

theorem isAllBlank_joined (separator : Char) {cells : List String}
    (h : 2 ≤ cells.length) :
    Text.isAllBlank (joined separator cells) = isBlankRow separator cells := by
  match cells, h with
  | cell :: next :: cells, _ =>
      rw [isAllBlank_joined_cons, isBlankRow]
      cases Text.isBlank separator <;> simp

theorem of_mem_joined {separator : Char} {cells : List String}
    (hcells : ∀ cell ∈ cells, Unquoted separator cell) {c : Char}
    (hc : c ∈ joined separator cells) :
    c = separator ∨ c ≠ '\x22' ∧ Text.isLineBreak c = false := by
  rcases of_mem_intercalate hc with hc | ⟨part, hpart, hc⟩
  · exact .inl (List.mem_singleton.1 hc)
  · obtain ⟨cell, hcell, rfl⟩ := List.mem_map.1 hpart
    exact .inr ((hcells cell hcell).free c hc).2

theorem isLineBreak_joined {separator : Char}
    (hbreak : Text.isLineBreak separator = false) {cells : List String}
    (hcells : ∀ cell ∈ cells, Unquoted separator cell) :
    ∀ c ∈ joined separator cells, Text.isLineBreak c = false := by
  intro c hc
  rcases of_mem_joined hcells hc with rfl | h
  · exact hbreak
  · exact h.2

theorem split_joined {text : String} {separator : Char}
    (htext : text.toList = [separator]) (hspace : separator ≠ ' ')
    (hquote : separator ≠ '\x22') (hbreak : Text.isLineBreak separator = false)
    {cells : List String} (hlength : 2 ≤ cells.length)
    (hcells : ∀ cell ∈ cells, Unquoted separator cell) :
    split text (joined separator cells) = .ok cells := by
  have hnone : '\x22' ∉ joined separator cells := by
    intro hmem
    rcases of_mem_joined hcells hmem with h | h
    · exact hquote h.symm
    · exact h.1 rfl
  have hne : cells.map String.toList ≠ [] := by
    intro hnil
    rw [List.map_eq_nil_iff.1 hnil] at hlength
    cases hlength
  have hfree : ∀ part ∈ cells.map String.toList, ∀ c ∈ part,
      c ∉ [separator] :=
    List.forall_mem_map.2 fun cell hcell c hc hmem =>
      ((hcells cell hcell).free c hc).1 (List.mem_singleton.1 hmem)
  have hpieces : pieces [separator] (joined separator cells) =
      cells.map String.toList :=
    pieces_intercalate (List.cons_ne_nil _ _) hne hfree
  have hfits : ∀ part ∈ cells.map String.toList,
      part.length ≤ maxCellLength :=
    List.forall_mem_map.2 fun cell hcell => by
      rw [String.length_toList]
      exact (hcells cell hcell).length_le
  have hends := Table.isLineEnd_of_no_break (isLineBreak_joined hbreak hcells)
  rw [split_eq_pieces htext hspace (joined_ne_nil separator hlength) hnone
    hends, hpieces, if_pos hfits, map_ofList_map_toList]

end Cells

namespace Table

open Cells (Unquoted joined isBlankRow)

/-- The rows that are not blank. -/
def inkedRows (separator : Char) (rows : List (List String)) :
    List (List String) :=
  rows.filter (!isBlankRow separator ·)

theorem inkedRows_eq_self {separator : Char}
    (h : Text.isBlank separator = false) (rows : List (List String)) :
    inkedRows separator rows = rows := by
  rw [inkedRows, List.filter_eq_self]
  intro cells _
  rw [isBlankRow, h]
  rfl

/-- The lines that are left of a file are those of the rows that are left. -/
theorem inkedLines_joined {separator : Char}
    (hbreak : Text.isLineBreak separator = false) {rows : List (List String)}
    (hlength : ∀ cells ∈ rows, 2 ≤ cells.length)
    (hcells : ∀ cells ∈ rows, ∀ cell ∈ cells, Unquoted separator cell) :
    Text.inkedLines (Text.filed (rows.map (joined separator))) =
      (inkedRows separator rows).map (joined separator) := by
  rw [Text.inkedLines_filed_eq_filter (List.forall_mem_map.2 fun cells hmem =>
    Cells.isLineBreak_joined hbreak (hcells cells hmem)), List.filter_map]
  congr 1
  refine List.filter_congr fun cells hmem => ?_
  rw [Function.comp_apply, Cells.isAllBlank_joined separator (hlength cells hmem)]

/-- Under different names each place of a row is shown by the name there. -/
theorem cell_ofRows (path : Path) {header : List String}
    {rows : List (List String)} (hdistinct : header.Nodup) {row place : Nat}
    {cells : List String} {name cell : String}
    (hrow : (header :: rows)[row]? = some cells)
    (hname : header[place]? = some name) (hcell : cells[place]? = some cell) :
    (ofRows path header rows).cell name row = .ok cell := by
  have hwithin : row ≤ (ofRows path header rows).rowCount := by
    obtain ⟨hlt, -⟩ := List.getElem?_eq_some_iff.1 hrow
    exact Nat.le_of_lt_succ hlt
  have hidx : header.idxOf name = place := by
    obtain ⟨hlt, rfl⟩ := List.getElem?_eq_some_iff.1 hname
    exact hdistinct.idxOf_getElem place hlt
  rw [(even_ofRows path header rows).cell_eq name (by omega) (by omega),
    Int.toNat_natCast, shown, entry?_ofRows (List.mem_of_getElem? hname), hrow,
    Option.map_some, hidx, List.getD_eq_getElem?_getD, hcell]
  rfl

/-- A file of joined rows makes the table of its header and of those rows that
are not blank. -/
theorem load_joined {files : Path → Entry} {path : Path}
    {text : String} {separator : Char} (htext : text.toList = [separator])
    (hspace : separator ≠ ' ') (hquote : separator ≠ '\x22')
    (hbreak : Text.isLineBreak separator = false) {names : List String}
    {rows : List (List String)}
    (hlength : ∀ cells ∈ names :: rows, 2 ≤ cells.length)
    (hcells : ∀ cells ∈ names :: rows, ∀ cell ∈ cells,
      Unquoted separator cell)
    (hheader : isBlankRow separator names = false)
    (hfile : files path = .file (Text.Utf8.encode
      (Text.filed ((names :: rows).map (joined separator))))) :
    load files path text =
      .ok (ofRows path names (inkedRows separator rows)) := by
  have hsplit : ∀ cells ∈ names :: rows,
      Cells.split text (joined separator cells) = .ok cells := by
    intro cells hmem
    exact Cells.split_joined htext hspace hquote hbreak (hlength cells hmem)
      (hcells cells hmem)
  obtain ⟨hnames, hrows⟩ := List.forall_mem_cons.1 hsplit
  have hkept : ((inkedRows separator rows).map (joined separator)).map
      (Cells.split text) = (inkedRows separator rows).map .ok := by
    rw [List.map_map]
    refine List.map_congr_left fun cells hmem => ?_
    exact hrows cells (List.mem_of_mem_filter hmem)
  have hinked : Text.inkedLines
      (Text.filed ((names :: rows).map (joined separator))) =
      joined separator names ::
        (inkedRows separator rows).map (joined separator) := by
    rw [inkedLines_joined hbreak hlength hcells, inkedRows, List.filter_cons,
      hheader]
    rfl
  exact load_filed hinked hfile hnames hkept

/-- Rows of cells that need no quotes, each with as many cells as a header of
at least two different names, make a table that has them cell by cell, the
header in row zero. Only blank rows are left out, so none is unless the
separator is white space. -/
theorem unquoted_rows_are_loaded (files : Path → Entry)
    (path : Path) {text : String} {separator : Char}
    (htext : text.toList = [separator]) (hspace : separator ≠ ' ')
    (hquote : separator ≠ '\x22') (hbreak : Text.isLineBreak separator = false)
    {names : List String} {rows : List (List String)}
    (hnames : 2 ≤ names.length) (hdistinct : names.Nodup)
    (hlength : ∀ cells ∈ rows, cells.length = names.length)
    (hcells : ∀ cells ∈ names :: rows, ∀ cell ∈ cells,
      Unquoted separator cell)
    (hheader : isBlankRow separator names = false)
    (hfile : files path = .file (Text.Utf8.encode
      (Text.filed ((names :: rows).map (joined separator))))) :
    ∃ t, load files path text = .ok t ∧ t.fields = names ∧
      t.rowCount = (inkedRows separator rows).length ∧
      (∀ (row : Nat) cells,
        (names :: inkedRows separator rows)[row]? = some cells →
        ∀ (place : Nat) name cell, names[place]? = some name →
          cells[place]? = some cell → t.cell name row = .ok cell) ∧
      (Text.isBlank separator = false → inkedRows separator rows = rows) := by
  have hwide : ∀ cells ∈ names :: rows, 2 ≤ cells.length := by
    refine List.forall_mem_cons.2 ⟨hnames, ?_⟩
    intro cells hmem
    rw [hlength cells hmem]
    exact hnames
  refine ⟨ofRows path names (inkedRows separator rows),
    load_joined htext hspace hquote hbreak hwide hcells hheader hfile,
    eraseDups_of_nodup hdistinct, rfl, ?_, ?_⟩
  · intro row cells hrow place name cell hname hcell
    exact cell_ofRows path hdistinct hrow hname hcell
  · intro hblank
    exact inkedRows_eq_self hblank rows

/-- Rows as the lines of a file, cells joined by a separator. -/
def joinedFile (separator : Char) (rows : List (List String)) : List UInt8 :=
  Text.Utf8.encode (Text.filed (rows.map (joined separator)))

/-- Two rows, of which the first one is empty. -/
def sparseRows : List (List String) :=
  [["", ""], ["1", "2"]]

/-- The empty row is a row between commas, and none between tabs. -/
theorem sparseRows_are_loaded :
    (∀ cells ∈ ["a", "b"] :: sparseRows, cells.length = 2 ∧
      ∀ cell ∈ cells, Unquoted ',' cell ∧ Unquoted '\t' cell) ∧
    (∃ t, load (fun _ => .file (joinedFile ',' (["a", "b"] :: sparseRows)))
        (.ofString "T") "," = .ok t ∧
      t.fields = ["a", "b"] ∧ t.rowCount = 2 ∧
      t.cell "a" 1 = .ok "" ∧ t.cell "b" 2 = .ok "2") ∧
    ∃ t, load (fun _ => .file (joinedFile '\t' (["a", "b"] :: sparseRows)))
        (.ofString "T") "\t" = .ok t ∧
      t.fields = ["a", "b"] ∧ t.rowCount = 1 ∧ t.cell "b" 1 = .ok "2" := by
  have hcomma : ",".toList = [','] := rfl
  have htab : "\t".toList = ['\t'] := rfl
  refine ⟨by decide, ?_, ?_⟩
  · obtain ⟨t, hload, hfields, hcount, hcells, hall⟩ :=
      unquoted_rows_are_loaded
        (fun _ => .file (joinedFile ',' (["a", "b"] :: sparseRows)))
        (.ofString "T") hcomma (by decide) (by decide) (by decide) (by decide)
        (by decide) (by decide) (by decide) (by decide) rfl
    rw [hall (by decide)] at hcount hcells
    refine ⟨t, hload, hfields, hcount, ?_, ?_⟩
    · exact hcells 1 ["", ""] rfl 0 "a" "" rfl rfl
    · exact hcells 2 ["1", "2"] rfl 1 "b" "2" rfl rfl
  · obtain ⟨t, hload, hfields, hcount, hcells, -⟩ :=
      unquoted_rows_are_loaded
        (fun _ => .file (joinedFile '\t' (["a", "b"] :: sparseRows)))
        (.ofString "T") htab (by decide) (by decide) (by decide) (by decide)
        (by decide) (by decide) (by decide) (by decide) rfl
    refine ⟨t, hload, hfields, hcount, ?_⟩
    exact hcells 1 ["1", "2"] rfl 1 "b" "2" rfl rfl

/-- A loaded table can have fewer rows than were joined by tabs, and another
header. -/
theorem tabbed_blank_rows_are_left_out :
    (∀ cells ∈ ["", " "] :: ["a", "b"] :: sparseRows, cells.length = 2 ∧
      ∀ cell ∈ cells, Unquoted '\t' cell) ∧
    (∃ t, load (fun _ => .file (joinedFile '\t' (["a", "b"] :: sparseRows)))
        (.ofString "T") "\t" = .ok t ∧
      t.rowCount ≠ sparseRows.length ∧ t.cell "a" 1 ≠ .ok "") ∧
    ∃ t, load (fun _ => .file (joinedFile '\t' (["", " "] :: sparseRows)))
        (.ofString "T") "\t" = .ok t ∧
      t.fields = ["1", "2"] ∧ t.rowCount = 0 :=
  ⟨by decide, ⟨_, rfl, by decide, by decide⟩, ⟨_, rfl, rfl, rfl⟩⟩

end Table

end TableQuery

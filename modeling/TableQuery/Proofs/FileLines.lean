import TableQuery.Proofs.LineCells
import TableQuery.Proofs.TableRows

/-!
# The lines of a file and the rows of its table

What ends a row is a line break, and a line feed is only one of these. Reading
a file first makes line feeds of carriage returns (`unified`), and then breaks
the text at every character that ends a line anywhere: the tabulations, the
information separators and the line and paragraph separators of Unicode too.

`newlineRows` are the rows that line feeds alone would give. The lines of a
text are these rows broken once more (`inkedLines_eq_flatMap`), so the two agree
exactly when no row with ink in it holds another break. Everything else about a
table is made from its lines one by one, which is what `MadeFrom` says: no cell
depends on more than its own line and the header.
-/

namespace TableQuery

namespace Text

/-- A text with a line feed in place of each carriage return, and of each pair
of a carriage return and a line feed. -/
def unified : List Char → List Char
  | '\r' :: '\n' :: cs => '\n' :: unified cs
  | '\r' :: cs => '\n' :: unified cs
  | c :: cs => c :: unified cs
  | [] => []

/-- The pieces of a text between line feeds that hold more than white space. -/
def newlineRows (cs : List Char) : List (List Char) :=
  (cs.splitOn '\n').filter (!isAllBlank ·)

/-! ## Texts piece by piece -/

/-- A text is a piece without breaks, or such a piece, a break and a text. -/
theorem pieceInduction {motive : List Char → Prop} (p : Char → Bool)
    (last : ∀ line, (∀ c ∈ line, p c = false) → motive line)
    (more : ∀ line c rest, (∀ d ∈ line, p d = false) → p c = true →
      motive rest → motive (line ++ c :: rest)) (cs : List Char) :
    motive cs := by
  -- The piece that is begun has to grow along the induction.
  have hbegun : ∀ line, (∀ c ∈ line, p c = false) → motive (line ++ cs) := by
    induction cs with
    | nil =>
        intro line hline
        rw [List.append_nil]
        exact last line hline
    | cons c cs ih =>
        intro line hline
        cases hc : p c with
        | true =>
            have hrest := ih [] fun d hd => by cases hd
            exact more line c cs hline hc hrest
        | false =>
            rw [List.append_cons]
            refine ih (line ++ [c]) fun d hd => ?_
            rcases List.mem_append.1 hd with hd | hd
            · exact hline d hd
            · rwa [List.mem_singleton.1 hd]
  exact hbegun [] fun c hc => by cases hc

theorem filter_splitOnP_of_no_break {p : Char → Bool} {line : List Char}
    (h : ∀ c ∈ line, p c = false) :
    (line.splitOnP p).filter (!isAllBlank ·) =
      if isAllBlank line then [] else [line] := by
  rw [List.splitOnP_eq_singleton h, List.filter_cons]
  cases isAllBlank line with
  | true => rfl
  | false => rfl

theorem inkedLines_cons_break {c : Char} (h : isLineBreak c = true)
    (cs : List Char) : inkedLines (c :: cs) = inkedLines cs :=
  inkedLines_append_break h [] cs

theorem inkedLines_of_no_break {line : List Char}
    (h : ∀ c ∈ line, isLineBreak c = false) :
    inkedLines line = if isAllBlank line then [] else [line] :=
  filter_splitOnP_of_no_break h

theorem inkedLines_of_isAllBlank {cs : List Char} (h : isAllBlank cs = true) :
    inkedLines cs = [] := by
  induction cs using pieceInduction isLineBreak with
  | last line hline => rw [inkedLines_of_no_break hline, if_pos h]
  | more line c rest hline hc ih =>
      rw [isAllBlank, List.all_append, List.all_cons, Bool.and_eq_true,
        Bool.and_eq_true] at h
      obtain ⟨hblank, -, hrest⟩ := h
      rw [inkedLines_append_break hc, inkedLines_of_no_break hline, ih hrest,
        List.append_nil]
      exact if_pos hblank

theorem of_mem_inkedLines_of_no_break {piece line : List Char}
    (hpiece : ∀ c ∈ piece, isLineBreak c = false)
    (h : line ∈ inkedLines piece) : line = piece ∧ isAllBlank piece = false := by
  rw [inkedLines_of_no_break hpiece] at h
  cases hblank : isAllBlank piece with
  | true => rw [hblank] at h; cases h
  | false =>
      rw [hblank] at h
      exact ⟨List.mem_singleton.1 h, rfl⟩

/-- A line has ink, and no break inside. -/
theorem of_mem_inkedLines {cs line : List Char} (h : line ∈ inkedLines cs) :
    isAllBlank line = false ∧ ∀ c ∈ line, isLineBreak c = false := by
  induction cs using pieceInduction isLineBreak with
  | last piece hpiece =>
      obtain ⟨rfl, hink⟩ := of_mem_inkedLines_of_no_break hpiece h
      exact ⟨hink, hpiece⟩
  | more piece c rest hpiece hc ih =>
      rw [inkedLines_append_break hc, List.mem_append] at h
      rcases h with h | h
      · obtain ⟨rfl, hink⟩ := of_mem_inkedLines_of_no_break hpiece h
        exact ⟨hink, hpiece⟩
      · exact ih h

/-! ## Carriage returns -/

theorem unified_cons {c : Char} (h : c ≠ '\r') (cs : List Char) :
    unified (c :: cs) = c :: unified cs := by
  rw [unified]
  · intro _ hc
    exact absurd hc h
  · intro hc
    exact absurd hc h

theorem unified_append {line : List Char} (h : '\r' ∉ line)
    (cs : List Char) : unified (line ++ cs) = line ++ unified cs := by
  induction line with
  | nil => rfl
  | cons c line ih =>
      rw [List.mem_cons, not_or] at h
      rw [List.cons_append, unified_cons (Ne.symm h.1), ih h.2,
        List.cons_append]

/-- The line feed behind a carriage return ends an empty line. -/
theorem unified_return (cs : List Char) :
    ∃ ds, unified ('\r' :: cs) = '\n' :: ds ∧
      inkedLines ds = inkedLines (unified cs) := by
  match cs with
  | [] => exact ⟨[], rfl, rfl⟩
  | c :: cs =>
      by_cases hc : c = '\n'
      · subst hc
        refine ⟨unified cs, by rw [unified], ?_⟩
        rw [unified_cons (by decide), inkedLines_cons_break (by decide)]
      · refine ⟨unified (c :: cs), ?_, rfl⟩
        rw [unified]
        intro _ heq
        exact hc (List.cons.inj heq).1

theorem inkedLines_unified (cs : List Char) :
    inkedLines (unified cs) = inkedLines cs := by
  have hnot : ∀ {line : List Char}, (∀ c ∈ line, isLineBreak c = false) →
      '\r' ∉ line := by
    intro line hline hmem
    have hreturn := hline '\r' hmem
    revert hreturn
    decide
  induction cs using pieceInduction isLineBreak with
  | last line hline =>
      have hunified := unified_append (hnot hline) []
      rw [unified, List.append_nil] at hunified
      rw [hunified]
  | more line c rest hline hc ih =>
      rw [unified_append (hnot hline), inkedLines_append_break hc, ← ih]
      by_cases hr : c = '\r'
      · subst hr
        obtain ⟨ds, hds, hrest⟩ := unified_return rest
        rw [hds, inkedLines_append_break (by decide), hrest]
      · rw [unified_cons hr, inkedLines_append_break hc]

/-! ## Line feeds and other breaks -/

theorem newlineRows_append_feed (cs ds : List Char) :
    newlineRows (cs ++ '\n' :: ds) = newlineRows cs ++ newlineRows ds := by
  rw [newlineRows, List.splitOn_append_cons_self, List.filter_append]
  rfl

theorem newlineRows_of_no_feed {line : List Char}
    (h : ∀ c ∈ line, (c == '\n') = false) :
    newlineRows line = if isAllBlank line then [] else [line] :=
  filter_splitOnP_of_no_break h

/-- The lines of a text are its newline rows, broken at the other breaks. -/
theorem inkedLines_eq_flatMap (cs : List Char) :
    inkedLines cs = (newlineRows cs).flatMap inkedLines := by
  have hpiece : ∀ line : List Char, (∀ c ∈ line, (c == '\n') = false) →
      (newlineRows line).flatMap inkedLines = inkedLines line := by
    intro line hline
    rw [newlineRows_of_no_feed hline]
    cases hblank : isAllBlank line with
    | true => exact (inkedLines_of_isAllBlank hblank).symm
    | false => exact List.flatMap_singleton inkedLines line
  induction cs using pieceInduction (· == '\n') with
  | last line hline => exact (hpiece line hline).symm
  | more line c rest hline hc ih =>
      obtain rfl := eq_of_beq hc
      rw [inkedLines_append_break (by decide), newlineRows_append_feed,
        List.flatMap_append, hpiece line hline, ih]

theorem inkedLines_eq_newlineRows_iff (cs : List Char) :
    inkedLines cs = newlineRows cs ↔
      ∀ row ∈ newlineRows cs, ∀ c ∈ row, isLineBreak c = false := by
  constructor
  · intro h row hrow
    rw [← h] at hrow
    exact (of_mem_inkedLines hrow).2
  · intro h
    have hone : ∀ row ∈ newlineRows cs, inkedLines row = [row] := by
      intro row hrow
      have hink : isAllBlank row = false := by
        simpa using (List.mem_filter.1 hrow).2
      rw [inkedLines_of_no_break (h row hrow), hink]
      rfl
    rw [inkedLines_eq_flatMap, List.flatMap_def, List.map_congr_left hone,
      ← List.flatMap_def, List.flatMap_singleton']

end Text

/-! ## Lines become rows -/

namespace Table

open Text (inkedLines newlineRows unified)

/-- A table is made from lines: the first one names the fields, and in row `i`
a field has the cell of line `i` at the place where its name comes first, or
nothing where that line has too few cells. Row zero is the header. -/
structure MadeFrom (t : Table) (separator : String)
    (lines : List (List Char)) : Prop where
  rowCount_eq : t.rowCount = lines.length - 1
  entry?_eq : ∀ first ∈ lines.head?, ∃ names,
    Cells.split separator first = .ok names ∧
    ∀ row line, lines[row]? = some line → ∃ cells,
      Cells.split separator line = .ok cells ∧
      ∀ name ∈ names,
        t.entry? name row = some (cells.getD (names.idxOf name) "")

theorem lookup_map_mk_of_mem {names : List String} {name : String}
    (f : String → Array String) (h : name ∈ names) :
    (names.map fun n => (n, f n)).lookup name = some (f name) := by
  induction names with
  | nil => cases h
  | cons n names ih =>
      rw [List.map_cons, List.lookup_cons]
      cases hn : name == n with
      | true => rw [eq_of_beq hn]
      | false =>
          rcases List.mem_cons.1 h with heq | hmem
          · rw [heq, beq_self_eq_true] at hn
            cases hn
          · exact ih hmem

/-- Row zero of a column is its name, and this is also what the header has at
the place where the name comes first. -/
theorem getElem?_columnOf {header : List String} {rows : List (List String)}
    {name : String} (h : name ∈ header) (row : Nat) :
    (columnOf header rows name)[row]? =
      ((header :: rows)[row]?).map fun cells =>
        cells.getD (header.idxOf name) "" := by
  have hname : header.getD (header.idxOf name) "" = name := by
    have hlt := List.idxOf_lt_length_iff.2 h
    rw [List.getD_eq_getElem?_getD, List.getElem?_eq_getElem hlt,
      Option.getD_some, List.getElem_idxOf hlt]
  rw [columnOf, List.getElem?_toArray]
  cases row with
  | zero =>
      rw [List.getElem?_cons_zero, List.getElem?_cons_zero, Option.map_some,
        hname]
  | succ row =>
      rw [List.getElem?_cons_succ, List.getElem?_cons_succ, List.getElem?_map]

theorem entry?_ofRows {path : Path} {header : List String}
    {rows : List (List String)} {name : String} (h : name ∈ header)
    (row : Nat) :
    Table.entry? (ofRows path header rows) name row =
      ((header :: rows)[row]?).map fun cells =>
        cells.getD (header.idxOf name) "" := by
  have hcolumn : (ofRows path header rows).column? name =
      some (columnOf header rows name) :=
    lookup_map_mk_of_mem _ (List.mem_eraseDups.2 h)
  unfold entry?
  rw [hcolumn, Option.bind_some, getElem?_columnOf h]

theorem madeFrom_of_ofLines {path : Path} {separator : String}
    {lines : List (List Char)} {t : Table}
    (h : ofLines path separator lines = .ok t) :
    t.MadeFrom separator lines := by
  rcases ofLines_eq_ok h with
    ⟨rfl, rfl⟩ | ⟨first, rest, header, rows, rfl, hheader, hrows, rfl⟩
  · exact ⟨rfl, fun first hfirst => by cases hfirst⟩
  · -- Header and rows together are the cells of all the lines.
    have hall : (first :: rest).map (Cells.split separator) =
        (header :: rows).map .ok := by
      rw [List.map_cons, List.map_cons, hheader, mapM_eq_ok_iff.1 hrows]
    have hlength := congrArg List.length hall
    rw [List.length_map, List.length_map, List.length_cons,
      List.length_cons] at hlength
    refine ⟨?_, fun first' hfirst => ?_⟩
    · show rows.length = rest.length + 1 - 1
      omega
    · cases hfirst
      refine ⟨header, hheader, fun row line hline => ?_⟩
      have hrow := congrArg (·[row]?) hall
      simp only [List.getElem?_map] at hrow
      rw [hline, Option.map_some, eq_comm, Option.map_eq_some_iff] at hrow
      obtain ⟨cells, hcells, hsplit⟩ := hrow
      refine ⟨cells, hsplit.symm, fun name hname => ?_⟩
      rw [entry?_ofRows hname, hcells, Option.map_some]

/-! ## Loading -/

theorem isLineBreak_of_isLineEnd {c : Char}
    (h : Cells.Reading.isLineEnd c = true) : Text.isLineBreak c = true := by
  rw [Cells.Reading.isLineEnd, Bool.or_eq_true, beq_iff_eq, beq_iff_eq] at h
  rcases h with rfl | rfl <;> decide

theorem isLineEnd_of_no_break {line : List Char}
    (h : ∀ c ∈ line, Text.isLineBreak c = false) :
    ∀ c ∈ line, Cells.Reading.isLineEnd c = false := by
  intro c hc
  cases hend : Cells.Reading.isLineEnd c with
  | false => rfl
  | true =>
      have hbreak := h c hc
      rw [isLineBreak_of_isLineEnd hend] at hbreak
      cases hbreak

theorem isLineEnd_of_mem_inkedLines {cs line : List Char}
    (h : line ∈ inkedLines cs) :
    ∀ c ∈ line, Cells.Reading.isLineEnd c = false :=
  isLineEnd_of_no_break (Text.of_mem_inkedLines h).2

theorem ofLines_of_split (path : Path) {separator : String}
    {first : List Char} {rest : List (List Char)} {names : List String}
    {rows : List (List String)} (hfirst : Cells.split separator first = .ok names)
    (hrest : rest.map (Cells.split separator) = rows.map .ok) :
    ofLines path separator (first :: rest) = .ok (ofRows path names rows) := by
  rw [ofLines_cons, hfirst, mapM_eq_ok_iff.2 hrest]
  rfl

/-- Lines that can be split make a table. -/
theorem exists_ofLines_of_split (path : Path) {separator : String}
    {lines : List (List Char)}
    (h : ∀ line ∈ lines, ∃ cells, Cells.split separator line = .ok cells) :
    ∃ t, ofLines path separator lines = .ok t := by
  match lines with
  | [] => exact ⟨_, rfl⟩
  | first :: rest =>
      obtain ⟨header, hheader⟩ := h first List.mem_cons_self
      obtain ⟨rows, hrows⟩ := exists_mapM_eq_ok fun line hline =>
        h line (List.mem_cons_of_mem first hline)
      exact ⟨_, ofLines_of_split path hheader (mapM_eq_ok_iff.1 hrows)⟩

/-- Lines that fit make a table. -/
theorem exists_ofLines (path : Path) {separator : String}
    {lines : List (List Char)}
    (hlines : ∀ line ∈ lines, ∀ c ∈ line, Cells.Reading.isLineEnd c = false)
    (hfits : ∀ line ∈ lines, Cells.Fits separator line) :
    ∃ t, ofLines path separator lines = .ok t :=
  exists_ofLines_of_split path fun line hline =>
    (Cells.split_eq_ok_iff (hlines line hline)).2 (hfits line hline)

theorem fileLines_of_decode {path : Path} {bytes : List UInt8}
    {text : List Char} (h : Text.Utf8.decode bytes = .ok text) :
    fileLines path (.file bytes) = .ok (inkedLines text) := by
  rw [fileLines, h]

theorem load_of_fileLines {files : Path → Entry} {path : Path}
    {separator : String} {lines : List (List Char)}
    (h : fileLines path (files path) = .ok lines) :
    load files path separator =
      (ofLines path separator lines).mapError .cells := by
  rw [load, h]
  rfl

/-- Loading a file is making a table of the lines of its text. That carriage
returns are made line feeds first has no effect on the lines. -/
theorem load_of_decode {files : Path → Entry} {path : Path}
    {separator : String} {bytes : List UInt8} {text : List Char}
    (hfile : files path = .file bytes)
    (hdecode : Text.Utf8.decode bytes = .ok text) :
    load files path separator =
      (ofLines path separator (inkedLines (unified text))).mapError
        .cells := by
  apply load_of_fileLines
  rw [hfile, fileLines_of_decode hdecode, Text.inkedLines_unified]

/-- A file whose cells fit is loaded, and its rows are made from the newline
rows of its text, each broken at any other line break in it. These are the
newline rows themselves exactly when none of them holds such a break. -/
theorem rows_end_at_line_breaks (files : Path → Entry)
    (path : Path) {separator : String} {bytes : List UInt8} {text : List Char}
    (hfile : files path = .file bytes)
    (hdecode : Text.Utf8.decode bytes = .ok text)
    (hfits : ∀ line ∈ (newlineRows (unified text)).flatMap inkedLines,
      Cells.Fits separator line) :
    ∃ t, load files path separator = .ok t ∧
      t.MadeFrom separator
        ((newlineRows (unified text)).flatMap inkedLines) ∧
      ((newlineRows (unified text)).flatMap inkedLines =
          newlineRows (unified text) ↔
        ∀ row ∈ newlineRows (unified text), ∀ c ∈ row,
          Text.isLineBreak c = false) := by
  rw [← Text.inkedLines_eq_flatMap] at hfits ⊢
  rw [← Text.inkedLines_eq_newlineRows_iff]
  have hlines : fileLines path (files path) =
      .ok (inkedLines (unified text)) := by
    rw [hfile, fileLines_of_decode hdecode, Text.inkedLines_unified]
  obtain ⟨t, ht⟩ := exists_ofLines path
    (fun line hline => isLineEnd_of_mem_inkedLines hline) hfits
  refine ⟨t, ?_, madeFrom_of_ofLines ht, Iff.rfl⟩
  rw [load_of_fileLines hlines, ht]
  rfl

/-- A file of a header and one row between line feeds. The row holds a line
separator, U+2028. -/
def separatorFile : List UInt8 :=
  [0x61, 0x0A, 0x78, 0xE2, 0x80, 0xA8, 0x79, 0x0A]

/-- The text of `separatorFile`. -/
def separatorText : List Char :=
  ['a', '\n', 'x', '\u2028', 'y', '\n']

theorem separatorFile_has_two_rows :
    (fun _ : Path => Entry.file separatorFile) (.ofString "T") =
      .file separatorFile ∧
    Text.Utf8.decode separatorFile = .ok separatorText ∧
    ∃ t, load (fun _ => .file separatorFile) (.ofString "T") "," = .ok t ∧
      t.MadeFrom "," [['a'], ['x'], ['y']] := by
  have hfile : (fun _ : Path => Entry.file separatorFile) (.ofString "T") =
      .file separatorFile := rfl
  have hlines : (newlineRows (unified separatorText)).flatMap inkedLines =
      [['a'], ['x'], ['y']] := by decide
  have hfits : ∀ line ∈ (newlineRows (unified separatorText)).flatMap
      inkedLines, Cells.Fits "," line := by
    rw [hlines]
    intro line hline
    apply Cells.fits_of_length_le
    revert line
    decide
  have hdecode : Text.Utf8.decode separatorFile = .ok separatorText := rfl
  obtain ⟨t, hload, hmade, -⟩ := rows_end_at_line_breaks
    (fun _ => .file separatorFile) (.ofString "T") hfile hdecode hfits
  rw [hlines] at hmade
  exact ⟨hfile, hdecode, t, hload, hmade⟩

/-- A row of `separatorFile` between line feeds is two rows of its table,
although no cell is too long. -/
theorem line_separator_ends_row :
    Text.Utf8.decode separatorFile = .ok separatorText ∧
    newlineRows (unified separatorText) =
      [['a'], ['x', '\u2028', 'y']] ∧
    (∀ line ∈ newlineRows (unified separatorText),
      Cells.Fits "," line) ∧
    ∃ t, load (fun _ => .file separatorFile) (.ofString "T") "," = .ok t ∧
      t.rowCount = 2 ∧
      ¬ t.MadeFrom "," (newlineRows (unified separatorText)) := by
  have hrows : newlineRows (unified separatorText) =
      [['a'], ['x', '\u2028', 'y']] := by decide
  refine ⟨rfl, hrows, ?_, _, rfl, rfl, fun hmade => ?_⟩
  · rw [hrows]
    intro line hline
    apply Cells.fits_of_length_le
    revert line
    decide
  · have hcount := hmade.rowCount_eq
    rw [hrows] at hcount
    cases hcount

end Table

end TableQuery

import TableQuery.Proofs.FileLines

/-!
# Cells that were written into a line

A row can be written into a line in three ways, and which of them is open to it
is decided by the separator that the line is to be read with (`Written`). Blank
separators set cells apart by spaces and tabs, so the cells must have none and
cannot be empty. A separator of one character is for cells between quotes, which
can be anything. A longer separator is put between the cells as they are, and no
cell may have any of its characters: so no occurrence of it begins inside a cell,
even where the cells around it are empty.

In each way the cells are read back from the line (`Written.split_eq`). A
written line has ink and no line break in it, which is what it takes to be a
line of its own in a file.
-/

namespace TableQuery.Cells

/-! ## Three ways to write -/

/-- A cell that needs no quotes where white space sets cells apart. -/
def Unbroken (cell : String) : Prop :=
  cell ≠ "" ∧ ∀ c ∈ cell.toList, Text.isBlank c = false

instance (cell : String) : Decidable (Unbroken cell) :=
  decidable_of_iff (cell ≠ "" ∧ cell.toList.all (!Text.isBlank ·) = true)
    (and_congr_right fun _ => by simp only [List.all_eq_true, Bool.not_eq_true'])

theorem Unbroken.toList_ne_nil {cell : String} (h : Unbroken cell) :
    cell.toList ≠ [] :=
  fun hnil => h.1 (String.toList_eq_nil_iff.1 hnil)

/-- The white space that cells are set apart by when they are written. -/
def isSpacing (c : Char) : Bool :=
  c == ' ' || c == '\t'

/-- Cells with runs of spacing between them, and maybe one behind them. -/
inductive Spaced : List String → List Char → Prop
  | last {cell : String} {run : List Char} : Unbroken cell →
      (∀ c ∈ run, isSpacing c = true) → Spaced [cell] (cell.toList ++ run)
  | cons {cell : String} {run line : List Char} {cells : List String} :
      Unbroken cell → run ≠ [] → (∀ c ∈ run, isSpacing c = true) →
      Spaced cells line → Spaced (cell :: cells) (cell.toList ++ (run ++ line))

/-- A text with each of its double quotes written twice. -/
def doubled : List Char → List Char
  | [] => []
  | c :: cs => if c = '\x22' then c :: c :: doubled cs else c :: doubled cs

/-- A cell between quotes. -/
def quoted (cell : String) : List Char :=
  '\x22' :: doubled cell.toList ++ ['\x22']

/-- The ways to write cells into a line that is to be read with a separator. -/
inductive Written (separator : String) : List String → List Char → Prop
  | spaced {cells : List String} {lead line : List Char} :
      separator = "" ∨ separator = " " → (∀ c ∈ lead, isSpacing c = true) →
      Spaced cells line → Written separator cells (lead ++ line)
  | quoted {c : Char} {cells : List String} :
      separator.toList = [c] → c ≠ ' ' → c ≠ '\x22' →
      Text.isLineBreak c = false → cells ≠ [] →
      (∀ cell ∈ cells, cell.length ≤ maxCellLength) →
      (∀ cell ∈ cells, ∀ d ∈ cell.toList, Text.isLineBreak d = false) →
      Written separator cells ([c].intercalate (cells.map quoted))
  | literal {cells : List String} :
      2 ≤ separator.length →
      (∀ d ∈ separator.toList, Text.isLineBreak d = false) →
      (∀ cell ∈ cells, ∀ d ∈ cell.toList,
        d ∉ separator.toList ∧ Text.isLineBreak d = false) →
      Text.isAllBlank
        (separator.toList.intercalate (cells.map String.toList)) = false →
      Written separator cells
        (separator.toList.intercalate (cells.map String.toList))

/-! ## Spacing -/

theorem isBlank_of_isSpacing {c : Char} (h : isSpacing c = true) :
    Text.isBlank c = true := by
  rw [isSpacing, Bool.or_eq_true, beq_iff_eq, beq_iff_eq] at h
  rcases h with rfl | rfl <;> decide

theorem isLineBreak_of_isSpacing {c : Char} (h : isSpacing c = true) :
    Text.isLineBreak c = false := by
  rw [isSpacing, Bool.or_eq_true, beq_iff_eq, beq_iff_eq] at h
  rcases h with rfl | rfl <;> decide

theorem words_run_append {run : List Char}
    (h : ∀ c ∈ run, isSpacing c = true) (line : List Char) :
    Text.words (run ++ line) = Text.words line := by
  induction run with
  | nil => rfl
  | cons c run ih =>
      obtain ⟨hc, hrun⟩ := List.forall_mem_cons.1 h
      have hsplit :=
        Text.words_append_blank (isBlank_of_isSpacing hc) [] (run ++ line)
      rw [List.cons_append, ← ih hrun]
      exact hsplit

theorem words_unbroken_append {cell : String} (hcell : Unbroken cell)
    {run : List Char} (hne : run ≠ []) (hrun : ∀ c ∈ run, isSpacing c = true)
    (line : List Char) :
    Text.words (cell.toList ++ (run ++ line)) =
      cell.toList :: Text.words line := by
  match run with
  | [] => exact absurd rfl hne
  | c :: run =>
      obtain ⟨hc, hrun⟩ := List.forall_mem_cons.1 hrun
      rw [List.cons_append, Text.words_append_blank (isBlank_of_isSpacing hc),
        words_run_append hrun, Text.words_of_no_blank hcell.toList_ne_nil hcell.2]
      rfl

theorem words_of_spaced {cells : List String} {line : List Char}
    (h : Spaced cells line) : Text.words line = cells.map String.toList := by
  induction h with
  | @last cell run hcell hrun =>
      by_cases hne : run = []
      · rw [hne, List.append_nil, Text.words_of_no_blank hcell.toList_ne_nil hcell.2]
        rfl
      · have hwords := words_unbroken_append hcell hne hrun []
        rw [List.append_nil] at hwords
        exact hwords
  | cons hcell hne hrun _ ih =>
      rw [words_unbroken_append hcell hne hrun, ih, List.map_cons]

/-! ## Quotes -/

theorem cellsFrom_doubled (separator : Char) (begun cell rest : List Char) :
    cellsFrom separator .quoted begun (doubled cell ++ '\x22' :: rest) =
      cellsFrom separator .quoteSeen (cell.reverse ++ begun) rest := by
  induction cell generalizing begun with
  | nil => rfl
  | cons c cell ih =>
      rw [doubled]
      split
      · next hc =>
          -- The first of the two quotes could end the cell, the second does not.
          subst hc
          show cellsFrom separator .quoted ('\x22' :: begun)
            (doubled cell ++ '\x22' :: rest) = _
          rw [ih, List.reverse_cons, List.append_assoc, List.singleton_append]
      · next hc =>
          have hmove : Place.quoted.move separator c = .add .quoted := if_neg hc
          rw [List.cons_append, cellsFrom, hmove]
          show cellsFrom separator .quoted (c :: begun)
            (doubled cell ++ '\x22' :: rest) = _
          rw [ih, List.reverse_cons, List.append_assoc, List.singleton_append]

theorem cellsFrom_quoted {place : Place}
    (hplace : place = .recordStart ∨ place = .cellStart) (separator : Char)
    (cell : String) (rest : List Char) :
    cellsFrom separator place [] (quoted cell ++ rest) =
      cellsFrom separator .quoteSeen cell.toList.reverse rest := by
  have hmove : place.move separator '\x22' = .enter .quoted := by
    rcases hplace with rfl | rfl <;> rfl
  rw [quoted, List.append_assoc, List.cons_append, cellsFrom, hmove]
  show cellsFrom separator .quoted []
    (doubled cell.toList ++ '\x22' :: rest) = _
  rw [cellsFrom_doubled, List.append_nil]

theorem cellsFrom_quoteSeen_separator {separator : Char}
    (h : separator ≠ '\x22') (begun rest : List Char) :
    cellsFrom separator .quoteSeen begun (separator :: rest) =
      begun.reverse :: cellsFrom separator .cellStart [] rest := by
  have hmove : Place.quoteSeen.move separator separator = .close := by
    rw [Place.move, if_neg h, if_pos rfl]
  rw [cellsFrom, hmove]

theorem cellsFrom_intercalate_quoted {separator : Char}
    (h : separator ≠ '\x22') {place : Place}
    (hplace : place = .recordStart ∨ place = .cellStart) {cells : List String}
    (hne : cells ≠ []) :
    cellsFrom separator place [] ([separator].intercalate (cells.map quoted)) =
      cells.map String.toList := by
  -- Only the first cell can be at the start of the record.
  induction cells generalizing place with
  | nil => exact absurd rfl hne
  | cons cell cells ih =>
      match cells with
      | [] =>
          rw [List.map_singleton, List.intercalate_singleton,
            ← List.append_nil (quoted cell), cellsFrom_quoted hplace, cellsFrom,
            if_neg (by decide), List.reverse_reverse]
          rfl
      | next :: cells =>
          rw [List.map_cons, List.map_cons, List.intercalate_cons_cons,
            List.append_assoc, cellsFrom_quoted hplace, List.singleton_append,
            cellsFrom_quoteSeen_separator h, List.reverse_reverse]
          exact congrArg _ (ih (.inr rfl) (List.cons_ne_nil _ _))

/-! ## Literal separators -/

theorem piecesFrom_cell {separator : List Char} (hne : separator ≠ [])
    {cell : List Char} (h : ∀ c ∈ cell, c ∉ separator)
    (begun rest : List Char) :
    piecesFrom separator begun (cell ++ rest) =
      piecesFrom separator (cell.reverse ++ begun) rest := by
  induction cell generalizing begun with
  | nil => rfl
  | cons c cell ih =>
      obtain ⟨hc, hcell⟩ := List.forall_mem_cons.1 h
      have hprefix : separator.isPrefixOf (c :: (cell ++ rest)) = false := by
        match separator with
        | [] => exact absurd rfl hne
        | d :: separator =>
            have hd : (d == c) = false := by
              rw [beq_eq_false_iff_ne]
              rintro rfl
              exact hc List.mem_cons_self
            rw [List.isPrefixOf_cons_cons, hd, Bool.false_and]
      rw [List.cons_append, piecesFrom, hprefix, if_neg (by decide), ih hcell,
        List.reverse_cons, List.append_assoc, List.singleton_append]

theorem piecesFrom_separator {separator : List Char} (hne : separator ≠ [])
    (begun rest : List Char) :
    piecesFrom separator begun (separator ++ rest) =
      begun.reverse :: piecesFrom separator [] rest := by
  match separator with
  | [] => exact absurd rfl hne
  | c :: cs =>
      have hprefix : (c :: cs).isPrefixOf (c :: (cs ++ rest)) = true :=
        List.isPrefixOf_iff_prefix.2 (List.prefix_append (c :: cs) rest)
      rw [List.cons_append, piecesFrom, hprefix, if_pos rfl, List.length_cons,
        Nat.add_sub_cancel, List.drop_left]

theorem pieces_intercalate {separator : List Char} (hne : separator ≠ [])
    {cells : List (List Char)} (hcells : cells ≠ [])
    (h : ∀ cell ∈ cells, ∀ c ∈ cell, c ∉ separator) :
    pieces separator (separator.intercalate cells) = cells := by
  unfold pieces
  induction cells with
  | nil => exact absurd rfl hcells
  | cons cell cells ih =>
      obtain ⟨hcell, hrest⟩ := List.forall_mem_cons.1 h
      match cells with
      | [] =>
          rw [List.intercalate_singleton, ← List.append_nil cell,
            piecesFrom_cell hne hcell, piecesFrom, List.append_nil,
            List.reverse_reverse, List.append_nil]
      | next :: cells =>
          rw [List.intercalate_cons_cons, List.append_assoc,
            piecesFrom_cell hne hcell, piecesFrom_separator hne,
            List.append_nil, List.reverse_reverse,
            ih (List.cons_ne_nil _ _) hrest]

/-! ## Written lines are read back -/

theorem split_blank {separator : String}
    (h : separator = "" ∨ separator = " ") (line : List Char) :
    split separator line = .ok ((Text.words line).map String.ofList) := by
  rcases h with rfl | rfl <;> rfl

theorem split_literal {separator : String} (h : 2 ≤ separator.length)
    (line : List Char) :
    split separator line =
      .ok ((pieces separator.toList line).map String.ofList) := by
  rw [← String.length_toList] at h
  unfold split
  split
  · next heq => rw [heq] at h; cases h
  · next heq => rw [heq] at h; exact absurd h (by decide)
  · next heq => rw [heq] at h; exact absurd h (by simp)
  · rfl

theorem of_mem_intercalate {separator : List Char} {parts : List (List Char)}
    {c : Char} (h : c ∈ separator.intercalate parts) :
    c ∈ separator ∨ ∃ part ∈ parts, c ∈ part := by
  induction parts with
  | nil => cases h
  | cons part parts ih =>
      match parts with
      | [] =>
          rw [List.intercalate_singleton] at h
          exact .inr ⟨part, List.mem_cons_self, h⟩
      | next :: parts =>
          rw [List.intercalate_cons_cons, List.mem_append, List.mem_append] at h
          rcases h with (h | h) | h
          · exact .inr ⟨part, List.mem_cons_self, h⟩
          · exact .inl h
          · rcases ih h with h | ⟨p, hp, hc⟩
            · exact .inl h
            · exact .inr ⟨p, List.mem_cons_of_mem _ hp, hc⟩

theorem of_mem_doubled {c : Char} {cs : List Char} (h : c ∈ doubled cs) :
    c ∈ cs := by
  induction cs with
  | nil => exact h
  | cons d cs ih =>
      rw [doubled] at h
      split at h
      · rw [List.mem_cons, List.mem_cons] at h
        rcases h with h | h | h
        · exact h ▸ List.mem_cons_self
        · exact h ▸ List.mem_cons_self
        · exact List.mem_cons_of_mem _ (ih h)
      · rcases List.mem_cons.1 h with h | h
        · exact h ▸ List.mem_cons_self
        · exact List.mem_cons_of_mem _ (ih h)

theorem map_ofList_map_toList (cells : List String) :
    (cells.map String.toList).map String.ofList = cells := by
  rw [List.map_map]
  exact List.map_id'' (fun _ => String.ofList_toList) cells

theorem Unbroken.isLineBreak_eq_false {cell : String} (h : Unbroken cell) :
    ∀ c ∈ cell.toList, Text.isLineBreak c = false := by
  intro c hc
  have hblank := h.2 c hc
  cases hbreak : Text.isLineBreak c with
  | false => rfl
  | true =>
      rw [Text.isBlank_of_isLineBreak hbreak] at hblank
      cases hblank

theorem Spaced.isLineBreak_eq_false {cells : List String} {line : List Char}
    (h : Spaced cells line) : ∀ c ∈ line, Text.isLineBreak c = false := by
  induction h with
  | last hcell hrun =>
      exact List.forall_mem_append.2 ⟨hcell.isLineBreak_eq_false,
        fun c hc => isLineBreak_of_isSpacing (hrun c hc)⟩
  | cons hcell _ hrun _ ih =>
      exact List.forall_mem_append.2 ⟨hcell.isLineBreak_eq_false,
        List.forall_mem_append.2
          ⟨fun c hc => isLineBreak_of_isSpacing (hrun c hc), ih⟩⟩

theorem Written.isLineBreak_eq_false {separator : String}
    {cells : List String} {line : List Char}
    (h : Written separator cells line) :
    ∀ c ∈ line, Text.isLineBreak c = false := by
  cases h with
  | spaced _ hlead hline =>
      exact List.forall_mem_append.2
        ⟨fun c hc => isLineBreak_of_isSpacing (hlead c hc),
          hline.isLineBreak_eq_false⟩
  | @quoted s cells _ _ _ hs _ _ hcells =>
      intro c hc
      rcases of_mem_intercalate hc with hc | ⟨part, hpart, hc⟩
      · rwa [List.mem_singleton.1 hc]
      · obtain ⟨cell, hcell, rfl⟩ := List.mem_map.1 hpart
        rw [Cells.quoted, List.cons_append, List.mem_cons, List.mem_append,
          List.mem_singleton] at hc
        rcases hc with rfl | hc | rfl
        · decide
        · exact hcells cell hcell c (of_mem_doubled hc)
        · decide
  | literal _ hseparator hcells _ =>
      intro c hc
      rcases of_mem_intercalate hc with hc | ⟨part, hpart, hc⟩
      · exact hseparator c hc
      · obtain ⟨cell, hcell, rfl⟩ := List.mem_map.1 hpart
        exact (hcells cell hcell c hc).2

theorem isAllBlank_eq_false_of_mem {line : List Char} {c : Char}
    (hc : c ∈ line) (h : Text.isBlank c = false) :
    Text.isAllBlank line = false :=
  List.all_eq_false.2 ⟨c, hc, by rw [h]; decide⟩

theorem Spaced.exists_mem {cells : List String} {line : List Char}
    (h : Spaced cells line) : ∃ c ∈ line, Text.isBlank c = false := by
  have hcell : ∀ {cell : String}, Unbroken cell → ∀ rest : List Char,
      ∃ c ∈ cell.toList ++ rest, Text.isBlank c = false := by
    intro cell hcell rest
    obtain ⟨c, hc⟩ := List.exists_mem_of_ne_nil _ hcell.toList_ne_nil
    exact ⟨c, List.mem_append_left _ hc, hcell.2 c hc⟩
  cases h with
  | last h _ => exact hcell h _
  | cons h _ _ _ => exact hcell h _

theorem Written.isAllBlank_eq_false {separator : String}
    {cells : List String} {line : List Char}
    (h : Written separator cells line) : Text.isAllBlank line = false := by
  cases h with
  | spaced _ _ hline =>
      obtain ⟨c, hc, hink⟩ := hline.exists_mem
      exact isAllBlank_eq_false_of_mem (List.mem_append_right _ hc) hink
  | @quoted s cells _ _ _ _ hne _ _ =>
      have hquote : '\x22' ∈ [s].intercalate (cells.map Cells.quoted) := by
        match cells with
        | [] => exact absurd rfl hne
        | [cell] =>
            rw [List.map_singleton, List.intercalate_singleton]
            exact List.mem_cons_self
        | cell :: next :: cells =>
            rw [List.map_cons, List.map_cons, List.intercalate_cons_cons,
              List.append_assoc]
            exact List.mem_append_left _ List.mem_cons_self
      exact isAllBlank_eq_false_of_mem hquote (by decide)
  | literal _ _ _ hink => exact hink

theorem Written.split_eq {separator : String} {cells : List String}
    {line : List Char} (h : Written separator cells line) :
    split separator line = .ok cells := by
  have hline := Table.isLineEnd_of_no_break h.isLineBreak_eq_false
  cases h with
  | spaced hseparator hlead hspaced =>
      rw [split_blank hseparator, words_run_append hlead,
        words_of_spaced hspaced, map_ofList_map_toList]
  | @quoted s cells hseparator hspace hquote _ hne hlength _ =>
      have hcells : lineCells s ([s].intercalate (cells.map Cells.quoted)) =
          cells.map String.toList :=
        cellsFrom_intercalate_quoted hquote (.inl rfl) hne
      have hfits : ∀ cell ∈ cells.map String.toList,
          cell.length ≤ maxCellLength :=
        List.forall_mem_map.2 fun cell hcell =>
          Nat.le_trans (Nat.le_of_eq String.length_toList) (hlength cell hcell)
      rw [split_quoted hseparator hspace, quotedCells_eq hline, hcells,
        if_pos hfits]
      exact congrArg Except.ok (map_ofList_map_toList cells)
  | @literal cells hlength _ hcells hink =>
      have hne : separator.toList ≠ [] := by
        rw [← List.length_pos_iff, String.length_toList]
        omega
      have hcellsNe : cells.map String.toList ≠ [] := by
        intro hnil
        rw [hnil] at hink
        cases hink
      have hfree : ∀ cell ∈ cells.map String.toList, ∀ c ∈ cell,
          c ∉ separator.toList :=
        List.forall_mem_map.2 fun cell hcell c hc => (hcells cell hcell c hc).1
      rw [split_literal hlength, pieces_intercalate hne hcellsNe hfree,
        map_ofList_map_toList]

end TableQuery.Cells

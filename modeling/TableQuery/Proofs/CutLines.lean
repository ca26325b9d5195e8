import TableQuery.Proofs.UnquotedRows

/-!
# Lines cut at a separator

A line comes to its cells in one of two ways. For a single character the reader
of quoted cells goes from character to character and closes a cell at each
separator; for a longer separator the line is searched and cut. Where there is
neither a quote nor a line end in a line, the first way does what the second one
would do (`split_eq_pieces`): the cells are the pieces between the separators.

Those pieces are the one list of texts without the separator that gives the line
back when it is joined (`map_ofList_splitOn_eq_iff`). So nothing of the line is
lost, whether separators stand at its ends or next to each other.
-/

namespace TableQuery

namespace Cells

/-! ## Pieces between single characters -/

theorem piecesFrom_eq_splitOnPPrepend (separator : Char)
    (begun cs : List Char) :
    piecesFrom [separator] begun cs =
      cs.splitOnPPrepend (· == separator) begun := by
  induction cs generalizing begun with
  | nil => rw [piecesFrom, List.splitOnPPrepend_nil]
  | cons c cs ih =>
      rw [piecesFrom_singleton, List.splitOnPPrepend_cons_eq_if]
      by_cases hc : c = separator
      · rw [if_pos hc, if_pos (beq_iff_eq.2 hc), ih]
        rfl
      · rw [if_neg hc, if_neg (by rwa [beq_iff_eq]), ih]

/-- A search for a single character finds what a walk over the line finds. -/
theorem pieces_singleton (separator : Char) (line : List Char) :
    pieces [separator] line = line.splitOn separator :=
  piecesFrom_eq_splitOnPPrepend separator [] line

theorem not_mem_of_mem_piecesFrom {separator : Char} {begun cs piece : List Char}
    (hbegun : separator ∉ begun) (h : piece ∈ piecesFrom [separator] begun cs) :
    separator ∉ piece := by
  induction cs generalizing begun with
  | nil =>
      rw [piecesFrom, List.mem_singleton] at h
      rwa [h, List.mem_reverse]
  | cons c cs ih =>
      rw [piecesFrom_singleton] at h
      split at h
      · rcases List.mem_cons.1 h with rfl | h
        · rwa [List.mem_reverse]
        · exact ih List.not_mem_nil h
      · next hc =>
          refine ih ?_ h
          rw [List.mem_cons, not_or]
          exact ⟨Ne.symm hc, hbegun⟩

theorem not_mem_of_mem_splitOn {separator : Char} {line piece : List Char}
    (h : piece ∈ line.splitOn separator) : separator ∉ piece := by
  rw [← pieces_singleton] at h
  exact not_mem_of_mem_piecesFrom List.not_mem_nil h

theorem map_toList_map_ofList (parts : List (List Char)) :
    (parts.map String.ofList).map String.toList = parts := by
  rw [List.map_map]
  exact List.map_id'' (fun _ => String.toList_ofList) parts

/-- The pieces of a line are the only cells without the separator that make up
the line when they are joined by it. -/
theorem map_ofList_splitOn_eq_iff {separator : Char} {line : List Char}
    {cells : List String} :
    (line.splitOn separator).map String.ofList = cells ↔
      cells ≠ [] ∧ joined separator cells = line ∧
        ∀ cell ∈ cells, separator ∉ cell.toList := by
  constructor
  · rintro rfl
    refine ⟨?_, ?_, ?_⟩
    · rw [Ne, List.map_eq_nil_iff]
      exact List.splitOn_ne_nil separator line
    · rw [joined, map_toList_map_ofList, List.intercalate_splitOn]
    · refine List.forall_mem_map.2 fun piece hpiece => ?_
      rw [String.toList_ofList]
      exact not_mem_of_mem_splitOn hpiece
  · rintro ⟨hne, rfl, hfree⟩
    have hpieces : cells.map String.toList ≠ [] := by
      rwa [Ne, List.map_eq_nil_iff]
    rw [joined, List.splitOn_intercalate separator
      (List.forall_mem_map.2 hfree) hpieces, map_ofList_map_toList]

/-! ## Cells of a line -/

/-- A line with neither quotes nor line ends, and with something in it, is cut
at each separator of one character, just as it would be cut by a search for that
character. The cells are the only ones that give the line back. It does not
matter if the separator is a quote or a line end, since the line has none. -/
theorem unquoted_line_is_cut_at_separators {text : String} {separator : Char}
    (htext : text.toList = [separator]) (hspace : separator ≠ ' ')
    {line : List Char} (hne : line ≠ [])
    (hline : ∀ c ∈ line, c ≠ '\x22' ∧ c ≠ '\r' ∧ c ≠ '\n')
    (hlength : ∀ piece ∈ line.splitOn separator,
      piece.length ≤ maxCellLength) :
    split text line = .ok ((line.splitOn separator).map String.ofList) ∧
    split text line = .ok ((pieces text.toList line).map String.ofList) ∧
    ∀ cells, split text line = .ok cells ↔
      cells ≠ [] ∧ joined separator cells = line ∧
        ∀ cell ∈ cells, separator ∉ cell.toList := by
  have hquote : '\x22' ∉ line := fun hmem => (hline _ hmem).1 rfl
  have hends : ∀ c ∈ line, Reading.isLineEnd c = false := by
    intro c hc
    obtain ⟨-, hreturn, hfeed⟩ := hline c hc
    simp [Reading.isLineEnd, hreturn, hfeed]
  have hsplit : split text line =
      .ok ((line.splitOn separator).map String.ofList) := by
    rw [split_eq_pieces htext hspace hne hquote hends, pieces_singleton,
      if_pos hlength]
  refine ⟨hsplit, ?_, ?_⟩
  · rw [hsplit, htext, pieces_singleton]
  · intro cells
    rw [hsplit, Except.ok.injEq]
    exact map_ofList_splitOn_eq_iff

/-- A letter can be the separator, at both ends of a line and twice in a row. -/
theorem letter_separates_cells :
    (∀ c ∈ "babb".toList, c ≠ '\x22' ∧ c ≠ '\r' ∧ c ≠ '\n') ∧
    (∀ piece ∈ "babb".toList.splitOn 'b', piece.length ≤ maxCellLength) ∧
    split "b" "babb".toList = .ok ["", "a", "", ""] ∧
    joined 'b' ["", "a", "", ""] = "babb".toList := by
  have htext : "b".toList = ['b'] := rfl
  have hline : ∀ c ∈ "babb".toList, c ≠ '\x22' ∧ c ≠ '\r' ∧ c ≠ '\n' := by
    simp
  have hlength : ∀ piece ∈ "babb".toList.splitOn 'b',
      piece.length ≤ maxCellLength := by decide
  obtain ⟨hcells, -, hjoined⟩ := unquoted_line_is_cut_at_separators htext
    (by decide) (by decide) hline hlength
  exact ⟨hline, hlength, hcells, ((hjoined _).1 hcells).2.1⟩

end Cells

end TableQuery

import TableQuery.Text.Blank

/-!
# Lines

A file holds one row per line, and a line of white space only is no row. So the
two characters of a carriage return and line feed pair need no rule of their
own: each ends a line, and the empty line between them is left out with the
other blank ones. A break anywhere parts a text into lines that do not depend on
each other (`inkedLines_append_break`).
-/

namespace TableQuery.Text

/-- A character that ends a line: line feed, carriage return, the tabulations
and separators that Unicode counts as mandatory breaks, and U+001C to U+001E. -/
def isLineBreak (c : Char) : Bool :=
  ('\n' ≤ c && c ≤ '\r') || ('\x1c' ≤ c && c ≤ '\x1e') || c == '\u0085' ||
  c == '\u2028' || c == '\u2029'

/-- The lines of a text that hold more than white space, in order and without
the characters that end them. -/
def inkedLines (cs : List Char) : List (List Char) :=
  (cs.splitOnP isLineBreak).filter (!isAllBlank ·)

theorem isBlank_of_isLineBreak {c : Char} (h : isLineBreak c = true) : isBlank c = true := by
  simp only [isLineBreak, isBlank, Bool.or_eq_true, Bool.and_eq_true, decide_eq_true_eq,
    beq_iff_eq] at h ⊢
  rcases h with (((⟨h₁, h₂⟩ | ⟨h₁, h₂⟩) | rfl) | rfl) | rfl
  · exact .inl (.inl (.inl (.inl (.inl (.inl (.inl (.inl (.inl (.inl
      ⟨Char.le_trans (by decide) h₁, h₂⟩)))))))))
  · exact .inl (.inl (.inl (.inl (.inl (.inl (.inl (.inl (.inl (.inr
      ⟨h₁, Char.le_trans h₂ (by decide)⟩)))))))))
  all_goals decide

theorem inkedLines_append_break {c : Char} (h : isLineBreak c = true) (cs ds : List Char) :
    inkedLines (cs ++ c :: ds) = inkedLines cs ++ inkedLines ds := by
  rw [inkedLines, List.splitOnP_append_cons cs ds h, List.filter_append, inkedLines, inkedLines]

end TableQuery.Text

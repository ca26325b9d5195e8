/-!
# White space

Which characters are white space, and what a text is apart from them: a list of
words, possibly none. All there is to know about words follows from two facts:
they split at any white space (`words_append_blank`), and a text without any is
one word (`words_of_no_blank`).
-/

namespace TableQuery.Text

/-- White space: every character with the Unicode property of that name, and
the four information separators U+001C to U+001F. -/
def isBlank (c : Char) : Bool :=
  ('\t' ≤ c && c ≤ '\r') || ('\x1c' ≤ c && c ≤ ' ') || c == '\u0085' || c == '\u00a0' ||
  c == '\u1680' || ('\u2000' ≤ c && c ≤ '\u200a') || c == '\u2028' || c == '\u2029' ||
  c == '\u202f' || c == '\u205f' || c == '\u3000'

/-- A text of white space only; the empty text is one. -/
def isAllBlank (cs : List Char) : Bool :=
  cs.all isBlank

/-- The words of a text: its longest runs without white space, in order. -/
def words (cs : List Char) : List (List Char) :=
  (cs.splitOnP isBlank).filter (!·.isEmpty)

theorem words_append_blank {c : Char} (h : isBlank c = true) (cs ds : List Char) :
    words (cs ++ c :: ds) = words cs ++ words ds := by
  rw [words, List.splitOnP_append_cons cs ds h, List.filter_append, words, words]

theorem words_of_no_blank {cs : List Char} (hne : cs ≠ [])
    (h : ∀ c ∈ cs, isBlank c = false) : words cs = [cs] := by
  rw [words, List.splitOnP_eq_singleton h]
  simp [hne]

end TableQuery.Text

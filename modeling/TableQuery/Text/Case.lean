/-!
# Letter case

Keywords, connectives and the dashed comparisons are spelled with ASCII letters
and recognised in either case. Folding the ASCII letters alone decides that: no
other letter has one of the spellings' letters as its small form.
-/

namespace TableQuery.Text

/-- A text with its ASCII capital letters made small. -/
def folded (s : String) : List Char :=
  s.toList.map Char.toLower

end TableQuery.Text

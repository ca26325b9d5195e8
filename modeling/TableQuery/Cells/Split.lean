import TableQuery.Cells.Quoted
import TableQuery.Text.Blank

/-!
# The cells of a line

A separator is given as a text, and its length decides how lines are split. No
separator at all, or a single space, stands for any white space; another single
character separates cells that may be quoted; a longer text separates cells
wherever it occurs.
-/

namespace TableQuery.Cells

/-- The pieces of a text between the successive occurrences of a separator that
is not empty, occurrences being looked for from left to right behind one
another. The first piece begins with the given characters, the last one first. -/
def piecesFrom (separator : List Char) (begun : List Char) (cs : List Char) : List (List Char) :=
  match cs with
  | [] => [begun.reverse]
  | c :: rest =>
    if separator.isPrefixOf (c :: rest) then
      begun.reverse :: piecesFrom separator [] (rest.drop (separator.length - 1))
    else piecesFrom separator (c :: begun) rest
termination_by cs.length
decreasing_by all_goals simp [List.length_drop]; try omega

/-- The pieces of a text between the successive occurrences of a separator. -/
def pieces (separator cs : List Char) : List (List Char) :=
  piecesFrom separator [] cs

/-- The cells of a line. -/
def split (separator : String) (line : List Char) : Except Error (List String) :=
  match separator.toList with
  | [] | [' '] => .ok ((Text.words line).map String.ofList)
  | [c] => (quotedCells c line).map (·.map String.ofList)
  | text => .ok ((pieces text line).map String.ofList)

end TableQuery.Cells

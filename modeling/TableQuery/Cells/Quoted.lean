/-!
# Quoted cells

The cells of a line that are set apart by one character. A cell that begins
with a quote runs to the next lone quote and may hold the separator and line
ends; a quote inside it is written twice. What follows the closing quote up to
the separator belongs to the cell as it stands, and a quote further inside a
plain cell is a character like any other.

The line is read character by character. A text that holds line ends is read up
to the end of its first record: a line end inside quotes belongs to the cell,
and any other ends the record.
-/

namespace TableQuery.Cells

/-- Why a line cannot be split into cells. -/
inductive Error where
  /-- A carriage return outside quotes with more of the line behind it. -/
  | strayLineEnd
  /-- A cell with more characters than a cell may hold. -/
  | cellTooLong
  deriving DecidableEq, Repr

/-- The greatest number of characters in a cell. -/
def maxCellLength : Nat := 131072

/-- What the csv reader says. Its later releases end the first message in another
way. -/
def Error.message : Error → String
  | .strayLineEnd =>
    "new-line character seen in unquoted field - do you need to open the file in " ++
      "universal-newline mode?"
  | .cellTooLong => "field larger than field limit (" ++ toString maxCellLength ++ ")"

/-- Where in a record the reading stands. -/
inductive Place where
  /-- Before the record. -/
  | recordStart
  /-- Before a cell that follows a separator. -/
  | cellStart
  /-- In a plain cell, or behind the closing quote of a quoted one. -/
  | plain
  /-- Between quotes. -/
  | quoted
  /-- Behind a quote between quotes: it ends them, or is the first of two. -/
  | quoteSeen
  /-- Behind a character that ended the record. -/
  | recordEnd
  deriving DecidableEq, Repr

/-- A record being read: the finished cells and the characters of the open
cell, the last one first in both, and how many more the open cell may hold. -/
structure Reading where
  place : Place := .recordStart
  cells : List (List Char) := []
  cell : List Char := []
  room : Nat := maxCellLength
  deriving Repr

namespace Reading

/-- Ends the open cell. -/
def endCell (r : Reading) (place : Place) : Reading :=
  ⟨place, r.cell.reverse :: r.cells, [], maxCellLength⟩

/-- Adds a character to the open cell. -/
def add (r : Reading) (place : Place) (c : Char) : Except Error Reading :=
  match r.room with
  | 0 => .error .cellTooLong
  | room + 1 => .ok { r with place, room, cell := c :: r.cell }

def isLineEnd (c : Char) : Bool :=
  c == '\n' || c == '\r'

/-- Reads the first character of a cell. -/
def startCell (separator : Char) (r : Reading) (c : Char) : Except Error Reading :=
  if isLineEnd c then .ok (r.endCell .recordEnd)
  else if c = '\x22' then .ok { r with place := .quoted }
  else if c = separator then .ok (r.endCell .cellStart)
  else r.add .plain c

/-- Reads one character. Each place asks in an order of its own what the
character is, which matters only for a separator that is a quote or a line end. -/
def step (separator : Char) (r : Reading) (c : Char) : Except Error Reading :=
  match r.place with
  | .recordStart =>
    if isLineEnd c then .ok { r with place := .recordEnd } else r.startCell separator c
  | .cellStart => r.startCell separator c
  | .plain =>
    if isLineEnd c then .ok (r.endCell .recordEnd)
    else if c = separator then .ok (r.endCell .cellStart)
    else r.add .plain c
  | .quoted =>
    if c = '\x22' then .ok { r with place := .quoteSeen } else r.add .quoted c
  | .quoteSeen =>
    if c = '\x22' then r.add .quoted c
    else if c = separator then .ok (r.endCell .cellStart)
    else if isLineEnd c then .ok (r.endCell .recordEnd)
    else r.add .plain c
  | .recordEnd => if isLineEnd c then .ok r else .error .strayLineEnd

/-- The cells of the record where a line ends, unless the line end lies between
quotes and the record goes on. -/
def atLineEnd (r : Reading) : Option (List (List Char)) :=
  match r.place with
  | .quoted => none
  | .recordStart | .recordEnd => some r.cells.reverse
  | .cellStart | .plain | .quoteSeen => some (r.endCell .recordEnd).cells.reverse

/-- The cells of the record where the text ends; an open quoted cell ends there too. -/
def atTextEnd (r : Reading) : List (List Char) :=
  r.atLineEnd.getD (r.endCell .recordEnd).cells.reverse

/-- Reads on to the end of the record. -/
def run (separator : Char) (r : Reading) : List Char → Except Error (List (List Char))
  | [] => .ok r.atTextEnd
  | c :: cs =>
    match r.step separator c with
    | .error e => .error e
    | .ok r =>
      match if c = '\n' then r.atLineEnd else none with
      | some cells => .ok cells
      | none => r.run separator cs

end Reading

/-- The cells of the first record of a text. -/
def quotedCells (separator : Char) (cs : List Char) : Except Error (List (List Char)) :=
  ({} : Reading).run separator cs

end TableQuery.Cells

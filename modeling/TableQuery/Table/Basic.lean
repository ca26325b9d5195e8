import TableQuery.File.Path

/-!
# Tables

A table holds its cells by column, and each column starts with its header, so
that a row number is an index into every column and the header is row zero.
Nothing here asks the columns of a table to be equally long; reading one from a
file makes them so.
-/

namespace TableQuery

/-- A table: the path it comes from, its fields in order, its columns by
name, header first, and the number of its rows. -/
structure Table where
  path : Path
  fields : List String := []
  columns : List (String × Array String) := []
  rowCount : Nat := 0
  deriving DecidableEq, Repr

/-- Why there is no cell at an index: it lies past either end of the column,
or it is not even a 64-bit number. -/
inductive MissingCell where
  | outOfRange
  | tooLarge
  deriving DecidableEq, Repr

def MissingCell.message : MissingCell → String
  | .outOfRange => "list index out of range"
  | .tooLarge => "cannot fit 'int' into an index-sized integer"

/-- A column was asked for by a name that no column has. -/
structure UnknownField where
  name : String
  deriving DecidableEq, Repr

def UnknownField.message (e : UnknownField) : String :=
  "Unknown field '" ++ e.name ++ "'"

namespace Table

/-- The cells of a column, header first. -/
def column? (t : Table) (name : String) : Option (Array String) :=
  t.columns.lookup name

/-- Whether a table has a field. -/
def hasField (t : Table) (name : String) : Bool :=
  (t.column? name).isSome

/-- The cells of a column, header first, or the complaint that there is none. -/
def column (t : Table) (name : String) : Except UnknownField (Array String) :=
  match t.column? name with
  | some cells => .ok cells
  | none => .error ⟨name⟩

/-- The least number past the 64-bit ones. -/
def indexBound : Int := 0x8000000000000000

/-- Why a column has no cell at an index. -/
def missing (index : Int) : MissingCell :=
  if index < -indexBound ∨ indexBound ≤ index then .tooLarge else .outOfRange

/-- The cell of a column at an index; a negative one counts back from the end. -/
def cellAt (cells : Array String) (index : Int) : Except MissingCell String :=
  let position := if index < 0 then index + cells.size else index
  if position < 0 then .error (missing index)
  else
    match cells[position.toNat]? with
    | some text => .ok text
    | none => .error (missing index)

/-- The cell of a field in a row. A field that the table lacks is empty in every row. -/
def cell (t : Table) (name : String) (index : Int) : Except MissingCell String :=
  match t.column? name with
  | none => .ok ""
  | some cells => cellAt cells index

/-- The columns with one more, in place of an earlier one of its name. -/
def insertColumn (columns : List (String × Array String)) (name : String)
    (cells : Array String) : List (String × Array String) :=
  if (columns.lookup name).isSome then
    columns.map fun c => if c.1 = name then (name, cells) else c
  else columns ++ [(name, cells)]

end Table

end TableQuery

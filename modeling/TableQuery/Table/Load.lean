import TableQuery.Cells.Split
import TableQuery.File.Entry
import TableQuery.Table.Basic
import TableQuery.Text.Line
import TableQuery.Text.Utf8

/-!
# Reading tables

A table file is text in UTF-8. Its first line that is not blank names the
fields, each further one is a row. Where a name is repeated the first column of
that name counts; a row that is too short is filled up with empty cells, and
cells beyond the header are dropped, so that all columns are equally long.
-/

namespace TableQuery

/-- Why the bytes of a file give no text. -/
inductive ReadError where
  | system (error : SystemError)
  | encoding (fault : Text.Utf8.Fault)
  deriving DecidableEq, Repr

def ReadError.message : ReadError → String
  | .system error => error.message
  | .encoding fault => fault.message

/-- Why there is no table at a path. -/
inductive LoadError where
  | notFound (path : Path)
  | unreadable (path : Path) (error : ReadError)
  /-- The look-up of the path fails, and not for want of a file. -/
  | lookup (error : SystemError)
  | cells (error : Cells.Error)
  deriving DecidableEq, Repr

def LoadError.message : LoadError → String
  | .notFound path => "Table not found: " ++ path.toString
  | .unreadable path error => "Cannot read table " ++ path.toString ++ ": " ++ error.message
  | .lookup error => error.message
  | .cells error => error.message

namespace Table

/-- A column while its table is read: its name, the place of its cells on a
line, and the cells so far, header first. -/
structure Column where
  name : String
  place : Nat
  cells : Array String
  deriving DecidableEq, Repr

/-- The columns with one for each further name of the header, the first of which
stands at the given place. A name that has a column is passed over. -/
def addColumns (columns : List Column) (place : Nat) : List String → List Column
  | [] => columns
  | name :: names =>
    if columns.any (·.name = name) then addColumns columns (place + 1) names
    else addColumns (columns ++ [⟨name, place, #[name]⟩]) (place + 1) names

/-- The column with its cell of one more line, which is empty where the line
does not reach that far. -/
def Column.push (column : Column) (cells : Array String) : Column :=
  { column with cells := column.cells.push (cells[column.place]?.getD "") }

/-- The columns with their cells of further lines. -/
def addRows (separator : String) (columns : List Column) :
    List (List Char) → Except Cells.Error (List Column)
  | [] => .ok columns
  | line :: lines => do
    let cells ← Cells.split separator line
    addRows separator (columns.map (·.push cells.toArray)) lines

/-- The table that lines make; no line makes a table without fields and rows. -/
def ofLines (path : Path) (separator : String) :
    List (List Char) → Except Cells.Error Table
  | [] => .ok { path }
  | first :: rest => do
    let header ← Cells.split separator first
    let columns ← addRows separator (addColumns [] 0 header) rest
    return {
      path
      fields := columns.map (·.name)
      columns := columns.map fun column => (column.name, column.cells)
      rowCount := rest.length }

/-- The lines of the table file at a path, from what is found there. -/
def fileLines (path : Path) : Entry → Except LoadError (List (List Char))
  | .fault error => .error (if error.isAbsence then .notFound path else .lookup error)
  | .other => .error (.notFound path)
  | .locked error => .error (.unreadable path (.system error))
  | .file bytes =>
    match Text.Utf8.decode bytes with
    | .error fault => .error (.unreadable path (.encoding fault))
    | .ok text => .ok (Text.inkedLines text)

/-- Reads the table at a path. Files are given by what is found at each path. -/
def load (files : Path → Entry) (path : Path) (separator : String) :
    Except LoadError Table := do
  let lines ← fileLines path (files path)
  (ofLines path separator lines).mapError .cells

end Table

end TableQuery

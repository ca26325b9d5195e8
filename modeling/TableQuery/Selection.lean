import TableQuery.Condition
import TableQuery.Query.Basic
import TableQuery.Table.Load

/-!
# Selections

What a query selects: row numbers of a table, in ascending order, with the
notes on how they came about. A selection keeps its table, so that its rows can
be shown at any later time. Showing no rows at all is refused, even under a
header.
-/

namespace TableQuery

/-- The rows that a query selects from a table, and the notes on them. -/
structure Selection where
  query : Query
  table : Table
  rows : IndexSet
  notes : List Note
  deriving DecidableEq

namespace Selection

/-- Why a query selects nothing, not even no rows. -/
inductive Error where
  | load (error : LoadError)
  | condition (error : SetExpression.Error)
  deriving DecidableEq

def Error.complaint : Error → Except Numeral.TooManyDigits String
  | .load error => .ok error.message
  | .condition error => error.complaint

/-- What a query selects from a table. Without a condition that is every row. -/
def ofTable (query : Query) (table : Table) : Except SetExpression.Error Selection :=
  let finish (rows : IndexSet) (notes : List Note) : Selection :=
    { query, table, rows, notes := notes ++ [.selected rows.toList.length table.path] }
  if query.condition.isEmpty then .ok (finish (.upTo table.rowCount) [])
  else
    let (tokens, notes) := Condition.interpret table query.condition
    (SetExpression.evaluate tokens).map fun rows => finish rows notes

/-- What a query selects, its table being read with the given cell separator. -/
def ofQuery (files : Path → Entry) (separator : String) (query : Query) :
    Except Error Selection := do
  let table ← (Table.load files (Path.ofString query.table) separator).mapError .load
  (ofTable query table).mapError .condition

/-- Why a selection cannot be shown. -/
inductive ShowError where
  | noRows (table : String)
  | cell (error : MissingCell)
  deriving DecidableEq, Repr

def ShowError.message : ShowError → String
  | .noRows table => "No rows selected from " ++ table
  | .cell error => error.message

/-- The line of one row: its cells in the order of the query's fields. -/
def line (s : Selection) (separator : String) (row : Int) : Except MissingCell String :=
  (s.query.fields.mapM fun name => s.table.cell name row).map separator.intercalate

/-- The lines of the selected rows, behind the header line where it is wanted. -/
def lines (s : Selection) (separator : String) (header : Bool) :
    Except ShowError (List String) :=
  if s.rows.toList.isEmpty then .error (.noRows s.query.table)
  else
    let rows := (if header then [0] else []) ++ s.rows.toList
    (rows.mapM (s.line separator)).mapError .cell

end Selection

end TableQuery

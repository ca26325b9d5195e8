import TableQuery.Session

/-!
# Reports

What the program says about one query: an exit status, the text of its output
and the text of its error output. Rows that match are printed, no match is a
status of its own, and the faults of the query and of its table are told on the
error output. There is no report where a line cannot be split into cells, where
the table cannot even be looked for, or where the complaint about a condition
cannot be written.
-/

namespace TableQuery

/-- How a query is to be answered. -/
structure Settings where
  /-- Separates the cells of a table file. -/
  cellSeparator : String := " "
  /-- Separates the cells of the printed rows. -/
  outputSeparator : String := "\t"
  /-- Separates row numbers in notes. -/
  indexSeparator : String := ""
  /-- Whether the header is printed in front of the rows. -/
  header : Bool := false
  /-- Whether the notes are printed. -/
  verbose : Bool := false
  deriving DecidableEq, Repr

/-- What the program says and the status it ends with. -/
structure Report where
  status : Nat
  output : String := ""
  errors : String := ""
  deriving DecidableEq, Repr

/-- Why there is no report. Nothing has been put out then. -/
inductive Abort where
  | lookup (error : SystemError)
  | cells (error : Cells.Error)
  | cell (error : MissingCell)
  | digits (error : Numeral.TooManyDigits)
  deriving DecidableEq, Repr

def Abort.message : Abort → String
  | .lookup error => error.message
  | .cells error => error.message
  | .cell error => error.message
  | .digits error => error.message

namespace Report

/-- The status when rows were printed. -/
def rowsPrinted : Nat := 0

/-- The status when no row matched. -/
def noRows : Nat := 100

/-- The status when something was wrong. -/
def failed : Nat := 255

/-- Lines as a text. -/
def unlines (lines : List String) : String :=
  String.join (lines.map (· ++ "\n"))

/-- The report on a complaint about what was asked. -/
def ofComplaint (complaint : String) : Report where
  status := failed
  errors := unlines ["Syntax error: " ++ complaint]

/-- The report on what was wrong with a request. -/
def ofError : RequestError → Except Abort Report
  | .query error => .ok (ofComplaint error.message)
  | .selection (.condition error) => (error.complaint.mapError .digits).map ofComplaint
  | .selection (.load (.lookup error)) => .error (.lookup error)
  | .selection (.load (.cells error)) => .error (.cells error)
  | .selection (.load error) =>
    .ok { status := failed, errors := unlines ["Error: " ++ error.message] }

/-- The report on a selection. -/
def ofSelection (settings : Settings) (selection : Selection) : Except Abort Report :=
  let notes :=
    if settings.verbose then selection.notes.map (·.render settings.indexSeparator) else []
  match selection.lines settings.outputSeparator settings.header with
  | .error (.noRows _) => .ok { status := noRows, errors := unlines notes }
  | .error (.cell error) => .error (.cell error)
  | .ok lines => .ok { status := rowsPrinted, output := unlines lines, errors := unlines notes }

/-- The report on a request. -/
def ofRequest (files : Path → Entry) (settings : Settings) (request : Request) :
    Except Abort Report :=
  match request.select files settings.cellSeparator with
  | .error error => ofError error
  | .ok selection => ofSelection settings selection

end Report

end TableQuery

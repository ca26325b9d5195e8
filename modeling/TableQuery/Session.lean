import TableQuery.File.Tree
import TableQuery.Selection

/-!
# Sessions

A session holds files, the separators in use and the selections made so far.
Each step changes the files or the separators, executes a query, or shows a
selection made before. A query is executed on the files and with the separators
of its moment; a selection is shown from what was read then. One cursor goes
through all the query texts, and a text that cannot be read leaves it in the
middle.
-/

namespace TableQuery

/-- A query as it is given: as words, as one text, or ready made. -/
inductive Request where
  | words (words : List String)
  | text (text : String)
  | query (query : Query)
  deriving DecidableEq, Repr

/-- The query that is asked for. -/
def Request.read : Request → Except Query.Error Query
  | .words ws => Query.ofWords ws
  | .text t => Query.ofText t
  | .query q => .ok q

/-- Why a request selects nothing, not even no rows. -/
inductive RequestError where
  | query (error : Query.Error)
  | selection (error : Selection.Error)
  deriving DecidableEq

def RequestError.complaint : RequestError → Except Numeral.TooManyDigits String
  | .query error => .ok error.message
  | .selection error => error.complaint

/-- What a request selects. -/
def Request.select (files : Path → Entry) (separator : String) (r : Request) :
    Except RequestError Selection := do
  let query ← r.read.mapError .query
  (Selection.ofQuery files separator query).mapError .selection

/-- Reads the query that is asked for. A text is read with the given cursor, and
where that is left comes with the query; nothing else moves the cursor. -/
def Request.readWith (c : Cursor) : Request → Except Query.Error Query × Cursor
  | .words ws => (Query.ofWords ws, c)
  | .text t => Query.readText c t
  | .query q => (.ok q, c)

/-- What a request selects that is read with the given cursor, and where that is
left. -/
def Request.selectWith (files : Path → Entry) (separator : String) (c : Cursor)
    (r : Request) : Except RequestError Selection × Cursor :=
  let (outcome, after) := r.readWith c
  (outcome.mapError .query >>= fun q =>
    (Selection.ofQuery files separator q).mapError .selection, after)

/-- Whether a request comes to a table file that has lines, which then have to
be split into cells. -/
def Request.hasLines (files : Path → Entry) (r : Request) : Bool :=
  match r.read with
  | .error _ => false
  | .ok q =>
    let path := Path.ofString q.table
    match Table.fileLines path (files path) with
    | .error _ => false
    | .ok lines => !lines.isEmpty

/-- Files, the separator of cells, the separator of row numbers in notes, the
cursor that query texts are read with, and the selections made so far. -/
structure Session where
  files : FileTree := {}
  cellSeparator : String := " "
  indexSeparator : String := ""
  cursor : Cursor := {}
  selections : List Selection := []
  deriving DecidableEq

namespace Session

/-- A step of a session. Separators that are not given stay as they are, and
the last selection is shown unless another is asked for by its number. -/
inductive Step where
  | write (path : Path) (bytes : List UInt8)
  | remove (path : Path)
  | separators (cell index : Option String)
  | execute (request : Request)
  | display (number : Option Int) (separator : String) (header : Bool)
  deriving DecidableEq, Repr

/-- The answer to a step: nothing to say, the selection made and its notes as
they read, lines, or that there is no such selection. -/
inductive Answer where
  | done
  | selection (selection : Selection) (notes : List String)
  | lines (lines : List String)
  | noSelection
  deriving DecidableEq

/-- Why a step fails. -/
inductive Error where
  | request (error : RequestError)
  | display (error : Selection.ShowError)
  deriving DecidableEq

def Error.complaint : Error → Except Numeral.TooManyDigits String
  | .request error => error.complaint
  | .display error => .ok error.message

/-- The selection that a step of showing means; numbers start at zero. -/
def selection? (s : Session) : Option Int → Option Selection
  | some (.ofNat number) => s.selections[number]?
  | some (.negSucc _) => none
  | none => s.selections.getLast?

/-- Takes one step. A step that fails changes nothing but the place of the
cursor, which stays where the text could not be read on. -/
def step (s : Session) : Step → Except Error Answer × Session
  | .write path bytes => (.ok .done, { s with files := s.files.write path bytes })
  | .remove path => (.ok .done, { s with files := s.files.remove path })
  | .separators cell index =>
    (.ok .done, { s with
      cellSeparator := cell.getD s.cellSeparator
      indexSeparator := index.getD s.indexSeparator })
  | .execute request =>
    match request.selectWith s.files.read s.cellSeparator s.cursor with
    | (.error e, cursor) => (.error (.request e), { s with cursor })
    | (.ok selection, cursor) =>
      (.ok (.selection selection (selection.notes.map (·.render s.indexSeparator))),
        { s with cursor, selections := s.selections ++ [selection] })
  | .display number separator header =>
    match s.selection? number with
    | none => (.ok .noSelection, s)
    | some selection => ((selection.lines separator header).map .lines |>.mapError .display, s)

/-- Takes steps one after another; the answers come in their order. -/
def run (s : Session) : List Step → List (Except Error Answer)
  | [] => []
  | first :: rest =>
    let (answer, after) := s.step first
    answer :: run after rest

end Session

end TableQuery

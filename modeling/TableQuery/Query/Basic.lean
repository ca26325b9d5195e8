import TableQuery.Query.Cursor
import TableQuery.Text.Case

/-!
# Queries

A query selects fields of a table under a condition. It is given as words, or
as one text that falls into words. Three keywords, in any letter case, say which
clause the words behind them belong to; clauses may come in any order and more
than once. Field names may be several to a word, the last table named counts,
and the words of the condition are kept as they are.
-/

namespace TableQuery

/-- A query: the names of the fields to show, the table's path, and the words
of the condition. -/
structure Query where
  fields : List String := []
  table : String := ""
  condition : List String := []
  deriving DecidableEq, Repr

namespace Query

/-- The parts of a query that a keyword opens. -/
inductive Clause where
  | fields
  | table
  | condition
  deriving DecidableEq, Repr

/-- Why words or a text are no query. -/
inductive Error where
  | text (error : Cursor.Error)
  | strayWord (word : String)
  | noFields
  | noTable
  deriving DecidableEq, Repr

def Error.message : Error → String
  | .text error => error.message
  | .strayWord word => "Unexpected '" ++ word ++ "' before SELECT, FROM or WHERE"
  | .noFields => "No fields given in SELECT clause"
  | .noTable => "No table given in FROM clause"

/-- The clause that a word opens, if it is a keyword. -/
def Clause.ofWord? (word : String) : Option Clause :=
  let key := Text.folded word
  if key = "select".toList then some .fields
  else if key = "from".toList then some .table
  else if key = "where".toList then some .condition
  else none

/-- A character between field names. -/
def isFieldSeparator (c : Char) : Bool :=
  c == ',' || Text.isBlank c

/-- The field names in a word, which may be none. -/
def fieldNames (word : String) : List String :=
  ((word.toList.splitOnP isFieldSeparator).filter (!·.isEmpty)).map String.ofList

/-- A query being read, and the clause that further words belong to. -/
structure Draft where
  clause : Option Clause := none
  query : Query := {}
  deriving DecidableEq, Repr

/-- Reads one word. -/
def Draft.add (d : Draft) (word : String) : Except Error Draft :=
  match Clause.ofWord? word with
  | some clause => .ok { d with clause := some clause }
  | none =>
    match d.clause with
    | none => .error (.strayWord word)
    | some .fields =>
      .ok { d with query := { d.query with fields := d.query.fields ++ fieldNames word } }
    | some .table => .ok { d with query := { d.query with table := word } }
    | some .condition =>
      .ok { d with query := { d.query with condition := d.query.condition ++ [word] } }

/-- A query needs fields and a table; a missing field list is noticed first. -/
def Draft.finish (d : Draft) : Except Error Query :=
  if d.query.fields.isEmpty then .error .noFields
  else if d.query.table.isEmpty then .error .noTable
  else .ok d.query

/-- Reads a query given as words. -/
def ofWords (words : List String) : Except Error Query := do
  let draft ← words.foldlM Draft.add {}
  draft.finish

/-- Reads a query given as one text. -/
def ofText (text : String) : Except Error Query := do
  let tokens ← (({} : Cursor).tokens text).1.mapError .text
  ofWords (tokens.map (·.value))

/-- Reads a query given as one text with a cursor that may have been through
other texts, and leaves the cursor where the reading of this one ends. -/
def readText (c : Cursor) (text : String) : Except Error Query × Cursor :=
  let (tokens, after) := c.tokens text
  (tokens.mapError .text >>= fun tokens => ofWords (tokens.map (·.value)), after)

end Query

end TableQuery

import TableQuery.CommandLine.Invocation

/-!
# Running a command line

The report on a command line: the help, a complaint about how the program was
called, or the report on the query it asks for. A separator that is missing is
noticed only when it is needed: that of cells at the first line of the table
file, that of the output when there are rows to print.
-/

namespace TableQuery.CommandLine

/-- The lines that show how the program is called. -/
def usage : List String :=
  ["usage: flat-query [-h] [-F INTERNAL_FS] [-I INPUT_FS] [-O OUTPUT_FS] [-H]",
    "                  [-c COMMAND] [-v]",
    "                  ..."]

/-- The lines of the help behind those. -/
def explanation : List String :=
  ["",
    "Run a SELECT query against a delimited text file",
    "",
    "positional arguments:",
    "  query                 SELECT f1[,f2...] FROM <path> [WHERE <predicates>]",
    "",
    "options:",
    "  -h, --help            show this help message and exit",
    "  -F INTERNAL_FS        Internal field separator used when listing row indices",
    "                        (default: a space)",
    "  -I INPUT_FS           Field separator of the table file (default:",
    "                        whitespace)",
    "  -O OUTPUT_FS          Field separator of the output (default: tab)",
    "  -H                    Print the table header before the selected rows",
    "  -c COMMAND, --command COMMAND",
    "                        The whole query as a single string",
    "  -v, --verbose         Print how each predicate was evaluated to stderr",
    "",
    "Exit status is 0 when rows were printed, 100 when no rows matched and 255 on",
    "error. Quote or escape '(', ')', '<' and '>' in the shell."]

/-- The status when the command line cannot be understood. -/
def misused : Nat := 2

/-- The report where no query is asked for. -/
def Stop.report : Stop → Report
  | .help => { status := 0, output := Report.unlines (usage ++ explanation) }
  | .misuse m =>
    { status := misused,
      errors := Report.unlines (usage ++ ["flat-query: error: " ++ m.message]) }

/-- The query that an invocation asks for; it has to give one, and in one way
only. An empty text is none. -/
def Invocation.request (i : Invocation) : Except Report Request :=
  match i.command.isEmpty, i.words.isEmpty with
  | false, false =>
    .error
      { status := Report.failed,
        errors := Report.unlines
          ["Error: Give the query either with -c/--command or as arguments, not both"] }
  | false, true => .ok (.text i.command)
  | true, false => .ok (.words i.words)
  | true, true => .error { status := Report.failed, errors := Report.unlines usage }

/-- What a command line asks for: a request and how it is to be answered, unless
all there is to say is known already. -/
def request (arguments : List String) : Except Report (Invocation × Request) := do
  let invocation ← (Invocation.ofWords arguments).mapError Stop.report
  return (invocation, ← invocation.request)

/-- Why there is no report on a command line. -/
inductive Failure where
  | abort (abort : Abort)
  | noCellSeparator
  | noOutputSeparator
  deriving DecidableEq, Repr

def Failure.message : Failure → String
  | .abort a => a.message
  | .noCellSeparator => "must be str or None, not list"
  | .noOutputSeparator => "'list' object has no attribute 'join'"

/-- The report on a request under the settings of an invocation. -/
def Invocation.answer (files : Path → Entry) (i : Invocation) (request : Request) :
    Except Failure Report := do
  if i.cellSeparator.isNone && request.hasLines files then throw .noCellSeparator
  let report ← (Report.ofRequest files i.settings request).mapError .abort
  if i.outputSeparator.isNone && report.status = Report.rowsPrinted then throw .noOutputSeparator
  return report

/-- The report on a command line. -/
def run (files : Path → Entry) (arguments : List String) : Except Failure Report :=
  match request arguments with
  | .error report => .ok report
  | .ok (invocation, request) => invocation.answer files request

/-- The only file that the report on a command line depends on, if any. -/
def tableFile? (arguments : List String) : Option Path :=
  match request arguments with
  | .error _ => none
  | .ok (_, request) =>
    match request.read with
    | .error _ => none
    | .ok query => some (Path.ofString query.table)

end TableQuery.CommandLine

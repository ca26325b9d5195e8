import TableQuery.CommandLine.Run

/-!
# The program

Reads the one file that a command line asks about, prints the report on it and
ends with its status.
-/

namespace TableQuery.CommandLine

/-- The number and the text of an error. The system counts its errors downwards
from zero, in 32 bits. -/
def numbered : IO.Error → Nat × String
  | .otherError n s | .resourceBusy n s | .resourceVanished n s | .unsupportedOperation n s
  | .hardwareFault n s | .unsatisfiedConstraints n s | .illegalOperation n s
  | .protocolError n s | .timeExpired n s | .alreadyExists _ n s | .interrupted _ n s
  | .noFileOrDirectory _ n s | .invalidArgument _ n s | .permissionDenied _ n s
  | .resourceExhausted _ n s | .inappropriateType _ n s | .noSuchThing _ n s => ((-n).toNat, s)
  | .unexpectedEof => (0, "unexpected end of file")
  | .userError s => (0, s)

/-- An error as the system reports it of a path. -/
def systemError (path : Path) (error : IO.Error) : SystemError :=
  let (number, reason) := numbered error
  ⟨number, reason, path.toString⟩

/-- What is found at a path. -/
def findFile (path : Path) : IO Entry := do
  let file := (← IO.currentDir) / path.toString
  match ← file.metadata.toBaseIO with
  | .error error => return .fault (systemError path error)
  | .ok data =>
    if data.type != .file then return .other
    match ← (IO.FS.readBinFile file).toBaseIO with
    | .error error => return .locked (systemError path error)
    | .ok bytes => return .file bytes.toList

end TableQuery.CommandLine

/-- Runs the program. -/
def main (arguments : List String) : IO UInt32 := do
  let entry ←
    match TableQuery.CommandLine.tableFile? arguments with
    | some path => TableQuery.CommandLine.findFile path
    | none => pure .other
  match TableQuery.CommandLine.run (fun _ => entry) arguments with
  | .ok report =>
    (← IO.getStderr).putStr report.errors
    (← IO.getStdout).putStr report.output
    return report.status.toUInt32
  | .error failure =>
    (← IO.getStderr).putStrLn failure.message
    return 1

import TableQuery.File.Path
import TableQuery.Text.Quoted

/-!
# Files as they are found

What the system says of a path. It may name a regular file, whose bytes can be
read or cannot, or something else. Or the look-up fails: mostly because nothing
is there, but also because a name is too long to be looked for or a folder may
not be searched, and then the system has not said that there is no file.
-/

namespace TableQuery

/-- An error that the system reports: its number, what it says, and the name of
the file it speaks of, if it speaks of one. -/
structure SystemError where
  number : Nat
  reason : String
  file : Option String := none
  deriving DecidableEq, Repr

namespace SystemError

def message (e : SystemError) : String :=
  let place :=
    match e.file with
    | some name => ": " ++ Text.quoted name
    | none => ""
  "[Errno " ++ toString e.number ++ "] " ++ e.reason ++ place

/-- The numbers of the errors that say that there is nothing at a path: no such
entry, a bad descriptor, a step that is no folder, links that lead in a circle. -/
def absences : List Nat := [2, 9, 20, 40]

/-- Whether an error says that there is nothing at a path. -/
def isAbsence (e : SystemError) : Bool :=
  absences.contains e.number

/-- There is no entry of that name. -/
def noEntry (name : String) : SystemError := ⟨2, "No such file or directory", name⟩

/-- A step on the way is no folder. -/
def notFolder (name : String) : SystemError := ⟨20, "Not a directory", name⟩

/-- A step, or the whole path, is longer than names may be. -/
def nameTooLong (name : String) : SystemError := ⟨36, "File name too long", name⟩

end SystemError

/-- What is found at a path. -/
inductive Entry where
  /-- A regular file with these bytes. -/
  | file (bytes : List UInt8)
  /-- A regular file that cannot be read. -/
  | locked (error : SystemError)
  /-- No regular file: a folder, say, or a path that nothing can have. -/
  | other
  /-- The look-up of the path fails. -/
  | fault (error : SystemError)
  deriving DecidableEq, Repr

end TableQuery

import TableQuery.File.Entry

/-!
# File trees

The files below one folder, with their bytes, and the folders between. Reading
follows a path step by step, as it is written: every place on the way has to be
a folder, a step back leads to the folder above, and a name that is too long is
not looked for. Outside the tree nothing is found but the folders above it.
-/

namespace TableQuery

/-- The files and folders below a root, each by the names that lead to it. -/
structure FileTree where
  files : List (List String × List UInt8) := []
  folders : List (List String) := []
  deriving DecidableEq, Repr

namespace FileTree

/-- Whether a place is a folder; the root is one. -/
def isFolder (t : FileTree) (place : List String) : Bool :=
  place.isEmpty || t.folders.contains place

/-- The most bytes that the name of one step may have. -/
def maxNameLength : Nat := 255

/-- The most bytes that a whole path may have. -/
def maxPathLength : Nat := 4095

/-- The place that one step leads to. Outside the tree, which is no place in it,
there are only the folders above. -/
def follow (t : FileTree) (p : Path) :
    Option (List String) → String → Except SystemError (Option (List String))
  | none, step =>
    if step = ".." then .ok none
    else if maxNameLength < step.utf8ByteSize then .error (.nameTooLong p.toString)
    else .error (.noEntry p.toString)
  | some place, step =>
    if !t.isFolder place then
      if (t.files.lookup place).isSome then .error (.notFolder p.toString)
      else .error (.noEntry p.toString)
    else if step = ".." then .ok (if place.isEmpty then none else some place.dropLast)
    else if maxNameLength < step.utf8ByteSize then .error (.nameTooLong p.toString)
    else .ok (some (place ++ [step]))

/-- What is found at a path. No file has a name with a null character in it. -/
def read (t : FileTree) (p : Path) : Entry :=
  if '\x00' ∈ p.toString.toList then .other
  else if maxPathLength < p.toString.utf8ByteSize then .fault (.nameTooLong p.toString)
  else
    let start := if p.anchor = .current then some [] else none
    match p.steps.foldlM (t.follow p) start with
    | .error error => .fault error
    | .ok none => .other
    | .ok (some place) =>
      match t.files.lookup place with
      | some bytes => .file bytes
      | none => if t.isFolder place then .other else .fault (.noEntry p.toString)

/-- The tree with the folder that steps from the root lead to, and every folder above it. -/
def addFolder (t : FileTree) (steps : List String) : FileTree :=
  { t with folders := t.folders ++ (List.range steps.length).map fun n => steps.take (n + 1) }

/-- The tree with one file written, in place of what its path held before. -/
def write (t : FileTree) (p : Path) (bytes : List UInt8) : FileTree :=
  let t := t.addFolder p.steps.dropLast
  { t with files := (p.steps, bytes) :: t.files.filter (·.1 ≠ p.steps) }

/-- The tree without one file. -/
def remove (t : FileTree) (p : Path) : FileTree :=
  { t with files := t.files.filter (·.1 ≠ p.steps) }

end FileTree

end TableQuery

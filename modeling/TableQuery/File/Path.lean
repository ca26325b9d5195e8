/-!
# Paths

The name of a file as the steps that lead to it. Empty steps and steps to the
same place are left out when a path is read, so that a path is written in one
way however it was typed. Steps back stay: where they lead depends on the files.
-/

namespace TableQuery

/-- Where a path starts: at the current folder, at the root, or, for a path
that begins with exactly two slashes, at what a system may keep there. -/
inductive Anchor where
  | current
  | root
  | twoSlashes
  deriving DecidableEq, Repr

/-- A path: where it starts and the names on the way. -/
structure Path where
  anchor : Anchor
  steps : List String
  deriving DecidableEq, Repr

namespace Path

/-- Reads a path. -/
def ofString (s : String) : Path where
  anchor :=
    match (s.toList.takeWhile (· == '/')).length with
    | 0 => .current
    | 2 => .twoSlashes
    | _ => .root
  steps := ((s.toList.splitOn '/').map String.ofList).filter fun step => step ≠ "" && step ≠ "."

/-- How a path is written; the path of the current folder is a single point. -/
def toString (p : Path) : String :=
  let steps := "/".intercalate p.steps
  match p.anchor with
  | .current => if p.steps.isEmpty then "." else steps
  | .root => "/" ++ steps
  | .twoSlashes => "//" ++ steps

instance : ToString Path := ⟨toString⟩

end Path

end TableQuery

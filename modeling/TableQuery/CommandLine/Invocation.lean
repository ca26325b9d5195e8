import TableQuery.CommandLine.Option
import TableQuery.Report

/-!
# Invocations

What a command line asks for: settings, perhaps a query given as one text, and
the words behind the options. Every word is looked at first; then the options
are taken in order, and the first word that is no option begins the query, with
all that follows it.
-/

namespace TableQuery.CommandLine

/-- A command line understood. The separator of cells and that of the output are
missing where their option was given last without a value. -/
structure Invocation where
  cellSeparator : Option String := some ({} : Settings).cellSeparator
  outputSeparator : Option String := some ({} : Settings).outputSeparator
  indexSeparator : String := ({} : Settings).indexSeparator
  header : Bool := false
  verbose : Bool := false
  command : String := ""
  words : List String := []
  deriving DecidableEq, Repr

/-- Why a command line asks for no query. -/
inductive Stop where
  | help
  | misuse (misuse : Misuse)
  deriving DecidableEq, Repr

namespace Invocation

/-- The settings that an invocation gives; a missing separator is empty here. -/
def settings (i : Invocation) : Settings where
  cellSeparator := i.cellSeparator.getD ""
  outputSeparator := i.outputSeparator.getD ""
  indexSeparator := i.indexSeparator
  header := i.header
  verbose := i.verbose

/-- Every word with what it is; behind two dashes alone all words are plain. -/
def classify : List String → Except Misuse (List (String × Argument))
  | [] => .ok []
  | word :: words => do
    let argument ← Argument.ofWord word
    match argument with
    | .dashes => return (word, .dashes) :: words.map fun word => (word, .plain)
    | argument => return (word, argument) :: (← classify words)

/-- The options in a short one that carries others: those without a value, then
the last one and the text it carries. An option that takes no value must not
carry any other text. -/
def unfoldShort (s : Setting) :
    List Char → Except Misuse (List Setting × Setting × Option (List Char))
  | [] => .ok ([], s, none)
  | c :: rest =>
    if s.takesValue then .ok ([], s, some (c :: rest))
    else
      match Setting.ofLetter? c with
      | none => .error (.ignoredValue s (String.ofList (c :: rest)))
      | some next => (unfoldShort next rest).map fun (before, last) => (s :: before, last)

/-- The options that one word gives: those without a value, then the last one
and the text it carries. -/
def unfoldOption (s : Setting) (long : Bool) :
    Option (List Char) → Except Misuse (List Setting × Setting × Option (List Char))
  | none => .ok ([], s, none)
  | some carried =>
    if s.takesValue then .ok ([], s, some carried)
    else if long || carried.isEmpty then .error (.ignoredValue s (String.ofList carried))
    else unfoldShort s carried

/-- The invocation with one option applied to it. Without a value there is no
command, row numbers are separated as if nothing had been said, and the other
separators are missing. -/
def apply (i : Invocation) (s : Setting) (value : Option String) : Except Stop Invocation :=
  match s with
  | .help => .error .help
  | .indexSeparator => .ok { i with indexSeparator := value.getD "" }
  | .cellSeparator => .ok { i with cellSeparator := value }
  | .outputSeparator => .ok { i with outputSeparator := value }
  | .header => .ok { i with header := true }
  | .command => .ok { i with command := value.getD "" }
  | .verbose => .ok { i with verbose := true }

/-- The invocation with several options applied to it, of which only the last
one may have a value. -/
def applyAll (i : Invocation) (before : List Setting) (last : Setting) (value : Option String) :
    Except Stop Invocation := do
  let i ← before.foldlM (fun i s => i.apply s none) i
  i.apply last value

/-- The value that an option carries; two dashes alone are none. -/
def carriedValue (carried : List Char) : Option String :=
  if carried = ['-', '-'] then none else some (String.ofList carried)

/-- Takes options up to the first word that is none. Words that would be
options are collected, and complained about when all others have been taken. -/
def take (i : Invocation) (strays : List String) :
    List (String × Argument) → Except Stop Invocation
  | [] => if strays.isEmpty then .ok i else .error (.misuse (.unrecognized strays))
  | (word, .unknown) :: rest => take i (strays ++ [word]) rest
  | (_, .option s long carried) :: rest =>
    match unfoldOption s long carried with
    | .error misuse => .error (.misuse misuse)
    | .ok (before, last, some carried) => do
      take (← i.applyAll before last (carriedValue carried)) strays rest
    | .ok (before, last, none) =>
      if last.takesValue then
        match rest with
        | (value, .plain) :: rest => do take (← i.applyAll before last (some value)) strays rest
        | _ => .error (.misuse (.missingValue last))
      else do take (← i.applyAll before last none) strays rest
  | words =>
    if strays.isEmpty then .ok { i with words := words.map (·.1) }
    else .error (.misuse (.unrecognized strays))

/-- Reads a command line. -/
def ofWords (words : List String) : Except Stop Invocation :=
  match classify words with
  | .error misuse => .error (.misuse misuse)
  | .ok arguments => take {} [] arguments

end Invocation

end TableQuery.CommandLine

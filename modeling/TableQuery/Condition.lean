import TableQuery.Comparison
import TableQuery.SetExpression
import TableQuery.Table.Basic
import TableQuery.Text.Case
import TableQuery.Text.Quoted

/-!
# Conditions

The words of a condition are a field, a comparison, a literal and a connective,
over and over; parentheses may stand anywhere and do not count. Over a table
each predicate becomes the set of the rows that satisfy it, and the condition
becomes a set expression.

Nothing here is refused. A predicate with an unknown field or comparison is
satisfied by no row, a word that is no connective is passed over, and a
predicate that breaks off is left out. Notes say so, and also what rows each
predicate matched.
-/

namespace TableQuery

/-- The role of a word of a condition. -/
inductive Role where
  | field
  | comparison
  | literal
  | connective
  deriving DecidableEq, Repr

/-- What a role is called. -/
def Role.name : Role → String
  | .field => "field"
  | .comparison => "operator"
  | .literal => "literal"
  | .connective => "connector"

/-- A role was asked for by a name that none has. -/
structure UnknownRole where
  name : String
  deriving DecidableEq, Repr

def UnknownRole.message (e : UnknownRole) : String :=
  Text.quoted e.name ++ " is not a valid PredicatePart"

/-- The role of a name. -/
def Role.ofName (name : String) : Except UnknownRole Role :=
  match [Role.field, .comparison, .literal, .connective].find? (·.name = name) with
  | some role => .ok role
  | none => .error ⟨name⟩

/-- The role of the word behind one, parentheses left out. -/
def Role.next : Role → Role
  | .field => .comparison
  | .comparison => .literal
  | .literal => .connective
  | .connective => .field

/-- A predicate as it is written. -/
structure Predicate where
  field : String
  comparison : String
  literal : String
  deriving DecidableEq, Repr

namespace Predicate

/-- The words of a predicate, with spaces between. -/
def text (p : Predicate) : String :=
  p.field ++ " " ++ p.comparison ++ " " ++ p.literal

/-- Why no row can satisfy a predicate, whatever the rows are. -/
inductive Flaw where
  | unknownComparison (word : String)
  | unknownField (error : UnknownField)
  deriving DecidableEq, Repr

def Flaw.message : Flaw → String
  | .unknownComparison word => "Unknown operator '" ++ word ++ "'"
  | .unknownField error => error.message

/-- The rows that satisfy a predicate. The comparison is looked at first. -/
def rows (t : Table) (p : Predicate) : Except Flaw IndexSet :=
  match Comparison.ofSymbol? p.comparison with
  | none => .error (.unknownComparison p.comparison)
  | some comparison =>
    match t.column p.field with
    | .error error => .error (.unknownField error)
    | .ok column => .ok (comparison.rows column.toList p.literal)

end Predicate

/-- A remark on how a query was understood. -/
inductive Note where
  | matched (predicate : Predicate) (rows : IndexSet)
  | flawed (predicate : Predicate) (flaw : Predicate.Flaw)
  | ignored (word : String)
  | selected (count : Nat) (table : Path)
  deriving DecidableEq

namespace Note

/-- The separator between row numbers; a space, unless one is given. -/
def indexSeparator (separator : String) : String :=
  if separator.isEmpty then " " else separator

/-- Row numbers in ascending order. They count the lines of a file, and no file has
so many that a number would be too long to be written. -/
def renderIndices (separator : String) (indices : List Int) : String :=
  (indexSeparator separator).intercalate
    ((indices.mergeSort fun i j => decide (i ≤ j)).map toString)

/-- The text of a note. -/
def render (separator : String) : Note → String
  | .matched predicate rows =>
    "'" ++ predicate.text ++ "' matches rows: " ++ renderIndices separator rows.toList
  | .flawed predicate flaw =>
    flaw.message ++ " in predicate '" ++ predicate.text ++ "', no rows match"
  | .ignored word => "Ignoring '" ++ word ++ "' where AND or OR was expected"
  | .selected count table => toString count ++ " row(s) selected from " ++ table.toString

end Note

namespace Condition

/-- The parenthesis that a word is. -/
def parenthesis? (word : String) : Option SetExpression.Token :=
  if word = "(" then some .opening else if word = ")" then some .closing else none

/-- The connective that a word spells, in any letter case. -/
def connective? (word : String) : Option Connective :=
  let key := Text.folded word
  if key = "and".toList then some .and else if key = "or".toList then some .or else none

/-- Where the reading of a condition stands: in front of a word of some role,
with the words of the predicate that is begun. -/
inductive Reading where
  | field
  | comparison (field : String)
  | literal (field comparison : String)
  | connective
  deriving DecidableEq, Repr

/-- The role of the next word. -/
def Reading.role : Reading → Role
  | .field => .field
  | .comparison _ => .comparison
  | .literal _ _ => .literal
  | .connective => .connective

/-- What one word adds to the set expression and to the notes. -/
def Reading.step (t : Table) (r : Reading) (word : String) :
    Reading × List SetExpression.Token × List Note :=
  match parenthesis? word with
  | some token => (r, [token], [])
  | none =>
    match r with
    | .field => (.comparison word, [], [])
    | .comparison f => (.literal f word, [], [])
    | .literal f c =>
      let predicate : Predicate := ⟨f, c, word⟩
      match predicate.rows t with
      | .ok rows => (.connective, [.set rows], [.matched predicate rows])
      | .error flaw => (.connective, [.set .empty], [.flawed predicate flaw])
    | .connective =>
      match connective? word with
      | some c => (.field, [.connective c], [])
      | none => (.field, [], [.ignored word])

/-- What the words from a place on add to the set expression and to the notes. -/
def Reading.run (t : Table) (r : Reading) : List String → List SetExpression.Token × List Note
  | [] => ([], [])
  | word :: words =>
    let (after, tokens, notes) := r.step t word
    let (moreTokens, moreNotes) := run t after words
    (tokens ++ moreTokens, notes ++ moreNotes)

/-- The set expression that the words of a condition make over a table, and
the notes on them. -/
def interpret (t : Table) (words : List String) : List SetExpression.Token × List Note :=
  Reading.run t .field words

theorem step_of_parenthesis {t : Table} {r : Reading} {word : String} {token : SetExpression.Token}
    (h : parenthesis? word = some token) : r.step t word = (r, [token], []) := by
  unfold Reading.step
  rw [h]

theorem role_step {t : Table} {r : Reading} {word : String} (h : parenthesis? word = none) :
    (r.step t word).1.role = r.role.next := by
  unfold Reading.step
  rw [h]
  cases r with
  | field => rfl
  | comparison f => rfl
  | literal f c =>
    simp only
    cases Predicate.rows t ⟨f, c, word⟩ <;> rfl
  | connective =>
    simp only
    cases connective? word <;> rfl

end Condition

end TableQuery

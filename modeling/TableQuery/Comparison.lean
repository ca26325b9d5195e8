import TableQuery.IndexSet
import TableQuery.Number

/-!
# Comparisons

The ten ways in which a predicate compares a cell with a literal. Equality and
its opposite compare the texts. The two bare orderings compare numbers where
both texts are numbers and the texts otherwise. The dashed comparisons are about
numbers only, and no text that is not a number satisfies one.
-/

namespace TableQuery

/-- A relation between two numbers. -/
inductive NumberRelation where
  | equal
  | unequal
  | greater
  | greaterOrEqual
  | less
  | lessOrEqual
  deriving DecidableEq, Repr

/-- Whether a relation holds. What is not a number is unequal to everything
and stands in no other relation. -/
def NumberRelation.holds (r : NumberRelation) (a b : Number) : Bool :=
  match r with
  | .equal => a.isSame b
  | .unequal => !a.isSame b
  | .greater => b.isLess a
  | .greaterOrEqual => b.isLess a || a.isSame b
  | .less => a.isLess b
  | .lessOrEqual => a.isLess b || a.isSame b

/-- A comparison of a cell with a literal. -/
inductive Comparison where
  | equal
  | unequal
  | greater
  | less
  | numeric (relation : NumberRelation)
  deriving DecidableEq, Repr

namespace Comparison

/-- Whether a comparison is about numbers only. -/
def isNumeric : Comparison → Bool
  | .numeric _ => true
  | _ => false

/-- How a comparison is spelled in a query. -/
def symbol : Comparison → String
  | .equal => "="
  | .unequal => "!="
  | .greater => ">"
  | .less => "<"
  | .numeric .equal => "-eq"
  | .numeric .unequal => "-ne"
  | .numeric .greater => "-gt"
  | .numeric .greaterOrEqual => "-ge"
  | .numeric .less => "-lt"
  | .numeric .lessOrEqual => "-le"

/-- Every comparison. -/
def all : List Comparison :=
  [.equal, .unequal, .greater, .less, .numeric .equal, .numeric .unequal, .numeric .greater,
    .numeric .greaterOrEqual, .numeric .less, .numeric .lessOrEqual]

/-- The comparison a word spells; the letter case of a dashed one is free. -/
def ofSymbol? (word : String) : Option Comparison :=
  let key := Text.folded word
  all.find? fun c => c.symbol.toList = key

/-- Whether a cell and a literal satisfy a comparison. -/
def holds (c : Comparison) (cell literal : String) : Bool :=
  match c with
  | .equal => decide (cell = literal)
  | .unequal => decide (cell ≠ literal)
  | .greater =>
    match Number.read? cell, Number.read? literal with
    | some a, some b => b.isLess a
    | _, _ => decide (literal < cell)
  | .less =>
    match Number.read? cell, Number.read? literal with
    | some a, some b => a.isLess b
    | _, _ => decide (cell < literal)
  | .numeric relation =>
    match Number.read? cell, Number.read? literal with
    | some a, some b => relation.holds a b
    | _, _ => false

/-- The indices of the cells of a column that satisfy a comparison with a
literal. Index zero is the column's header, which is never among them. -/
def rows (c : Comparison) (column : List String) (literal : String) : IndexSet :=
  .ofList (((column.drop 1).zipIdx 1).filterMap fun (cell, i) =>
    if c.holds cell literal then some (i : Int) else none)

end Comparison

end TableQuery

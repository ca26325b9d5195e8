import TableQuery.IndexSet
import TableQuery.Number.Numeral

/-!
# Set expressions

Index sets joined by connectives, `&` for what is in both and `|` for what is in
either. The two bind alike and to the left; parentheses group, and an empty
group is the empty set.

The tokens are read once, from left to right. In front of an operand all that
matters is the value it will be joined to, if any; each open parenthesis keeps
that of the place where it stands. The first token that nothing could continue
to an expression is refused, with its position.
-/

namespace TableQuery

/-- A way to join two sets. -/
inductive Connective where
  | and
  | or
  deriving DecidableEq, Repr

/-- The set that a connective makes of two. -/
def Connective.join : Connective → IndexSet → IndexSet → IndexSet
  | .and => IndexSet.inter
  | .or => IndexSet.union

/-- The symbol of a connective. -/
def Connective.symbol : Connective → String
  | .and => "&"
  | .or => "|"

namespace SetExpression

/-- A token of a set expression. -/
inductive Token where
  | set (indices : IndexSet)
  | connective (c : Connective)
  | opening
  | closing
  deriving DecidableEq

namespace Token

/-- The token that a symbol spells. -/
def ofSymbol? (symbol : String) : Option Token :=
  if symbol = "&" then some (.connective .and)
  else if symbol = "|" then some (.connective .or)
  else if symbol = "(" then some .opening
  else if symbol = ")" then some .closing
  else none

/-- How a token is shown: a symbol as itself, a set by its members in braces. A
member with too many digits cannot be shown, nor can its set. -/
def describe : Token → Except Numeral.TooManyDigits String
  | .connective c => .ok c.symbol
  | .opening => .ok "("
  | .closing => .ok ")"
  | .set indices => do
    let members ← indices.toList.mapM Numeral.write
    return "\x7b" ++ " ".intercalate members ++ "\x7d"

end Token

/-- Why tokens are no set expression. -/
inductive Error where
  | unknownSymbol (symbol : String)
  | unexpected (token : Token) (position : Nat)
  | unexpectedEnd
  deriving DecidableEq

/-- The complaint about tokens. It is written when they are refused, and shows the
unexpected one; where that cannot be shown there is no complaint, and it is this
that is reported. -/
def Error.complaint : Error → Except Numeral.TooManyDigits String
  | .unknownSymbol symbol => .ok ("Unknown set operator '" ++ symbol ++ "'")
  | .unexpected token position => do
    let shown ← token.describe
    return "Unexpected '" ++ shown ++ "' at position " ++ toString position ++
      " in WHERE clause"
  | .unexpectedEnd => .ok "Unexpected end of WHERE clause"

/-- The tokens that sets and symbols make; the first unknown symbol is refused. -/
def tokens : List (String ⊕ IndexSet) → Except Error (List Token)
  | [] => .ok []
  | .inr indices :: rest => (tokens rest).map (.set indices :: ·)
  | .inl symbol :: rest =>
    match Token.ofSymbol? symbol with
    | some token => (tokens rest).map (token :: ·)
    | none => .error (.unknownSymbol symbol)

/-- What an operand is to be joined to: a value and a connective, or nothing. -/
abbrev Left := Option (IndexSet × Connective)

/-- The value of an operand joined to what stands left of it. -/
def joinLeft : Left → IndexSet → IndexSet
  | none, s => s
  | some (value, connective), s => connective.join value s

/-- How far an expression is read, beside the open parentheses. -/
inductive State where
  /-- An operand is next, to be joined to what stands left of it. -/
  | operand (left : Left)
  /-- The tokens so far, from the innermost open parenthesis on, have a value. -/
  | value (s : IndexSet)
  deriving DecidableEq

/-- Reads one token. Beside the state there is, for each open parenthesis, the
innermost first, what its group is to be joined to. A parenthesis may be closed
behind a value, or right behind the one that opens it. -/
def step (outer : List Left) : State → Token → Option (List Left × State)
  | .operand left, .set s => some (outer, .value (joinLeft left s))
  | .operand left, .opening => some (left :: outer, .operand none)
  | .operand none, .closing =>
    match outer with
    | [] => none
    | left :: outer => some (outer, .value (joinLeft left .empty))
  | .operand (some _), .closing => none
  | .operand _, .connective _ => none
  | .value s, .connective c => some (outer, .operand (some (s, c)))
  | .value s, .closing =>
    match outer with
    | [] => none
    | left :: outer => some (outer, .value (joinLeft left s))
  | .value _, .set _ => none
  | .value _, .opening => none

/-- Reads on from the token at a position to the end. -/
def run (position : Nat) (outer : List Left) (state : State) :
    List Token → Except Error IndexSet
  | [] =>
    match outer, state with
    | [], .value s => .ok s
    | _, _ => .error .unexpectedEnd
  | token :: rest =>
    match step outer state token with
    | some (outer, state) => run (position + 1) outer state rest
    | none => .error (.unexpected token position)

/-- The value of a set expression; no tokens at all are the empty set. -/
def evaluate : List Token → Except Error IndexSet
  | [] => .ok .empty
  | tokens => run 0 [] (.operand none) tokens

end SetExpression

end TableQuery

import TableQuery.Number.Decimal
import TableQuery.Text.Blank
import TableQuery.Text.Case
import TableQuery.Text.Digit

/-!
# Numerals

How a number is written in a cell or a query: digits of any script, an
underscore between two digits where it helps the reader, a sign, and for a
number with a fraction a point or an exponent or both. Whole numbers stay
exact up to a length; everything else becomes the nearest binary64 number. Nor
is a whole number written out that is longer than this.
-/

namespace TableQuery.Numeral

/-- White space that may stand around a numeral: all of it but the four
information separators. -/
def isMargin (c : Char) : Bool :=
  Text.isBlank c && !('\x1c' ≤ c && c ≤ '\x1f')

/-- The text between the margins, its digits as ASCII digits. -/
def body (cs : List Char) : List Char :=
  let inner := ((cs.dropWhile isMargin).reverse.dropWhile isMargin).reverse
  inner.map Text.plainDigit

/-- Takes a sign off the front; `true` stands for a minus sign. -/
def signed : List Char → Bool × List Char
  | '-' :: cs => (true, cs)
  | '+' :: cs => (false, cs)
  | cs => (false, cs)

/-- The values of a run of at least one digit, in which single underscores
stand only between digits. -/
def digits? (cs : List Char) : Option (List Nat) :=
  let groups := cs.splitOn '_'
  if groups.all (fun g => !g.isEmpty && g.all Char.isDigit) then
    some (groups.flatten.map fun c => c.toNat - '0'.toNat)
  else none

/-- The values of a run of digits that may also be missing. -/
def digitsOrNone? (cs : List Char) : Option (List Nat) :=
  if cs.isEmpty then some [] else digits? cs

/-- The greatest count of digits that an exact whole number is read from, leading
zeros included, or written with. -/
def maxWholeDigits : Nat := 4300

/-- Reads a whole number. -/
def whole? (cs : List Char) : Option Int :=
  let (negative, rest) := signed cs
  match digits? rest with
  | some digits =>
    if digits.length ≤ maxWholeDigits then
      let n : Int := natOfDigits digits
      some (if negative then -n else n)
    else none
  | none => none

/-- Reads digits with an optional point among them: the digits and how many of
them follow the point. At least one digit is there. -/
def mantissa? (cs : List Char) : Option (List Nat × Nat) :=
  match cs.splitOn '.' with
  | [before] => (digits? before).map fun ds => (ds, 0)
  | [before, after] =>
    match digitsOrNone? before, digitsOrNone? after with
    | some ds, some es => if ds.isEmpty && es.isEmpty then none else some (ds ++ es, es.length)
    | _, _ => none
  | _ => none

/-- Reads what follows the mantissa: nothing, or the exponent mark and a whole number. -/
def exponent? : List Char → Option Int
  | [] => some 0
  | _ :: cs =>
    let (negative, rest) := signed cs
    (digits? rest).map fun ds =>
      let n : Int := natOfDigits ds
      if negative then -n else n

def isExponentMark (c : Char) : Bool :=
  c == 'e' || c == 'E'

/-- Reads a number with an optional point and an optional exponent. -/
def decimal? (cs : List Char) : Option Decimal :=
  let (negative, rest) := signed cs
  let mantissa := rest.takeWhile (!isExponentMark ·)
  match mantissa? mantissa, exponent? (rest.dropWhile (!isExponentMark ·)) with
  | some (digits, places), some exponent => some ⟨negative, digits, exponent - places⟩
  | _, _ => none

/-- Reads the names of the numbers that have no digits, in any letter case. -/
def special? (cs : List Char) : Option Binary64 :=
  let (negative, rest) := signed cs
  let name := rest.map Char.toLower
  if name = "inf".toList ∨ name = "infinity".toList then some (.infinite negative)
  else if name = "nan".toList then some .nan
  else none

/-- The least number with more digits than are written. -/
def leastTooLong : Nat := Nat.pow 10 maxWholeDigits

/-- A whole number has more digits than are written. -/
structure TooManyDigits where
  deriving DecidableEq, Repr

def TooManyDigits.message (_ : TooManyDigits) : String :=
  "Exceeds the limit (" ++ toString maxWholeDigits ++
    " digits) for integer string conversion; use sys.set_int_max_str_digits() to increase the limit"

/-- Writes a whole number. -/
def write (n : Int) : Except TooManyDigits String :=
  if n.natAbs < leastTooLong then .ok (toString n) else .error {}

end TableQuery.Numeral

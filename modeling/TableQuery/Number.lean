import TableQuery.Number.Numeral

/-!
# Numbers

A number is a whole number or a binary64 number. The two kinds are compared by
the values they stand for, never by rounding one to the other, so that all
numbers other than the value that is not a number lie in one order.
-/

namespace TableQuery

/-- A number as it is read from a text. -/
inductive Number where
  | whole (n : Int)
  | binary (x : Binary64)
  deriving DecidableEq, Repr

/-- A rational number or one of the two ends of their line. -/
inductive ExtendedRat where
  | bottom
  | rational (q : Rat)
  | top
  deriving DecidableEq

namespace ExtendedRat

/-- The strict order of the line, with its ends. -/
def lt : ExtendedRat → ExtendedRat → Prop
  | .rational p, .rational q => p < q
  | .bottom, .bottom => False
  | .bottom, _ => True
  | .rational _, .top => True
  | _, _ => False

instance : LT ExtendedRat := ⟨lt⟩

instance (x y : ExtendedRat) : Decidable (x < y) :=
  match x, y with
  | .rational p, .rational q => inferInstanceAs (Decidable (p < q))
  | .bottom, .bottom => isFalse id
  | .bottom, .rational _ => isTrue trivial
  | .bottom, .top => isTrue trivial
  | .rational _, .bottom => isFalse id
  | .rational _, .top => isTrue trivial
  | .top, .bottom => isFalse id
  | .top, .rational _ => isFalse id
  | .top, .top => isFalse id

end ExtendedRat

/-- The value of a binary64 number; none for the one that is not a number. -/
def Binary64.value? : Binary64 → Option ExtendedRat
  | .finite negative significand exponent => some (.rational (ratio negative significand exponent))
  | .infinite true => some .bottom
  | .infinite false => some .top
  | .nan => none

namespace Number

/-- The value of a number; none for the one that is not a number. -/
def value? : Number → Option ExtendedRat
  | .whole n => some (.rational n)
  | .binary x => x.value?

/-- Reads a number: a whole one if the text writes one, else a decimal one,
else one of the names. -/
def read? (s : String) : Option Number :=
  let body := Numeral.body s.toList
  match Numeral.whole? body with
  | some n => some (.whole n)
  | none =>
    match Numeral.decimal? body with
    | some x => some (.binary x.toBinary64)
    | none => (Numeral.special? body).map .binary

/-- Whether the first of two numbers is the smaller one; false if either is
not a number. -/
def isLess (a b : Number) : Bool :=
  match a.value?, b.value? with
  | some x, some y => decide (x < y)
  | _, _ => false

/-- Whether two numbers have one value; false if either is not a number. -/
def isSame (a b : Number) : Bool :=
  match a.value?, b.value? with
  | some x, some y => decide (x = y)
  | _, _ => false

end Number

end TableQuery

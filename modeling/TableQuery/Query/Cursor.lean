import TableQuery.Query.Token

/-!
# Reading tokens one at a time

A cursor stands in a text and hands out its tokens one after another. It can be
given one text after another; positions start anew with each, while the lines
are counted through all of them. At text that begins no token the cursor stays
where it is, so that asking again gives the same answer.
-/

namespace TableQuery

/-- A place in a text: the line, and, once there is a text, what is left of it
and the number of characters in front of that. -/
structure Cursor where
  line : Nat := 1
  position : Nat := 0
  rest : Option (List Char) := none
  deriving DecidableEq, Repr

namespace Cursor

/-- Why a cursor has no token to give, other than at the end of its text. -/
inductive Error where
  | noText
  | unterminatedString (position : Nat)
  deriving DecidableEq, Repr

def Error.message : Error → String
  | .noText => "No input string given with input()"
  | .unterminatedString position => "Unterminated string at position " ++ toString position

/-- Puts the cursor at the start of a text. -/
def enter (c : Cursor) (text : String) : Cursor :=
  { c with position := 0, rest := some text.toList }

/-- Takes the next token; there is none at the end of the text. The gap in
front of it is passed in any case, and its line ends are counted. -/
def next (c : Cursor) : Except Error (Option Token) × Cursor :=
  match c.rest with
  | none => (.error .noText, c)
  | some cs =>
    let gap := cs.takeWhile Lexeme.isGap
    let behind := cs.dropWhile Lexeme.isGap
    let line := c.line + gap.count '\n'
    let position := c.position + gap.length
    let passed : Cursor := ⟨line, position, some behind⟩
    match Lexeme.first? behind with
    | some (lexeme, rest) =>
      (.ok (some ⟨lexeme.kind, String.ofList lexeme.value, line, position⟩),
        ⟨line, position + lexeme.raw.length, some rest⟩)
    | none =>
      if behind.isEmpty then (.ok none, passed)
      else (.error (.unterminatedString position), passed)

/-- The number of characters that are left. -/
def remaining (c : Cursor) : Nat :=
  (c.rest.getD []).length

theorem remaining_next_lt {c after : Cursor} {t : Token} (h : c.next = (.ok (some t), after)) :
    after.remaining < c.remaining := by
  unfold next at h
  split at h
  · cases h
  · next cs hcs =>
    simp only at h
    split at h
    · next lexeme rest hfirst =>
      simp only [Prod.mk.injEq] at h
      have hlt := Lexeme.length_lt_of_first? hfirst
      have hle : (cs.dropWhile Lexeme.isGap).length ≤ cs.length :=
        (List.dropWhile_sublist _).length_le
      simp only [← h.2, remaining, hcs, Option.getD_some]
      omega
    · split at h <;> cases h

/-- Takes all further tokens, in front of which stand the given ones, the last
one first. -/
def drainAfter (taken : List Token) (c : Cursor) : Except Error (List Token) × Cursor :=
  match _h : c.next with
  | (.error e, after) => (.error e, after)
  | (.ok none, after) => (.ok taken.reverse, after)
  | (.ok (some t), after) => drainAfter (t :: taken) after
termination_by c.remaining
decreasing_by exact remaining_next_lt _h

/-- Takes all tokens of a text. -/
def tokens (c : Cursor) (text : String) : Except Error (List Token) × Cursor :=
  drainAfter [] (c.enter text)

end Cursor

end TableQuery

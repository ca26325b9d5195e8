import TableQuery.Text.Blank

/-!
# Tokens of a query text

A query written as one text falls into words, quoted strings and parentheses.
A string stands between single quotes, which nothing escapes, or between double
quotes, where a backslash takes the next character as it is; a line feed cannot
be taken so. White space that separates tokens is the space, the tab and the two
line ends.

`Lexeme.first?` takes one token off the front of a text. It loses nothing of the
text (`append_of_first?`), so that reading on always comes nearer to the end.
-/

namespace TableQuery

namespace Token

/-- The kinds of token. -/
inductive Kind where
  | string
  | word
  | opening
  | closing
  deriving DecidableEq, Repr

end Token

/-- A token: its kind, the text it stands for, the number of its line, and the
number of characters in front of it. -/
structure Token where
  kind : Token.Kind
  value : String
  line : Nat
  position : Nat
  deriving DecidableEq, Repr

/-- A token as it is written: its kind, what it stands for, and its characters. -/
structure Lexeme where
  kind : Token.Kind
  value : List Char
  raw : List Char
  deriving DecidableEq, Repr

namespace Lexeme

/-- White space between tokens. -/
def isGap (c : Char) : Bool :=
  c == ' ' || c == '\t' || c == '\r' || c == '\n'

/-- A character that can be part of a word. -/
def isWordChar (c : Char) : Bool :=
  !Text.isBlank c && c != '(' && c != ')' && c != '\x22' && c != '\x27'

/-- The characters up to the double quote that closes a string, behind those
already seen, which come last one first, and what follows the quote. -/
def closeDouble (seen : List Char) : List Char → Option (List Char × List Char)
  | [] => none
  | c :: rest =>
    if c = '\x22' then some (seen.reverse, rest)
    else if c = '\\' then
      match rest with
      | [] => none
      | d :: rest => if d = '\n' then none else closeDouble (d :: c :: seen) rest
    else closeDouble (c :: seen) rest

/-- The characters up to the single quote that closes a string, and what
follows the quote. -/
def closeSingle (cs : List Char) : Option (List Char × List Char) :=
  match cs.dropWhile (· != '\x27') with
  | [] => none
  | _ :: rest => some (cs.takeWhile (· != '\x27'), rest)

/-- A text without the backslashes that take the next character as it is. -/
def unescape : List Char → List Char
  | [] => []
  | [c] => [c]
  | c :: d :: rest => if c = '\\' then d :: unescape rest else c :: unescape (d :: rest)

/-- The token that a text begins with, and the text behind it. There is none in
front of a quote that nothing closes or of white space that is no gap. -/
def first? : List Char → Option (Lexeme × List Char)
  | [] => none
  | c :: rest =>
    if c = '(' then some (⟨.opening, [c], [c]⟩, rest)
    else if c = ')' then some (⟨.closing, [c], [c]⟩, rest)
    else if c = '\x22' then
      (closeDouble [] rest).map fun (body, rest) =>
        (⟨.string, unescape body, c :: body ++ [c]⟩, rest)
    else if c = '\x27' then
      (closeSingle rest).map fun (body, rest) => (⟨.string, body, c :: body ++ [c]⟩, rest)
    else if isWordChar c then
      let word := c :: rest.takeWhile isWordChar
      some (⟨.word, word, word⟩, rest.dropWhile isWordChar)
    else none

theorem append_of_closeDouble {seen cs body rest : List Char}
    (h : closeDouble seen cs = some (body, rest)) :
    seen.reverse ++ cs = body ++ '\x22' :: rest := by
  fun_induction closeDouble seen cs with
  | case1 => cases h
  | case2 seen tail => cases h; rfl
  | case3 => cases h
  | case4 => cases h
  | case5 seen _ d tail _ ih => simpa using ih h
  | case6 seen c tail _ _ ih => simpa using ih h

theorem append_of_closeSingle {cs body rest : List Char}
    (h : closeSingle cs = some (body, rest)) : cs = body ++ '\x27' :: rest := by
  unfold closeSingle at h
  split at h
  · cases h
  · next c tail hdrop =>
    cases h
    have hc : c = '\x27' := by
      have := List.head?_dropWhile_not (· != '\x27') cs
      rw [hdrop] at this
      simpa using this
    rw [← hc] at hdrop ⊢
    rw [← hdrop, hc, List.takeWhile_append_dropWhile]

theorem append_of_first? {cs rest : List Char} {l : Lexeme} (h : first? cs = some (l, rest)) :
    cs = l.raw ++ rest := by
  match cs with
  | [] => cases h
  | c :: tail =>
    rw [first?] at h
    split at h
    · cases h; rfl
    split at h
    · cases h; rfl
    split at h
    · next hc =>
      obtain ⟨⟨body, r⟩, hclose, heq⟩ := Option.map_eq_some_iff.1 h
      cases heq
      simpa [hc] using append_of_closeDouble hclose
    split at h
    · next hc =>
      obtain ⟨⟨body, r⟩, hclose, heq⟩ := Option.map_eq_some_iff.1 h
      cases heq
      simpa [hc] using append_of_closeSingle hclose
    split at h
    · cases h
      simp [List.takeWhile_append_dropWhile]
    · cases h

theorem raw_ne_nil_of_first? {cs rest : List Char} {l : Lexeme}
    (h : first? cs = some (l, rest)) : l.raw ≠ [] := by
  match cs with
  | [] => cases h
  | c :: tail =>
    rw [first?] at h
    split at h
    · cases h; simp
    split at h
    · cases h; simp
    split at h
    · obtain ⟨_, -, heq⟩ := Option.map_eq_some_iff.1 h
      cases heq; simp
    split at h
    · obtain ⟨_, -, heq⟩ := Option.map_eq_some_iff.1 h
      cases heq; simp
    split at h
    · cases h; simp
    · cases h

theorem length_lt_of_first? {cs rest : List Char} {l : Lexeme}
    (h : first? cs = some (l, rest)) : rest.length < cs.length := by
  have := List.length_pos_iff.2 (raw_ne_nil_of_first? h)
  rw [append_of_first? h, List.length_append]
  omega

end Lexeme

end TableQuery

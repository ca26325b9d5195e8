import TableQuery.Proofs.TokenTiling

/-!
# Words spelled out in a text

A word can be written into a query text in several ways: bare, when it looks
like a word; between single quotes, when it holds none; between double quotes
always, a backslash in front of each double quote and each backslash. Reading
the text gives the words back and forgets which way was taken.

`Spelling` is the list of these ways for one word, `Spelled` for a whole text
with the gaps between words. The only thing that can go wrong is that a bare
word runs on into what follows it, which is what `Apart` excludes. Each way is
a form that tokens have (`Spelling.exists_regular`), so that the reader's way
with one word is known; the rest is bookkeeping over the cursor.
-/

namespace TableQuery

namespace Lexeme

/-- A text with a backslash in front of each double quote and backslash. -/
def escape : List Char → List Char
  | [] => []
  | c :: cs =>
    if c = '\x22' ∨ c = '\\' then '\\' :: c :: escape cs else c :: escape cs

/-- The ways to write a word. -/
inductive Spelling : List Char → List Char → Prop
  | bare {word : List Char} : word ≠ [] →
      (∀ c ∈ word, isWordChar c = true) → Spelling word word
  | opening : Spelling ['('] ['(']
  | closing : Spelling [')'] [')']
  | single {word : List Char} : '\x27' ∉ word →
      Spelling word ('\x27' :: word ++ ['\x27'])
  | double (word : List Char) :
      Spelling word ('\x22' :: escape word ++ ['\x22'])

/-- What is written of a word does not run on into what follows. -/
def Apart (raw rest : List Char) : Prop :=
  (∀ c ∈ raw.getLast?, isWordChar c = true) → Stops isWordChar rest

/-- The ways to write words into a text, with gaps around them. -/
inductive Spelled : List String → List Char → Prop
  | nil {gap : List Char} : (∀ c ∈ gap, isGap c = true) → Spelled [] gap
  | cons {gap raw rest : List Char} {word : String} {words : List String} :
      (∀ c ∈ gap, isGap c = true) → Spelling word.toList raw →
      Apart raw rest → Spelled words rest →
      Spelled (word :: words) (gap ++ (raw ++ rest))

/-! ## One word -/

theorem escaped_escape (word : List Char) : Escaped (escape word) word := by
  induction word with
  | nil => exact .nil
  | cons c word ih =>
      rw [escape]
      split
      · next hc =>
          -- A backslash takes anything but a line feed, which is never escaped.
          have hne : c ≠ '\n' := by
            rintro rfl
            revert hc
            decide
          exact .pair hne ih
      · next hc =>
          rw [not_or] at hc
          exact .plain hc.1 hc.2 ih

theorem Spelling.exists_regular {word raw : List Char}
    (h : Spelling word raw) : ∃ kind, Regular ⟨kind, word, raw⟩ := by
  cases h with
  | bare hne hword => exact ⟨.word, .word hne hword⟩
  | opening => exact ⟨.opening, .opening⟩
  | closing => exact ⟨.closing, .closing⟩
  | single hword => exact ⟨.string, .single hword⟩
  | double word => exact ⟨.string, .double (escaped_escape word)⟩

end Lexeme

/-! ## A whole text -/

/-- A text that spells words is taken apart into tokens that stand for them. -/
theorem Lexeme.Spelled.exists_tiling {words : List String} {cs : List Char}
    (h : Spelled words cs) :
    ∃ t : Tiling isGap, cs = t.text ∧
      t.tiles.map (fun tile => String.ofList tile.lexeme.value) = words := by
  induction h with
  | nil hgap => exact ⟨⟨[], _, List.all_eq_true.2 hgap, .nil⟩, rfl, rfl⟩
  | @cons gap raw rest word words hgap hraw hrest _ ih =>
      obtain ⟨t, htext, hwords⟩ := ih
      obtain ⟨kind, hregular⟩ := hraw.exists_regular
      let first : Tile isGap :=
        ⟨gap, ⟨kind, word.toList, raw⟩, List.all_eq_true.2 hgap, hregular⟩
      have hstops : kind = .word → Stops isWordChar t.text := by
        intro hkind
        rw [← htext]
        exact hrest fun d hd =>
          hregular.isWordChar_of_word hkind d (List.mem_of_getLast? hd)
      rw [← List.append_nil t.text] at hstops
      have hfollow : ∀ second ∈ t.tiles.head?, first.MayFollow second :=
        Tiling.mayFollow_of_stops hstops
      refine ⟨.cons first t hfollow, ?_, ?_⟩
      · rw [Tiling.text_cons, ← htext]
      · rw [Tiling.cons, List.map_cons, hwords, String.ofList_toList]

namespace Cursor

theorem drainAfter_of_spelled {words : List String} {cs : List Char}
    (h : Lexeme.Spelled words cs) {c : Cursor} (hc : c.rest = some cs)
    (taken : List Token) :
    ∃ tokens, (drainAfter taken c).1 = .ok (taken.reverse ++ tokens) ∧
      tokens.map (·.value) = words := by
  obtain ⟨t, htext, hwords⟩ := h.exists_tiling
  rw [htext] at hc
  refine ⟨_, drainAfter_tiling t hc taken, ?_⟩
  rw [Tile.map_value_tokens, hwords]

end Cursor

/-- A text that spells words is the query that the words are. -/
theorem Query.ofText_of_spelled {text : String} {words : List String}
    (h : Lexeme.Spelled words text.toList) :
    Query.ofText text = Query.ofWords words := by
  obtain ⟨tokens, htokens, hwords⟩ :=
    Cursor.drainAfter_of_spelled h (c := ({} : Cursor).enter text) rfl []
  rw [Query.ofText, Cursor.tokens, htokens, ← hwords]
  rfl

end TableQuery

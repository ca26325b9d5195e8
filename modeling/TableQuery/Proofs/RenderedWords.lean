import Mathlib.Data.List.Chain
import TableQuery.Proofs.TextSpelling

/-!
# Reading back what was written

Any list of words can be written into a text, each word in any way that is open
to it and with any gaps. Reading the text gives the words back. A gap may be
missing wherever a parenthesis or a quote already ends what stands in front of
it; only two bare words need one between them (`Written.MayFollow`), since a
word goes on as long as it can.

That is a condition on neighbours, while the reader asks for each word whether
it runs on into all that follows it, which is `Apart`. The two are brought
together in `Written.spelled`: what ends in a character of words is a bare word
(`Spelling.isBare`), and what is not bare does not begin with one
(`Spelling.stops_isWordChar`).
-/

namespace TableQuery

namespace Lexeme

/-- A run of characters of words, which parentheses and quoted words are not. -/
def IsBare (raw : List Char) : Prop :=
  raw ≠ [] ∧ ∀ c ∈ raw, isWordChar c = true

instance (raw : List Char) : Decidable (IsBare raw) :=
  decidable_of_iff (raw ≠ [] ∧ raw.all isWordChar = true)
    (and_congr_right fun _ => List.all_eq_true)

theorem IsBare.spelling {raw : List Char} (h : IsBare raw) : Spelling raw raw :=
  .bare h.1 h.2

/-- A word as it stands in a text, behind a gap. -/
structure Written where
  gap : List Char
  word : String
  raw : List Char
  all_isGap : gap.all isGap = true
  spelling : Spelling word.toList raw

namespace Written

/-- A written word may follow another one: two bare words have a gap between
them. -/
def MayFollow (first second : Written) : Prop :=
  IsBare first.raw → IsBare second.raw → second.gap ≠ []

instance : DecidableRel MayFollow := fun first second =>
  inferInstanceAs
    (Decidable (IsBare first.raw → IsBare second.raw → second.gap ≠ []))

/-- The text of written words, with a gap at its end. -/
def text (written : List Written) (last : List Char) : List Char :=
  written.flatMap (fun w => w.gap ++ w.raw) ++ last

theorem isGap_of_mem (w : Written) : ∀ c ∈ w.gap, isGap c = true :=
  List.all_eq_true.1 w.all_isGap

theorem text_cons (first : Written) (rest : List Written) (last : List Char) :
    text (first :: rest) last = first.gap ++ (first.raw ++ text rest last) := by
  simp only [text, List.flatMap_cons, List.append_assoc]

end Written

theorem Spelling.isBare {word raw : List Char} (h : Spelling word raw)
    (hlast : ∀ c ∈ raw.getLast?, isWordChar c = true) : IsBare raw := by
  cases h with
  | bare hne hword => exact ⟨hne, hword⟩
  | opening => exact absurd (hlast _ rfl) (by decide)
  | closing => exact absurd (hlast _ rfl) (by decide)
  | single _ => exact absurd (hlast _ List.getLast?_concat) (by decide)
  | double _ => exact absurd (hlast _ List.getLast?_concat) (by decide)

theorem Spelling.stops_isWordChar {word raw : List Char}
    (h : Spelling word raw) (hbare : ¬ IsBare raw) (rest : List Char) :
    Stops isWordChar (raw ++ rest) := by
  cases h with
  | bare hne hword => exact absurd ⟨hne, hword⟩ hbare
  | opening | closing | single _ | double _ => exact stops_cons.2 rfl

theorem Written.apart_text {first : Written} {rest : List Written}
    {last : List Char} (hlast : ∀ c ∈ last, isGap c = true)
    (h : ∀ second ∈ rest.head?, first.MayFollow second) :
    Apart first.raw (text rest last) := by
  intro hend
  have hbare := first.spelling.isBare hend
  match rest with
  | [] =>
      intro c hc
      exact isWordChar_of_isGap (hlast c (List.mem_of_head? hc))
  | second :: rest =>
      rw [text_cons]
      by_cases hgap : second.gap = []
      · have hnot : ¬ IsBare second.raw := fun hsecond =>
          h second rfl hbare hsecond hgap
        rw [hgap, List.nil_append]
        exact second.spelling.stops_isWordChar hnot _
      · exact stops_append
          (fun c hc => isWordChar_of_isGap (second.isGap_of_mem c hc)) hgap _

theorem Written.spelled {written : List Written} {last : List Char}
    (hlast : ∀ c ∈ last, isGap c = true)
    (h : written.IsChain MayFollow) :
    Spelled (written.map (·.word)) (text written last) := by
  induction written with
  | nil => exact .nil hlast
  | cons first rest ih =>
      obtain ⟨hhead, hrest⟩ := List.isChain_cons.1 h
      rw [List.map_cons, text_cons]
      exact .cons first.isGap_of_mem first.spelling (apart_text hlast hhead)
        (ih hrest)

end Lexeme

namespace Query

open Lexeme (Written IsBare)

/-- Words that are written into a text, each in some way and with a gap at least
between any two bare ones, are what the text falls into. So the text is read as
the words are, be it to a query or to the same complaint, and whatever texts the
cursor has been through before. -/
theorem written_words_are_read {written : List Written} {last : List Char}
    (hlast : ∀ c ∈ last, Lexeme.isGap c = true)
    (h : written.IsChain Written.MayFollow) (c : Cursor) :
    (c.tokens (String.ofList (Written.text written last))).1.map
        (·.map (·.value)) = .ok (written.map (·.word)) ∧
      (readText c (String.ofList (Written.text written last))).1 =
        ofWords (written.map (·.word)) := by
  have hspelled : Lexeme.Spelled (written.map (·.word))
      (String.ofList (Written.text written last)).toList := by
    rw [String.toList_ofList]
    exact Written.spelled hlast h
  obtain ⟨tokens, htokens, hwords⟩ := Cursor.drainAfter_of_spelled hspelled
    (c := c.enter (String.ofList (Written.text written last))) rfl []
  have hvalues : (c.tokens (String.ofList (Written.text written last))).1.map
      (·.map (·.value)) = .ok (written.map (·.word)) := by
    rw [Cursor.tokens, htokens, ← hwords]
    rfl
  refine ⟨hvalues, ?_⟩
  rw [readText_fst, hvalues]
  rfl

/-- The words of a query, written with as few gaps as can be. -/
def tightWords : List Written :=
  [⟨['\n'], "select", "select".toList, by decide, IsBare.spelling (by decide)⟩,
    ⟨[' ', '\t'], "a", ['a'], by decide, IsBare.spelling (by decide)⟩,
    ⟨[], "from", "\x22from\x22".toList, by decide, .double _⟩,
    ⟨[], "T", ['T'], by decide, IsBare.spelling (by decide)⟩,
    ⟨[], "where", "\x27where\x27".toList, by decide, .single (by decide)⟩,
    ⟨[], "(", ['('], by decide, .opening⟩,
    ⟨[], "it's", "\x22it's\x22".toList, by decide, .double _⟩,
    ⟨[], "=", ['='], by decide, IsBare.spelling (by decide)⟩,
    ⟨[], "\n\x22\\", "\x22\n\\\x22\\\\\x22".toList, by decide, .double _⟩,
    ⟨[], ")", [')'], by decide, .closing⟩]

theorem tightWords_are_read :
    tightWords.IsChain Written.MayFollow ∧
    ofText "\nselect \ta\x22from\x22T'where'(\x22it's\x22=\x22\n\\\x22\\\\\x22)\r\n" =
      .ok ⟨["a"], "T", ["(", "it's", "=", "\n\x22\\", ")"]⟩ := by
  have hchain : tightWords.IsChain Written.MayFollow := by decide
  have hlast : ∀ c ∈ ['\r', '\n'], Lexeme.isGap c = true :=
    List.all_eq_true.1 (by decide)
  refine ⟨hchain, ?_⟩
  have hread := (written_words_are_read hlast hchain {}).2
  exact hread

end Query

end TableQuery

import TableQuery.Proofs.TokenTiling

/-!
# Escaping more than is needed

Between double quotes a backslash has to stand in front of each double quote and
each backslash, and may stand in front of other characters as well. Undoing it
leaves all of them as they are. Only a line feed cannot be taken so: the string
then has no end, and the text is refused at its opening quote.

The reader finds the end of a string first and undoes the backslashes later. The
two agree on what a pair is, because an escaped text is `Escaped` in the sense
of the forms of tokens, and both go by that.
-/

namespace TableQuery

namespace Lexeme

/-- A text with a backslash in front of each character whose index is chosen. -/
def escapeAt (chosen : Nat → Bool) : List Char → List Char
  | [] => []
  | c :: cs =>
    if chosen 0 then '\\' :: c :: escapeAt (fun i => chosen (i + 1)) cs
    else c :: escapeAt (fun i => chosen (i + 1)) cs

/-- Each double quote and each backslash of a text is chosen. -/
def CoversQuotes (chosen : Nat → Bool) (cs : List Char) : Prop :=
  ∀ i c, cs[i]? = some c → c = '\x22' ∨ c = '\\' → chosen i = true

/-- A line feed of a text is chosen. -/
def TakesFeed (chosen : Nat → Bool) (cs : List Char) : Prop :=
  ∃ i, cs[i]? = some '\n' ∧ chosen i = true

section

variable {chosen : Nat → Bool} {c : Char} {cs : List Char}

theorem CoversQuotes.tail (h : CoversQuotes chosen (c :: cs)) :
    CoversQuotes (fun i => chosen (i + 1)) cs :=
  fun i => h (i + 1)

/-- A character in front of which there is no backslash is a plain one. -/
theorem CoversQuotes.plain (h : CoversQuotes chosen (c :: cs))
    (hchosen : chosen 0 = false) : c ≠ '\x22' ∧ c ≠ '\\' := by
  constructor
  · intro hc
    rw [h 0 c rfl (.inl hc)] at hchosen
    cases hchosen
  · intro hc
    rw [h 0 c rfl (.inr hc)] at hchosen
    cases hchosen

theorem takesFeed_cons :
    TakesFeed chosen (c :: cs) ↔
      c = '\n' ∧ chosen 0 = true ∨ TakesFeed (fun i => chosen (i + 1)) cs := by
  constructor
  · rintro ⟨i, hi, hchosen⟩
    match i with
    | 0 => exact .inl ⟨Option.some.inj hi, hchosen⟩
    | i + 1 => exact .inr ⟨i, hi, hchosen⟩
  · rintro (⟨rfl, hchosen⟩ | ⟨i, hi, hchosen⟩)
    · exact ⟨0, rfl, hchosen⟩
    · exact ⟨i + 1, hi, hchosen⟩

theorem escaped_escapeAt (h : CoversQuotes chosen cs)
    (hfeed : ¬ TakesFeed chosen cs) : Escaped (escapeAt chosen cs) cs := by
  induction cs generalizing chosen with
  | nil => exact .nil
  | cons c cs ih =>
      rw [takesFeed_cons, not_or] at hfeed
      have hrest := ih h.tail hfeed.2
      rw [escapeAt]
      split
      · next hchosen =>
          exact .pair (fun hc => hfeed.1 ⟨hc, hchosen⟩) hrest
      · next hchosen =>
          obtain ⟨hquote, hbackslash⟩ := h.plain (Bool.not_eq_true _ ▸ hchosen)
          exact .plain hquote hbackslash hrest

theorem closeDouble_feed (seen rest : List Char) :
    closeDouble seen ('\\' :: '\n' :: rest) = none := by
  rw [closeDouble, if_neg (by decide), if_pos rfl, if_pos rfl]

/-- Where a backslash takes a line feed, the string is not closed. -/
theorem closeDouble_escapeAt (h : CoversQuotes chosen cs)
    (hfeed : TakesFeed chosen cs) (seen rest : List Char) :
    closeDouble seen (escapeAt chosen cs ++ rest) = none := by
  induction cs generalizing chosen seen with
  | nil =>
      obtain ⟨i, hi, -⟩ := hfeed
      cases hi
  | cons c cs ih =>
      rw [takesFeed_cons] at hfeed
      rw [escapeAt]
      split
      · next hchosen =>
          rw [List.cons_append, List.cons_append]
          by_cases hc : c = '\n'
          · rw [hc, closeDouble_feed]
          · have hrest := hfeed.resolve_left fun hfirst => hc hfirst.1
            rw [closeDouble_pair hc, ih h.tail hrest]
      · next hchosen =>
          have hrest := hfeed.resolve_left fun hfirst => hchosen hfirst.2
          obtain ⟨hquote, hbackslash⟩ := h.plain (Bool.not_eq_true _ ▸ hchosen)
          rw [List.cons_append, closeDouble_plain hquote hbackslash,
            ih h.tail hrest]

/-- A text between double quotes, with a backslash in front of each character
whose index is chosen. -/
def escapedText (chosen : Nat → Bool) (s : String) : String :=
  String.ofList ('\x22' :: escapeAt chosen s.toList ++ ['\x22'])

theorem stuck_escapedText {s : String} (h : CoversQuotes chosen s.toList)
    (hfeed : TakesFeed chosen s.toList) :
    Stuck (escapedText chosen s).toList := by
  rw [escapedText, String.toList_ofList, List.cons_append]
  apply stuck_of_first?_eq_none
  · rw [first?, if_neg (by decide), if_neg (by decide), if_pos rfl,
      closeDouble_escapeAt h hfeed]
    rfl
  · exact stops_cons.2 rfl
  · exact List.cons_ne_nil _ _

end

end Lexeme

namespace Cursor

open Lexeme

/-- Whatever characters of a text have a backslash in front of them, quotes and
backslashes among them, between double quotes it is one token and stands for
itself, if no backslash takes a line feed. If one does, the quote in front is
never closed. -/
theorem escaped_text_is_one_token (c : Cursor) {s : String}
    {chosen : Nat → Bool} (h : CoversQuotes chosen s.toList) :
    (¬ TakesFeed chosen s.toList →
      (c.tokens (escapedText chosen s)).1 = .ok [⟨.string, s, c.line, 0⟩]) ∧
    (TakesFeed chosen s.toList →
      (c.tokens (escapedText chosen s)).1 =
        .error (.unterminatedString 0)) := by
  constructor
  · intro hfeed
    let tile : Tile isGap :=
      ⟨[], _, rfl, .double (escaped_escapeAt h hfeed)⟩
    let tiling : Tiling isGap := ⟨[tile], [], rfl, .singleton _⟩
    have htext : (escapedText chosen s).toList = tiling.text := by
      rw [escapedText, String.toList_ofList, Tiling.text, Tile.text_cons,
        Tile.text_nil, List.append_nil]
      rfl
    have htokens : tiling.tokens c.line = [⟨.string, s, c.line, 0⟩] := by
      rw [← String.ofList_toList (s := s)]
      rfl
    rw [tokens_of_tiling c tiling htext, htokens]
  · intro hfeed
    exact tokens_of_stuck_start c (stuck_escapedText h hfeed)

/-- A line feed, a double quote, a letter, a backslash and another letter. All
but the line feed are escaped. -/
theorem escaped_letters_are_kept :
    CoversQuotes (· != 0) "\n\x22é\\n".toList ∧
    ¬ TakesFeed (· != 0) "\n\x22é\\n".toList ∧
    escapedText (· != 0) "\n\x22é\\n" = "\x22\n\\\x22\\é\\\\\\n\x22" ∧
    (({} : Cursor).tokens "\x22\n\\\x22\\é\\\\\\n\x22").1 =
      .ok [⟨.string, "\n\x22é\\n", 1, 0⟩] := by
  have hquotes : CoversQuotes (· != 0) "\n\x22é\\n".toList := by
    intro i c hi hc
    match i with
    | 0 =>
        injection hi with hi
        subst hi
        rcases hc with hc | hc <;> cases hc
    | i + 1 => rfl
  have hfeed : ¬ TakesFeed (· != 0) "\n\x22é\\n".toList := by
    rintro ⟨i, hi, hchosen⟩
    match i with
    | 0 => cases hchosen
    | 1 | 2 | 3 | 4 => cases hi
    | i + 5 => cases hi
  have htext : escapedText (· != 0) "\n\x22é\\n" =
      "\x22\n\\\x22\\é\\\\\\n\x22" := by decide
  have htoken := (escaped_text_is_one_token {} hquotes).1 hfeed
  rw [htext] at htoken
  exact ⟨hquotes, hfeed, htext, htoken⟩

/-- A line feed with a backslash in front of it is no string. -/
theorem escaped_line_feed_is_refused :
    CoversQuotes (fun _ => true) "\n".toList ∧
    escapedText (fun _ => true) "\n" = "\x22\\\n\x22" ∧
    (({} : Cursor).tokens "\x22\\\n\x22").1 =
      .error (.unterminatedString 0) := by
  have hquotes : CoversQuotes (fun _ => true) "\n".toList :=
    fun _ _ _ _ => rfl
  have hfeed : TakesFeed (fun _ => true) "\n".toList := ⟨0, rfl, rfl⟩
  have htext : escapedText (fun _ => true) "\n" = "\x22\\\n\x22" := by decide
  have hstuck := stuck_escapedText hquotes hfeed
  rw [htext] at hstuck
  exact ⟨hquotes, htext, tokens_of_stuck_start {} hstuck⟩

end Cursor

end TableQuery

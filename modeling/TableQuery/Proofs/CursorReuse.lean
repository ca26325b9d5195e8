import TableQuery.Query.Basic

/-!
# A cursor that has read before

A cursor may be given any number of texts, and reading can stop in the middle
of one. Of all that only the count of lines is left when the next text is
entered: `enter` sets the position and the rest, and from then on two cursors
take the same step wherever they have the same ahead of them (`SameAhead.next`).
The tokens they hand out differ in nothing but the numbers of their lines.

Whatever a query text says is said by the values of its tokens. So it is read
in the same way by every cursor (`Query.readText_eq`).
-/

namespace TableQuery

/-- A token without the number of its line. -/
def Token.unlined (t : Token) : Token :=
  { t with line := 0 }

namespace Cursor

theorem drainAfter_of_token {c after : Cursor} {token : Token}
    (h : c.next = (.ok (some token), after)) (taken : List Token) :
    drainAfter taken c = drainAfter (token :: taken) after := by
  -- The match keeps an equation for the recursion to end, so that `h` cannot
  -- be rewritten under it.
  rw [drainAfter]
  split
  · next heq => rw [h] at heq; cases heq
  · next heq => rw [h] at heq; cases heq
  · next heq => rw [h] at heq; cases heq; rfl

theorem drainAfter_of_end {c after : Cursor}
    (h : c.next = (.ok none, after)) (taken : List Token) :
    drainAfter taken c = (.ok taken.reverse, after) := by
  rw [drainAfter]
  split
  · next heq => rw [h] at heq; cases heq
  · next heq => rw [h] at heq; cases heq; rfl
  · next heq => rw [h] at heq; cases heq

theorem drainAfter_of_error {c after : Cursor} {e : Error}
    (h : c.next = (.error e, after)) (taken : List Token) :
    drainAfter taken c = (.error e, after) := by
  rw [drainAfter]
  split
  · next heq => rw [h] at heq; cases heq; rfl
  · next heq => rw [h] at heq; cases heq
  · next heq => rw [h] at heq; cases heq

/-- Two cursors have the same ahead of them, whatever lines they count. -/
structure SameAhead (c d : Cursor) : Prop where
  position_eq : c.position = d.position
  rest_eq : c.rest = d.rest

theorem sameAhead_enter (c d : Cursor) (text : String) :
    (c.enter text).SameAhead (d.enter text) :=
  ⟨rfl, rfl⟩

/-- One step: what comes of it is the same but for the line, and so is what is
ahead of the two cursors behind it. -/
theorem SameAhead.next {c d : Cursor} (h : c.SameAhead d) :
    c.next.1.map (·.map Token.unlined) = d.next.1.map (·.map Token.unlined) ∧
      c.next.2.SameAhead d.next.2 := by
  unfold Cursor.next
  rw [h.rest_eq, h.position_eq]
  cases hrest : d.rest with
  | none => exact ⟨rfl, h⟩
  | some cs =>
      dsimp only
      cases Lexeme.first? (cs.dropWhile Lexeme.isGap) with
      | some found => exact ⟨rfl, rfl, rfl⟩
      | none =>
          dsimp only
          split
          · exact ⟨rfl, rfl, rfl⟩
          · exact ⟨rfl, rfl, rfl⟩

/-- All the steps to the end of the text. -/
theorem SameAhead.drainAfter {c d : Cursor} (h : c.SameAhead d)
    {taken taken' : List Token}
    (htaken : taken.map Token.unlined = taken'.map Token.unlined) :
    (Cursor.drainAfter taken c).1.map (·.map Token.unlined) =
        (Cursor.drainAfter taken' d).1.map (·.map Token.unlined) ∧
      (Cursor.drainAfter taken c).2.SameAhead
        (Cursor.drainAfter taken' d).2 := by
  -- The second cursor steps along with the first one, which ends the recursion.
  fun_induction Cursor.drainAfter taken c generalizing d taken' with
  | case1 taken c e after hnext =>
      obtain ⟨hout, hafter⟩ := h.next
      rw [hnext] at hout hafter
      match hd : d.next with
      | (.error e', after') =>
          rw [hd] at hout hafter
          rw [drainAfter_of_error hd]
          exact ⟨by simpa [Except.map] using hout, hafter⟩
      | (.ok _, _) => rw [hd] at hout; cases hout
  | case2 taken c after hnext =>
      obtain ⟨hout, hafter⟩ := h.next
      rw [hnext] at hout hafter
      match hd : d.next with
      | (.error _, _) => rw [hd] at hout; cases hout
      | (.ok none, after') =>
          rw [hd] at hafter
          rw [drainAfter_of_end hd]
          refine ⟨?_, hafter⟩
          simp only [Except.map, List.map_reverse, htaken]
      | (.ok (some _), _) => rw [hd] at hout; cases hout
  | case3 taken c token after hnext ih =>
      obtain ⟨hout, hafter⟩ := h.next
      rw [hnext] at hout hafter
      match hd : d.next with
      | (.error _, _) => rw [hd] at hout; cases hout
      | (.ok none, _) => rw [hd] at hout; cases hout
      | (.ok (some token'), after') =>
          rw [hd] at hout hafter
          rw [drainAfter_of_token hd]
          refine ih hafter ?_
          have htoken : token.unlined = token'.unlined := by
            simpa [Except.map] using hout
          rw [List.map_cons, List.map_cons, htoken, htaken]

theorem map_value_unlined (outcome : Except Error (List Token)) :
    (outcome.map (·.map Token.unlined)).map (·.map (·.value)) =
      outcome.map (·.map (·.value)) := by
  cases outcome with
  | error e => rfl
  | ok tokens => exact congrArg Except.ok List.map_map

/-- What the tokens of a text stand for, and whether there is an error in it,
does not depend on the cursor. -/
theorem values_tokens_eq (c d : Cursor) (text : String) :
    (c.tokens text).1.map (·.map (·.value)) =
      (d.tokens text).1.map (·.map (·.value)) := by
  have hsame : (c.tokens text).1.map (·.map Token.unlined) =
      (d.tokens text).1.map (·.map Token.unlined) :=
    ((sameAhead_enter c d text).drainAfter rfl).1
  rw [← map_value_unlined, hsame, map_value_unlined]

end Cursor

namespace Query

/-- What is made of the tokens of a text is made of their values. -/
theorem readText_fst (c : Cursor) (text : String) :
    (readText c text).1 =
      (((c.tokens text).1.map (·.map (·.value))).mapError .text >>= ofWords) := by
  rw [readText]
  obtain ⟨outcome, after⟩ := c.tokens text
  cases outcome with
  | error e => rfl
  | ok tokens => rfl

/-- A cursor that has been through other texts reads a text like a new one. -/
theorem readText_eq (c : Cursor) (text : String) :
    (readText c text).1 = ofText text := by
  have hnew : ofText text = (readText {} text).1 := rfl
  rw [hnew, readText_fst, readText_fst, Cursor.values_tokens_eq c {} text]

end Query

end TableQuery

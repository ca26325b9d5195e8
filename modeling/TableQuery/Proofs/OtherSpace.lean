import TableQuery.Proofs.TokenTiling

/-!
# White space of other kinds

Words end at any white space, but only spaces, tabs and line ends are passed
over between tokens. So a text whose tokens stand apart by white space of all
kinds is not always taken apart: reading gets stuck at the first character
between tokens that is of another kind, such as a no-break space, and complains
of a string there (`reading_stops_at_other_space`). Without such a character the
tokens are those that are written.
-/

namespace TableQuery

open Lexeme

namespace Tile

variable {p : Char → Bool}

/-- The characters around the tokens of a text, with their positions. -/
def spaces (position : Nat) (last : List Char) :
    List (Tile p) → List (Char × Nat)
  | [] => last.zipIdx position
  | t :: ts =>
    t.gap.zipIdx position ++
      spaces (position + t.gap.length + t.lexeme.raw.length) last ts

end Tile

/-- The position of the first character between the tokens of a text that is
not passed over. -/
def Tiling.other? {p : Char → Bool} (t : Tiling p) : Option Nat :=
  ((Tile.spaces 0 t.last t.tiles).find? fun entry => !isGap entry.1).map (·.2)

namespace Lexeme

/-- White space is passed over to its end or to a character of another kind. -/
theorem find?_zipIdx_spaces (space : List Char) (position : Nat) :
    ((∀ d ∈ space, isGap d = true) ∧
      (space.zipIdx position).find? (fun entry => !isGap entry.1) = none) ∨
    ∃ gap d more, space = gap ++ d :: more ∧ (∀ c ∈ gap, isGap c = true) ∧
      isGap d = false ∧
      (space.zipIdx position).find? (fun entry => !isGap entry.1) =
        some (d, position + gap.length) := by
  induction space generalizing position with
  | nil => exact .inl ⟨List.forall_mem_nil _, rfl⟩
  | cons c space ih =>
      rw [List.zipIdx_cons]
      cases hc : isGap c with
      | false =>
          refine .inr ⟨[], c, space, rfl, List.forall_mem_nil _, hc, ?_⟩
          rw [List.find?_cons_of_pos (by simp [hc])]
          rfl
      | true =>
          rw [List.find?_cons_of_neg (by simp [hc])]
          obtain ⟨hall, hfind⟩ | ⟨gap, d, more, rfl, hall, hd, hfind⟩ :=
            ih (position + 1)
          · exact .inl ⟨List.forall_mem_cons.2 ⟨hc, hall⟩, hfind⟩
          · refine .inr ⟨c :: gap, d, more, rfl,
              List.forall_mem_cons.2 ⟨hc, hall⟩, hd, ?_⟩
            rw [hfind, List.length_cons, Nat.add_assoc, Nat.add_comm 1]

end Lexeme

namespace Cursor

/-- Tile by tile, up to the first character that is not passed over. -/
theorem drainAfter_spaces {tiles : List (Tile Text.isBlank)} {c : Cursor}
    {last : List Char} (hc : c.rest = some (Tile.text tiles last))
    (hchain : tiles.IsChain Tile.MayFollow)
    (hlast : ∀ d ∈ last, Text.isBlank d = true) (taken : List Token) :
    (drainAfter taken c).1 =
      match (Tile.spaces c.position last tiles).find?
        fun entry => !isGap entry.1 with
      | none => .ok (taken.reverse ++ Tile.tokens c.line c.position tiles)
      | some (_, position) => .error (.unterminatedString position) := by
  induction tiles generalizing c taken with
  | nil =>
      rw [Tile.text_nil] at hc
      rw [Tile.spaces]
      obtain ⟨hall, hfind⟩ | ⟨gap, d, more, rfl, hall, hd, hfind⟩ :=
        find?_zipIdx_spaces last c.position
      · rw [hfind, drainAfter_of_gap hc hall, Tile.tokens, List.append_nil]
      · have hblank := hlast d (List.mem_append_right gap List.mem_cons_self)
        rw [hfind, drainAfter_of_stuck hc hall (.blank hblank hd)]
  | cons t ts ih =>
      obtain ⟨hhead, htail⟩ := List.isChain_cons.1 hchain
      rw [Tile.text_cons] at hc
      rw [Tile.spaces, List.find?_append]
      obtain ⟨hall, hfind⟩ | ⟨gap, d, more, hgap, hall, hd, hfind⟩ :=
        find?_zipIdx_spaces t.gap c.position
      · have hstops : Stops isWordChar last := fun d hd =>
          isWordChar_of_isBlank (hlast d (List.mem_of_head? hd))
        rw [hfind, Option.none_or, drainAfter_tile hc hall fun hword =>
            Tile.stops_text (fun _ => isWordChar_of_isBlank) hword hhead hstops,
          ih rfl htail, List.reverse_cons, List.append_assoc,
          List.singleton_append]
        rfl
      · have hblank := t.of_mem_gap d (by simp [hgap])
        rw [hgap, List.append_assoc, List.cons_append] at hc
        rw [hfind, drainAfter_of_stuck hc hall (.blank hblank hd)]
        rfl

/-- Whatever white space keeps the tokens of a text apart, they are read as they
are written, up to the first character around them that is no space, tab or line
end. There the text is refused. -/
theorem reading_stops_at_other_space (c : Cursor) (t : Tiling Text.isBlank) :
    (c.tokens (String.ofList t.text)).1 =
      match t.other? with
      | none => .ok (t.tokens c.line)
      | some position => .error (.unterminatedString position) := by
  have hc : (c.enter (String.ofList t.text)).rest =
      some (Tile.text t.tiles t.last) := by
    rw [enter, String.toList_ofList]
    rfl
  rw [Cursor.tokens, drainAfter_spaces hc t.separated t.of_mem_last,
    Tiling.other?]
  have hzero : (c.enter (String.ofList t.text)).position = 0 := rfl
  rw [hzero]
  cases (Tile.spaces 0 t.last t.tiles).find? fun entry => !isGap entry.1 with
  | none => rfl
  | some entry => rfl

/-- Two words with a no-break space between them. -/
def noBreakWords : Tiling Text.isBlank where
  tiles := [⟨[], ⟨.word, ['a'], ['a']⟩, rfl,
      .word (List.cons_ne_nil _ _) (List.forall_mem_singleton.2 rfl)⟩,
    ⟨['\u00a0'], ⟨.word, ['b'], ['b']⟩, rfl,
      .word (List.cons_ne_nil _ _) (List.forall_mem_singleton.2 rfl)⟩]
  last := []
  all_last := rfl
  separated := .cons_cons (fun _ _ => List.cons_ne_nil _ _) (.singleton _)

/-- No string is open there, and still the text is refused for one. -/
theorem no_break_space_is_refused :
    noBreakWords.text = "a\u00a0b".toList ∧
    noBreakWords.tokens 1 = [⟨.word, "a", 1, 0⟩, ⟨.word, "b", 1, 2⟩] ∧
    (({} : Cursor).tokens "a\u00a0b").1 =
      .error (.unterminatedString 1) := by
  refine ⟨rfl, rfl, ?_⟩
  let word : Tiling isGap := ⟨[⟨[], ⟨.word, ['a'], ['a']⟩, rfl,
    .word (List.cons_ne_nil _ _) (List.forall_mem_singleton.2 rfl)⟩],
    [], rfl, .singleton _⟩
  have hstuck : Stuck ['\u00a0', 'b'] := .blank rfl rfl
  exact tokens_of_stuck {} word rfl hstuck

end Cursor

end TableQuery

import Mathlib.Data.List.Chain
import TableQuery.Proofs.CursorReuse
import TableQuery.Proofs.TokenForms

/-!
# Tokens tile the text

Reading a text to its end takes it apart without loss. A `Tiling` is such a
decomposition: regular tokens with a gap in front of each and one behind the
last, and no two words without a gap between them. From it the tokens can be
read off, each at the position where its characters begin.

Every text has a tiling of some part of it from the start on, behind which
there is nothing left or reading is stuck (`exists_tiling`). A cursor follows
the tiles one by one (`drainAfter_text`), so these are the two outcomes: a text
is accepted when it has a tiling, and refused at a position when the characters
in front of that have one and nothing can be read behind them.
-/

namespace TableQuery

open Lexeme

/-- A token as it stands in a text, behind a gap of characters of some kind. -/
structure Tile (p : Char → Bool) where
  gap : List Char
  lexeme : Lexeme
  all_gap : gap.all p = true
  regular : lexeme.Regular

namespace Tile

variable {p : Char → Bool}

/-- A tile may follow another one: two words have a gap between them. -/
def MayFollow (first second : Tile p) : Prop :=
  first.lexeme.kind = .word → second.lexeme.kind = .word → second.gap ≠ []

/-- The characters of tiles, in front of some others. -/
def text (tiles : List (Tile p)) (rest : List Char) : List Char :=
  tiles.flatMap (fun t => t.gap ++ t.lexeme.raw) ++ rest

/-- The token of a tile that begins on a line and behind a number of
characters. It is on the line and at the position where its own begin. -/
def token (t : Tile p) (line position : Nat) : Token where
  kind := t.lexeme.kind
  value := String.ofList t.lexeme.value
  line := line + t.gap.count '\n'
  position := position + t.gap.length

/-- The tokens of tiles, the first of which begins there. -/
def tokens (line position : Nat) : List (Tile p) → List Token
  | [] => []
  | t :: ts =>
    t.token line position ::
      tokens (line + t.gap.count '\n')
        (position + t.gap.length + t.lexeme.raw.length) ts

theorem of_mem_gap (t : Tile p) : ∀ c ∈ t.gap, p c = true :=
  List.all_eq_true.1 t.all_gap

theorem text_nil (rest : List Char) : text ([] : List (Tile p)) rest = rest :=
  rfl

theorem text_cons (t : Tile p) (ts : List (Tile p)) (rest : List Char) :
    text (t :: ts) rest = t.gap ++ (t.lexeme.raw ++ text ts rest) := by
  simp only [text, List.flatMap_cons, List.append_assoc]

theorem text_append (tiles : List (Tile p)) (cs ds : List Char) :
    text tiles (cs ++ ds) = text tiles cs ++ ds := by
  simp only [text, List.append_assoc]

theorem map_value_tokens (line position : Nat) (tiles : List (Tile p)) :
    (tokens line position tiles).map (·.value) =
      tiles.map fun t => String.ofList t.lexeme.value := by
  induction tiles generalizing line position with
  | nil => rfl
  | cons t ts ih =>
      rw [tokens, List.map_cons, ih]
      rfl

/-- At the position of each token stand the characters of its tile. -/
theorem forall₂_tokens (tiles : List (Tile p)) (before rest : List Char)
    (line : Nat) :
    List.Forall₂
      (fun t token =>
        t.lexeme.raw <+: (before ++ text tiles rest).drop token.position)
      tiles (tokens line before.length tiles) := by
  induction tiles generalizing before line with
  | nil => exact .nil
  | cons t ts ih =>
      have happend : before ++ text (t :: ts) rest =
          before ++ t.gap ++ (t.lexeme.raw ++ text ts rest) := by
        rw [text_cons, ← List.append_assoc]
      refine .cons ?_ ?_
      · rw [happend, token, ← List.length_append, List.drop_left]
        exact List.prefix_append _ _
      · have htail := ih (before ++ t.gap ++ t.lexeme.raw)
          (line + t.gap.count '\n')
        rw [List.append_assoc, List.length_append, List.length_append] at htail
        rw [happend]
        exact htail

/-- A word does not run on into the tiles behind it. -/
theorem stops_text {first : Tile p} {ts : List (Tile p)} {rest : List Char}
    (hp : ∀ c, p c = true → isWordChar c = false)
    (hword : first.lexeme.kind = .word)
    (h : ∀ second ∈ ts.head?, first.MayFollow second)
    (hrest : Stops isWordChar rest) : Stops isWordChar (text ts rest) := by
  match ts with
  | [] => exact hrest
  | second :: ts =>
      rw [text_cons]
      by_cases hgap : second.gap = []
      · rw [hgap, List.nil_append, second.regular.stops_isWordChar_iff]
        intro hkind
        exact h second rfl hword hkind hgap
      · exact stops_append (fun c hc => hp c (second.of_mem_gap c hc)) hgap _

end Tile

/-- A text taken apart into tokens, with gaps around them of characters of some
kind, and with one between any two words. -/
structure Tiling (p : Char → Bool) where
  tiles : List (Tile p)
  last : List Char
  all_last : last.all p = true
  separated : tiles.IsChain Tile.MayFollow

namespace Tiling

variable {p : Char → Bool}

/-- The text that is taken apart. -/
def text (t : Tiling p) : List Char :=
  Tile.text t.tiles t.last

/-- The tokens of a text that begins on a line. -/
def tokens (t : Tiling p) (line : Nat) : List Token :=
  Tile.tokens line 0 t.tiles

theorem of_mem_last (t : Tiling p) : ∀ c ∈ t.last, p c = true :=
  List.all_eq_true.1 t.all_last

/-- The empty text. -/
def nil : Tiling p :=
  ⟨[], [], rfl, .nil⟩

/-- One more tile in front of a tiling. -/
def cons (first : Tile p) (t : Tiling p)
    (h : ∀ second ∈ t.tiles.head?, first.MayFollow second) : Tiling p where
  tiles := first :: t.tiles
  last := t.last
  all_last := t.all_last
  separated := List.isChain_cons.2 ⟨h, t.separated⟩

theorem text_cons (first : Tile p) (t : Tiling p)
    (h : ∀ second ∈ t.tiles.head?, first.MayFollow second) :
    (cons first t h).text = first.gap ++ (first.lexeme.raw ++ t.text) :=
  Tile.text_cons first t.tiles t.last

/-- Where no word can go on, the tile of a word may stand in front. -/
theorem mayFollow_of_stops {first : Tile p} {t : Tiling p} {tail : List Char}
    (h : first.lexeme.kind = .word → Stops isWordChar (t.text ++ tail)) :
    ∀ second ∈ t.tiles.head?, first.MayFollow second := by
  intro second hsecond hfirst hkind hgap
  obtain ⟨ts, htiles⟩ : ∃ ts, t.tiles = second :: ts := by
    match ht : t.tiles with
    | [] => rw [ht] at hsecond; cases hsecond
    | d :: ts => rw [ht] at hsecond; cases hsecond; exact ⟨ts, rfl⟩
  have hstops := h hfirst
  rw [text, htiles, Tile.text_cons, hgap, List.nil_append,
    List.append_assoc] at hstops
  exact (second.regular.stops_isWordChar_iff _).1 hstops hkind

end Tiling

/-- Every text is taken apart from its start on, to its end or to where reading
is stuck. -/
theorem exists_tiling (cs : List Char) :
    ∃ (t : Tiling isGap) (tail : List Char), cs = t.text ++ tail ∧
      (tail = [] ∨ Stuck tail) := by
  -- The reader's own recursion: a token is taken off, and the rest is shorter.
  induction hlength : cs.length using Nat.strong_induction_on generalizing cs with
  | _ n ih =>
    have hgap : (cs.takeWhile isGap).all isGap = true := List.all_takeWhile
    have hcs : cs = cs.takeWhile isGap ++ cs.dropWhile isGap :=
      List.takeWhile_append_dropWhile.symm
    match hfirst : first? (cs.dropWhile isGap) with
    | none =>
        refine ⟨⟨[], cs.takeWhile isGap, hgap, .nil⟩, _, hcs, ?_⟩
        by_cases hnil : cs.dropWhile isGap = []
        · exact .inl hnil
        · exact .inr (stuck_of_first?_eq_none hfirst
            (stops_dropWhile isGap cs) hnil)
    | some (l, rest) =>
        obtain ⟨happend, hregular, hstops⟩ := first?_eq_some_iff.1 hfirst
        have hlt : rest.length < n := by
          have hlt := length_lt_of_first? hfirst
          have hle := (List.dropWhile_sublist (l := cs) isGap).length_le
          omega
        obtain ⟨t, tail, hrest, htail⟩ := ih _ hlt rest rfl
        let first : Tile isGap := ⟨cs.takeWhile isGap, l, hgap, hregular⟩
        rw [hrest] at hstops
        refine ⟨.cons first t (Tiling.mayFollow_of_stops hstops), tail, ?_,
          htail⟩
        rw [Tiling.text_cons, List.append_assoc, List.append_assoc, ← hrest,
          ← happend]
        exact hcs

namespace Cursor

theorem next_of_regular {c : Cursor} {gap rest : List Char} {l : Lexeme}
    (hc : c.rest = some (gap ++ (l.raw ++ rest)))
    (hgap : ∀ d ∈ gap, isGap d = true) (hregular : l.Regular)
    (hrest : l.kind = .word → Stops isWordChar rest) :
    c.next =
      (.ok (some ⟨l.kind, String.ofList l.value, c.line + gap.count '\n',
        c.position + gap.length⟩),
      ⟨c.line + gap.count '\n', c.position + gap.length + l.raw.length,
        some rest⟩) := by
  have hstops := hregular.stops_isGap rest
  rw [next, hc]
  simp only [takeWhile_of_stops hgap hstops, dropWhile_of_stops hgap hstops,
    hregular.first?_eq hrest]

/-- A gap at the end of a text, or where reading is stuck, is passed without a
token. -/
theorem next_of_halt {c : Cursor} {gap tail : List Char}
    (hc : c.rest = some (gap ++ tail)) (hgap : ∀ d ∈ gap, isGap d = true)
    (htail : tail = [] ∨ Stuck tail) :
    c.next =
      (if tail.isEmpty then .ok none
        else .error (.unterminatedString (c.position + gap.length)),
      ⟨c.line + gap.count '\n', c.position + gap.length, some tail⟩) := by
  have hstops : Stops isGap tail ∧ first? tail = none := by
    rcases htail with rfl | htail
    · exact ⟨stops_nil isGap, rfl⟩
    · exact ⟨htail.stops_isGap, htail.first?_eq_none⟩
  rw [next, hc]
  simp only [takeWhile_of_stops hgap hstops.1,
    dropWhile_of_stops hgap hstops.1, hstops.2]
  split
  · rfl
  · rfl

theorem drainAfter_of_gap {c : Cursor} {gap : List Char}
    (hc : c.rest = some gap) (hgap : ∀ d ∈ gap, isGap d = true)
    (taken : List Token) : (drainAfter taken c).1 = .ok taken.reverse := by
  rw [← List.append_nil gap] at hc
  rw [drainAfter_of_end (next_of_halt hc hgap (.inl rfl))]

theorem drainAfter_of_stuck {c : Cursor} {gap tail : List Char}
    (hc : c.rest = some (gap ++ tail)) (hgap : ∀ d ∈ gap, isGap d = true)
    (htail : Stuck tail) (taken : List Token) :
    (drainAfter taken c).1 =
      .error (.unterminatedString (c.position + gap.length)) := by
  have hnil : ¬ tail.isEmpty = true := by
    rw [List.isEmpty_iff]
    exact htail.ne_nil
  have hnext := next_of_halt hc hgap (.inr htail)
  rw [if_neg hnil] at hnext
  rw [drainAfter_of_error hnext]

/-- The cursor behind a tile. -/
def past {p : Char → Bool} (c : Cursor) (t : Tile p) (rest : List Char) :
    Cursor where
  line := c.line + t.gap.count '\n'
  position := c.position + t.gap.length + t.lexeme.raw.length
  rest := some rest

/-- A cursor takes the tile in front of it. -/
theorem drainAfter_tile {p : Char → Bool} {c : Cursor} {t : Tile p}
    {rest : List Char} (hc : c.rest = some (t.gap ++ (t.lexeme.raw ++ rest)))
    (hgap : ∀ d ∈ t.gap, isGap d = true)
    (hrest : t.lexeme.kind = .word → Stops isWordChar rest)
    (taken : List Token) :
    drainAfter taken c =
      drainAfter (t.token c.line c.position :: taken) (c.past t rest) :=
  drainAfter_of_token (next_of_regular hc hgap t.regular hrest) taken

/-- A cursor takes one tile after another. -/
theorem drainAfter_text {tiles : List (Tile isGap)} {c : Cursor}
    {rest : List Char} (hc : c.rest = some (Tile.text tiles rest))
    (hchain : tiles.IsChain Tile.MayFollow) (hrest : Stops isWordChar rest)
    (taken : List Token) :
    ∃ after : Cursor, after.rest = some rest ∧
      after.position + rest.length =
        c.position + (Tile.text tiles rest).length ∧
      drainAfter taken c =
        drainAfter ((Tile.tokens c.line c.position tiles).reverse ++ taken)
          after := by
  induction tiles generalizing c taken with
  | nil => exact ⟨c, hc, rfl, rfl⟩
  | cons t ts ih =>
      obtain ⟨hhead, htail⟩ := List.isChain_cons.1 hchain
      rw [Tile.text_cons] at hc
      obtain ⟨after, hafter, hposition, hdrain⟩ :=
        ih (c := c.past t (Tile.text ts rest)) rfl htail
          (t.token c.line c.position :: taken)
      refine ⟨after, hafter, ?_, ?_⟩
      · rw [hposition, past, Tile.text_cons, List.length_append,
          List.length_append, Nat.add_assoc, Nat.add_assoc]
      · have hstops := fun hword => Tile.stops_text
          (fun _ => isWordChar_of_isGap) hword hhead hrest
        rw [drainAfter_tile hc t.of_mem_gap hstops, hdrain, Tile.tokens,
          List.reverse_cons, List.append_assoc, List.singleton_append]
        rfl

/-- The end of a tiling goes on to whatever a word cannot go on to. -/
theorem stops_last (t : Tiling isGap) {tail : List Char}
    (h : Stops isWordChar tail) : Stops isWordChar (t.last ++ tail) := by
  by_cases hlast : t.last = []
  · rwa [hlast, List.nil_append]
  · exact stops_append (fun c hc => isWordChar_of_isGap (t.of_mem_last c hc))
      hlast tail

theorem drainAfter_tiling {c : Cursor} (t : Tiling isGap)
    (hc : c.rest = some t.text) (taken : List Token) :
    (drainAfter taken c).1 =
      .ok (taken.reverse ++ Tile.tokens c.line c.position t.tiles) := by
  have hlast : Stops isWordChar t.last := by
    rw [← List.append_nil t.last]
    exact stops_last t (stops_nil isWordChar)
  obtain ⟨after, hafter, -, hdrain⟩ :=
    drainAfter_text hc t.separated hlast taken
  rw [hdrain, drainAfter_of_gap hafter t.of_mem_last, List.reverse_append,
    List.reverse_reverse]

theorem tokens_of_tiling (c : Cursor) {text : String} (t : Tiling isGap)
    (h : text.toList = t.text) : (c.tokens text).1 = .ok (t.tokens c.line) := by
  have hc : (c.enter text).rest = some t.text := by
    rw [← h]
    rfl
  exact drainAfter_tiling t hc []

theorem tokens_of_stuck (c : Cursor) {text : String} (t : Tiling isGap)
    {tail : List Char} (h : text.toList = t.text ++ tail) (htail : Stuck tail) :
    (c.tokens text).1 = .error (.unterminatedString t.text.length) := by
  have hc : (c.enter text).rest =
      some (Tile.text t.tiles (t.last ++ tail)) := by
    rw [Tile.text_append, ← Tiling.text, ← h]
    rfl
  obtain ⟨after, hafter, hposition, hdrain⟩ := drainAfter_text hc t.separated
    (stops_last t htail.stops_isWordChar) []
  have hlength : after.position + t.last.length = t.text.length := by
    have hzero : (c.enter text).position = 0 := rfl
    rw [hzero, Tile.text_append, ← Tiling.text, List.length_append,
      List.length_append] at hposition
    omega
  rw [Cursor.tokens, hdrain, drainAfter_of_stuck hafter t.of_mem_last htail,
    hlength]

theorem tokens_of_stuck_start (c : Cursor) {text : String}
    (h : Stuck text.toList) :
    (c.tokens text).1 = .error (.unterminatedString 0) := by
  let t : Tiling isGap := .nil
  have htext : text.toList = t.text ++ text.toList :=
    (List.nil_append _).symm
  exact tokens_of_stuck c t htext h

theorem tokens_eq_ok_iff {c : Cursor} {text : String} {tokens : List Token} :
    (c.tokens text).1 = .ok tokens ↔
      ∃ t : Tiling isGap, text.toList = t.text ∧ tokens = t.tokens c.line := by
  constructor
  · intro h
    obtain ⟨t, tail, htext, rfl | htail⟩ := exists_tiling text.toList
    · rw [List.append_nil] at htext
      rw [tokens_of_tiling c t htext] at h
      injection h with h
      exact ⟨t, htext, h.symm⟩
    · rw [tokens_of_stuck c t htext htail] at h
      cases h
  · rintro ⟨t, htext, rfl⟩
    exact tokens_of_tiling c t htext

theorem tokens_eq_error_iff {c : Cursor} {text : String} {e : Error} :
    (c.tokens text).1 = .error e ↔
      ∃ (t : Tiling isGap) (tail : List Char), text.toList = t.text ++ tail ∧
        Stuck tail ∧ e = .unterminatedString t.text.length := by
  constructor
  · intro h
    obtain ⟨t, tail, htext, rfl | htail⟩ := exists_tiling text.toList
    · rw [List.append_nil] at htext
      rw [tokens_of_tiling c t htext] at h
      cases h
    · rw [tokens_of_stuck c t htext htail] at h
      injection h with h
      exact ⟨t, tail, htext, htail, h.symm⟩
  · rintro ⟨t, tail, htext, htail, rfl⟩
    exact tokens_of_stuck c t htext htail

/-- The tokens of an accepted text tile it: between gaps stand, each at the
position of its token, characters that make up just this token. A text is
refused at a position if what is in front of that is accepted on its own and
behind it is a quote that opens no string, or white space that is no gap. -/
theorem tokens_tile_text (c : Cursor) (text : String) :
    (∀ tokens, (c.tokens text).1 = .ok tokens ↔
      ∃ t : Tiling isGap, text.toList = t.text ∧ tokens = t.tokens c.line ∧
        List.Forall₂
          (fun tile token =>
            tile.lexeme.raw <+: text.toList.drop token.position)
          t.tiles tokens) ∧
    ∀ e, (c.tokens text).1 = .error e ↔
      ∃ position, e = .unterminatedString position ∧
        (∃ tokens, (c.tokens
          (String.ofList (text.toList.take position))).1 = .ok tokens) ∧
        Stuck (text.toList.drop position) := by
  refine ⟨fun tokens => ?_, fun e => ?_⟩
  · rw [tokens_eq_ok_iff]
    constructor
    · rintro ⟨t, htext, rfl⟩
      refine ⟨t, htext, rfl, ?_⟩
      rw [htext]
      exact Tile.forall₂_tokens t.tiles [] t.last c.line
    · rintro ⟨t, htext, htokens, -⟩
      exact ⟨t, htext, htokens⟩
  · rw [tokens_eq_error_iff]
    constructor
    · rintro ⟨t, tail, htext, htail, rfl⟩
      refine ⟨t.text.length, rfl, ?_, ?_⟩
      · rw [htext, List.take_left]
        exact ⟨_, tokens_of_tiling c t String.toList_ofList⟩
      · rwa [htext, List.drop_left]
    · rintro ⟨position, rfl, ⟨tokens, htokens⟩, hstuck⟩
      obtain ⟨t, ht, -⟩ := tokens_eq_ok_iff.1 htokens
      rw [String.toList_ofList] at ht
      -- Behind the position there is something left, so it is not past the end.
      have hlt : position < text.toList.length := by
        have hne := hstuck.ne_nil
        rw [Ne, List.drop_eq_nil_iff] at hne
        omega
      refine ⟨t, _, ?_, hstuck, ?_⟩
      · rw [← ht, List.take_append_drop]
      · rw [← ht, List.length_take, Nat.min_eq_left hlt.le]

end Cursor

end TableQuery

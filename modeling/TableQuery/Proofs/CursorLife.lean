import TableQuery.Proofs.CursorSteps

/-!
# A cursor over all its calls

A cursor is given texts and asked for tokens, in any order and number, and goes
on after it has failed. A `Life` is what comes of a list of calls: the cursor
itself, and beside it what the calls were about, namely for each text how many
tokens have been taken from it and how many of its characters were passed.

Two things are kept by every call (`Life.Sound.call`). The cursor answers next
what a new cursor would answer that is given the current text and has taken as
many tokens from it, and the lines that it counts are the line feeds outside
strings that were passed, in all the texts together. The second one would not be
kept by itself: what counts behind a call depends on whether the cursor stands in
a string, so that it has to be known that it never does (`Visit.Current`).
-/

namespace TableQuery

namespace Cursor

open Lexeme

/-! ## What calls are about -/

/-- A text that a cursor was given, the number of tokens taken from it, and the
number of its characters passed. -/
structure Visit where
  text : String
  taken : Nat := 0
  passed : Nat := 0
  deriving DecidableEq, Repr

namespace Visit

/-- The text, and how many tokens were taken from it. -/
def place (v : Visit) : String × Nat :=
  (v.text, v.taken)

/-- The number of line feeds outside strings that were passed. -/
def feeds (v : Visit) : Nat :=
  Quoting.outside.outerFeeds (v.text.toList.take v.passed)

/-- The number of line feeds outside strings that were passed in all texts. -/
def allFeeds : List Visit → Nat
  | [] => 0
  | v :: earlier => v.feeds + allFeeds earlier

/-- A visit after one more call, by what the call answers and where it leaves
the cursor. -/
def add (v : Visit) : Except Error (Option Token) × Cursor → Visit
  | (.ok (some _), after) =>
    { v with taken := v.taken + 1, passed := after.position }
  | (_, after) => { v with passed := after.position }

end Visit

/-- What a cursor can be asked for: to start on a text, for the next token, for
all tokens of a text, or for what these stand for. -/
inductive Call where
  | enter (text : String)
  | next
  | tokens (text : String)
  | values (text : String)
  deriving DecidableEq, Repr

/-- A cursor, and what its calls so far were about, the latest text first. -/
structure Life where
  cursor : Cursor := {}
  visits : List Visit := []
  deriving DecidableEq, Repr

namespace Life

/-- A text is entered. -/
def enter (life : Life) (text : String) : Life where
  cursor := life.cursor.enter text
  visits := { text } :: life.visits

/-- The next token is asked for. -/
def next (life : Life) : Life where
  cursor := life.cursor.next.2
  visits := life.visits.modifyHead (·.add life.cursor.next)

/-- All tokens of a text are taken. -/
def readThrough (life : Life) (text : String) : Life where
  cursor := (life.cursor.tokens text).2
  visits :=
    { text
      taken := (life.cursor.enter text).ahead.length
      passed := (life.cursor.tokens text).2.position } :: life.visits

/-- A call, which may fail. What tokens stand for is made of them afterwards. -/
def call (life : Life) : Call → Life
  | .enter text => life.enter text
  | .next => life.next
  | .tokens text | .values text => life.readThrough text

/-- A new cursor after some calls. -/
def ofCalls (calls : List Call) : Life :=
  calls.foldl call {}

/-- The current text, and how many tokens were taken from it. -/
def place? (life : Life) : Option (String × Nat) :=
  life.visits.head?.map Visit.place

theorem cursor_iterate_next (life : Life) (n : Nat) :
    (next^[n] life).cursor = life.cursor.afterNexts n := by
  induction n generalizing life with
  | zero => rfl
  | succ n ih =>
      rw [Function.iterate_succ_apply, ih, afterNexts_succ]
      rfl

/-- Asking for tokens until there is none takes those ahead. -/
theorem iterate_next_ahead (c : Cursor) (v : Visit) (earlier : List Visit) :
    next^[c.ahead.length + 1] ⟨c, v :: earlier⟩ =
      ⟨c.afterNexts (c.ahead.length + 1),
        { text := v.text
          taken := v.taken + c.ahead.length
          passed := (c.afterNexts (c.ahead.length + 1)).position } ::
          earlier⟩ := by
  fun_induction ahead c generalizing v with
  | case1 c token after hnext ih =>
      have hfirst : next ⟨c, v :: earlier⟩ =
          ⟨after, v.add (.ok (some token), after) :: earlier⟩ := by
        rw [next, hnext]
        rfl
      rw [List.length_cons, Function.iterate_succ_apply, hfirst, ih,
        afterNexts_succ c (after.ahead.length + 1), hnext, Visit.add,
        Nat.add_assoc, Nat.add_comm 1]
  | case2 c after hnext =>
      have hfirst : c.afterNexts 1 = after := congrArg Prod.snd hnext
      show next ⟨c, v :: earlier⟩ = _
      rw [next, List.length_nil, Nat.zero_add, hfirst, hnext]
      rfl
  | case3 c e after hnext =>
      have hfirst : c.afterNexts 1 = after := congrArg Prod.snd hnext
      show next ⟨c, v :: earlier⟩ = _
      rw [next, List.length_nil, Nat.zero_add, hfirst, hnext]
      rfl

/-- Taking all tokens of a text is entering it and asking for tokens until there
is none. -/
theorem readThrough_eq_iterate (life : Life) (text : String) :
    life.readThrough text =
      next^[(life.cursor.enter text).ahead.length + 1] (life.enter text) := by
  rw [enter, iterate_next_ahead, readThrough, Cursor.tokens,
    (drainAfter_eq [] _).2.1, Nat.zero_add]

theorem ofCalls_append (calls more : List Call) :
    ofCalls (calls ++ more) = more.foldl call (ofCalls calls) :=
  List.foldl_append

theorem foldl_replicate_next (life : Life) (n : Nat) :
    (List.replicate n Call.next).foldl call life = next^[n] life := by
  induction n generalizing life with
  | zero => rfl
  | succ n ih =>
      rw [List.replicate_succ, List.foldl_cons, ih, Function.iterate_succ_apply]
      rfl

theorem ofCalls_append_nexts (calls : List Call) (n : Nat) :
    ofCalls (calls ++ .replicate n .next) = next^[n] (ofCalls calls) := by
  rw [ofCalls_append, foldl_replicate_next]

theorem ofCalls_append_enter (calls : List Call) (text : String) (n : Nat) :
    ofCalls (calls ++ .enter text :: .replicate n .next) =
      next^[n] ((ofCalls calls).enter text) := by
  rw [ofCalls_append, List.foldl_cons, foldl_replicate_next]
  rfl

end Life

/-! ## The current visit -/

namespace Visit

theorem text_add (v : Visit) (a : Except Error (Option Token) × Cursor) :
    (v.add a).text = v.text := by
  unfold add
  split
  · rfl
  · rfl

theorem passed_add (v : Visit) (a : Except Error (Option Token) × Cursor) :
    (v.add a).passed = a.2.position := by
  unfold add
  split
  · rfl
  · rfl

theorem taken_add_of_token (v : Visit)
    {a : Except Error (Option Token) × Cursor} {token : Token}
    (h : a.1 = .ok (some token)) : (v.add a).taken = v.taken + 1 := by
  obtain ⟨answer, after⟩ := a
  subst h
  rfl

theorem taken_add_of_no_token (v : Visit)
    {a : Except Error (Option Token) × Cursor} (h : NoToken a.1) :
    (v.add a).taken = v.taken := by
  unfold add
  split
  · exact absurd rfl (h _)
  · rfl

/-- A cursor is at a visit: it has the rest of the text ahead of it, does not
stand in a string, and answers like a new cursor that has taken the tokens. -/
structure Current (v : Visit) (c : Cursor) : Prop where
  rest_eq : c.rest = some (v.text.toList.drop v.passed)
  position_eq : c.position = v.passed
  whole : Whole (v.text.toList.take v.passed) v.feeds
  alike : c.Alike ((({} : Cursor).enter v.text).afterNexts v.taken)

theorem current_enter (c : Cursor) (text : String) :
    Current { text } (c.enter text) :=
  ⟨rfl, rfl, ⟨rfl, rfl⟩, (sameAhead_enter c {} text).alike⟩

/-- More characters of a text are passed, which begin and end outside strings. -/
theorem Current.whole_append {v : Visit} {c : Cursor} (h : v.Current c)
    {passed rest : List Char} {feeds : Nat}
    (hrest : c.rest = some (passed ++ rest)) (hwhole : Whole passed feeds) :
    Whole (v.text.toList.take (c.position + passed.length))
      (v.feeds + feeds) := by
  have happend : v.text.toList.drop v.passed = passed ++ rest := by
    rw [h.rest_eq] at hrest
    exact Option.some.inj hrest
  rw [h.position_eq, List.take_add, happend, List.take_left]
  exact h.whole.append hwhole

theorem Current.alike_next {v : Visit} {c : Cursor} (h : v.Current c) :
    c.next.2.Alike ((({} : Cursor).enter v.text).afterNexts
      (v.add c.next).taken) := by
  obtain ⟨token, htoken⟩ | hnone := exists_token_or_noToken c.next.1
  · rw [taken_add_of_token v htoken, afterNexts_succ']
    exact h.alike.sameAhead.alike
  · -- The cursor has the same answer again, and no token was taken.
    have hagain := next_next_of_no_token hnone
    rw [taken_add_of_no_token v hnone]
    constructor
    · rw [hagain]
      exact h.alike.answer_eq
    · rw [hagain]
      exact h.alike.sameAhead

/-- A call leads on in the visit, and counts the line feeds that it adds. -/
theorem Current.next {v : Visit} {c : Cursor} (h : v.Current c) :
    (v.add c.next).Current c.next.2 ∧
      ∃ feeds, c.next.2.line = c.line + feeds ∧
        (v.add c.next).feeds = v.feeds + feeds := by
  obtain ⟨passed, rest, feeds, happend, hwhole, hnext⟩ := next_passes h.rest_eq
  have hrest : c.rest = some (passed ++ rest) := by rw [h.rest_eq, happend]
  have hpassed : (v.add c.next).passed = c.position + passed.length := by
    rw [passed_add, hnext]
  have hall : Whole ((v.add c.next).text.toList.take (v.add c.next).passed)
      (v.feeds + feeds) := by
    rw [text_add, hpassed]
    exact h.whole_append hrest hwhole
  have hfeeds : (v.add c.next).feeds = v.feeds + feeds := hall.feeds_eq
  refine ⟨⟨?_, ?_, ?_, ?_⟩, feeds, ?_, hfeeds⟩
  · rw [hnext, text_add, hpassed, h.position_eq, ← List.drop_drop, happend,
      List.drop_left]
  · rw [passed_add]
  · rwa [hfeeds]
  · rw [text_add]
    exact h.alike_next
  · rw [hnext]

end Visit

/-! ## What every call keeps -/

namespace Life

/-- The lines that a cursor counts are those that it has passed, and it is at
the latest of its visits. -/
structure Sound (life : Life) : Prop where
  line_eq : life.cursor.line = 1 + Visit.allFeeds life.visits
  unused : life.visits = [] → life.cursor.rest = none
  current : ∀ v ∈ life.visits.head?, v.Current life.cursor

theorem sound_new : Sound {} where
  line_eq := rfl
  unused _ := rfl
  current := by
    rintro v ⟨⟩

theorem Sound.enter {life : Life} (h : life.Sound) (text : String) :
    (life.enter text).Sound where
  line_eq := by
    rw [Life.enter, Visit.allFeeds, Visit.feeds, List.take_zero,
      Quoting.outerFeeds, Nat.zero_add]
    exact h.line_eq
  unused := by
    rintro ⟨⟩
  current := by
    rintro v ⟨⟩
    exact Visit.current_enter life.cursor text

theorem Sound.next {life : Life} (h : life.Sound) : life.next.Sound := by
  obtain ⟨c, visits⟩ := life
  cases visits with
  | nil =>
      have hsame : Life.next ⟨c, []⟩ = ⟨c, []⟩ := by
        rw [Life.next, next_of_no_text (h.unused rfl)]
        rfl
      rwa [hsame]
  | cons v earlier =>
      have hat : v.Current c := h.current v rfl
      have hbefore : c.line = 1 + (v.feeds + Visit.allFeeds earlier) :=
        h.line_eq
      obtain ⟨hnext, feeds, hline, hfeeds⟩ := hat.next
      refine ⟨?_, ?_, ?_⟩
      · show c.next.2.line =
          1 + ((v.add c.next).feeds + Visit.allFeeds earlier)
        omega
      · rintro ⟨⟩
      · rintro w ⟨⟩
        exact hnext

theorem Sound.iterate_next {life : Life} (h : life.Sound) (n : Nat) :
    (Life.next^[n] life).Sound := by
  induction n with
  | zero => exact h
  | succ n ih =>
      rw [Function.iterate_succ_apply']
      exact ih.next

theorem Sound.call {life : Life} (h : life.Sound) (call : Call) :
    (life.call call).Sound := by
  cases call with
  | enter text => exact h.enter text
  | next => exact h.next
  | tokens text | values text =>
      rw [Life.call, readThrough_eq_iterate]
      exact (h.enter text).iterate_next _

theorem sound_ofCalls (calls : List Call) : (ofCalls calls).Sound := by
  induction calls using List.reverseRecOn with
  | nil => exact sound_new
  | append_singleton calls call ih =>
      rw [ofCalls_append]
      exact ih.call call

/-- What is answered next depends on the text and the number of tokens taken. -/
theorem Sound.answer_eq {life other : Life} (h : life.Sound)
    (h' : other.Sound) (hplace : life.place? = other.place?) :
    life.cursor.next.1.map (·.map Token.unlined) =
      other.cursor.next.1.map (·.map Token.unlined) := by
  obtain ⟨c, visits⟩ := life
  obtain ⟨d, visits'⟩ := other
  match visits, visits' with
  | [], [] =>
      rw [next_of_no_text (h.unused rfl), next_of_no_text (h'.unused rfl)]
  | v :: _, w :: _ =>
      injection hplace with hplace
      injection hplace with htext htaken
      have hv := (h.current v rfl).alike.answer_eq
      have hw := (h'.current w rfl).alike.answer_eq
      rw [htext, htaken] at hv
      rw [hv, hw]
  | [], _ :: _ => cases hplace
  | _ :: _, [] => cases hplace

/-- The line of a token is the one that is counted just before it. -/
theorem Sound.line_token {life : Life} (h : life.Sound) {token : Token}
    (htoken : life.cursor.next.1 = .ok (some token)) :
    token.line = life.next.cursor.line ∧
      ∃ v earlier, life.visits = v :: earlier ∧
        token.line =
          1 + Visit.allFeeds ({ v with passed := token.position } :: earlier) := by
  obtain ⟨c, visits⟩ := life
  obtain ⟨gap, raw, rest, feeds, hrest, hgap, -, hline, hposition, hnext⟩ :=
    next_of_token htoken
  refine ⟨?_, ?_⟩
  · rw [Life.next, hnext]
  · match visits with
    | [] =>
        have hnone : c.rest = none := h.unused rfl
        rw [hnone] at hrest
        cases hrest
    | v :: earlier =>
        have hbefore : c.line = 1 + (v.feeds + Visit.allFeeds earlier) :=
          h.line_eq
        have hfront : Visit.feeds { v with passed := token.position } =
            v.feeds + feeds := by
          rw [Visit.feeds, hposition]
          exact ((h.current v rfl).whole_append hrest hgap).feeds_eq
        refine ⟨v, earlier, rfl, ?_⟩
        show token.line =
          1 + (Visit.feeds { v with passed := token.position } +
            Visit.allFeeds earlier)
        rw [hline, hfront, hbefore]
        omega

end Life

/-- What holds after any calls, failed ones among them. The next answer depends
on the current text and on how many tokens were taken from it, but for the line
of a token, and an answer without a token is repeated from then on. Left is the
text behind the characters passed, and the lines counted are the line feeds
outside strings that were passed, in all texts; a token is on the line counted
just before it. Taking all tokens of a text is entering it and asking for tokens
up to the first answer without one. -/
theorem calls_keep_place_and_count (calls : List Call) :
    (∀ others, (Life.ofCalls others).place? = (Life.ofCalls calls).place? →
      (Life.ofCalls others).cursor.next.1.map (·.map Token.unlined) =
        (Life.ofCalls calls).cursor.next.1.map (·.map Token.unlined)) ∧
    (NoToken (Life.ofCalls calls).cursor.next.1 →
      ∀ n, (Life.ofCalls (calls ++ .replicate n .next)).cursor.next.1 =
        (Life.ofCalls calls).cursor.next.1) ∧
    (∀ v ∈ (Life.ofCalls calls).visits.head?,
      (Life.ofCalls calls).cursor.rest =
        some (v.text.toList.drop v.passed)) ∧
    (Life.ofCalls calls).cursor.line =
      1 + Visit.allFeeds (Life.ofCalls calls).visits ∧
    (∀ token, (Life.ofCalls calls).cursor.next.1 = .ok (some token) →
      token.line = (Life.ofCalls (calls ++ [.next])).cursor.line ∧
      ∃ v earlier, (Life.ofCalls calls).visits = v :: earlier ∧
        token.line =
          1 + Visit.allFeeds ({ v with passed := token.position } :: earlier)) ∧
    ∀ text, ∃ tokens, ∃ last : Except Error Unit,
      ((Life.ofCalls calls).cursor.tokens text).1 =
        last.map (fun _ => tokens) ∧
      Life.ofCalls (calls ++ [.tokens text]) =
        Life.ofCalls
          (calls ++ .enter text :: .replicate (tokens.length + 1) .next) ∧
      (∀ (k : Nat) token, tokens[k]? = some token →
        (Life.ofCalls
          (calls ++ .enter text :: .replicate k .next)).cursor.next.1 =
            .ok (some token)) ∧
      (Life.ofCalls
        (calls ++ .enter text :: .replicate tokens.length .next)).cursor.next.1 =
          last.map fun _ => none := by
  have hsound := Life.sound_ofCalls calls
  refine ⟨?_, ?_, ?_, hsound.line_eq, ?_, ?_⟩
  · intro others hplace
    exact (Life.sound_ofCalls others).answer_eq hsound hplace
  · intro hnone n
    rw [Life.ofCalls_append_nexts, Life.cursor_iterate_next,
      next_afterNexts_of_no_token hnone]
  · intro v hv
    exact (hsound.current v hv).rest_eq
  · intro token htoken
    rw [Life.ofCalls_append]
    exact hsound.line_token htoken
  · intro text
    obtain ⟨htokens, -, last, hlast, hout⟩ :=
      drainAfter_eq [] ((Life.ofCalls calls).cursor.enter text)
    refine ⟨_, last, hout, ?_, ?_, ?_⟩
    · rw [Life.ofCalls_append_enter, Life.ofCalls_append]
      exact Life.readThrough_eq_iterate _ text
    · intro k token hk
      rw [Life.ofCalls_append_enter, Life.cursor_iterate_next]
      exact htokens k token hk
    · rw [Life.ofCalls_append_enter, Life.cursor_iterate_next]
      exact hlast

/-- A word is taken from a new text. -/
def plainCalls : List Call :=
  [.enter "a\n b", .next]

/-- The same, after a text with a line feed in a string that was left in the
middle, and after one with a line feed in front of a quote that nothing closes. -/
def retriedCalls : List Call :=
  [.enter "'\n' b", .next, .tokens "\n\x22", .next, .next] ++ plainCalls

/-- The word behind is the same for both, and one line further on for the second.
The quote is met again at each call, but the line feed in front of it was counted
once, and the one in the string was not. -/
theorem retries_count_no_line_twice :
    (Life.ofCalls retriedCalls).place? = (Life.ofCalls plainCalls).place? ∧
    (Life.ofCalls retriedCalls).cursor.next.1.map (·.map Token.unlined) =
      (Life.ofCalls plainCalls).cursor.next.1.map (·.map Token.unlined) ∧
    (Life.ofCalls plainCalls).cursor.next.1 =
      .ok (some ⟨.word, "b", 2, 3⟩) ∧
    (Life.ofCalls (plainCalls ++ [.next])).cursor.line = 2 ∧
    (Life.ofCalls retriedCalls).cursor.line =
      1 + Visit.allFeeds (Life.ofCalls retriedCalls).visits ∧
    (Life.ofCalls (retriedCalls ++ [.next])).cursor.line = 3 ∧
    ∀ n, (Life.ofCalls
      ([.tokens "\n\x22"] ++ .replicate n .next)).cursor.next.1 =
        .error (.unterminatedString 1) := by
  have hplace : (Life.ofCalls retriedCalls).place? =
      (Life.ofCalls plainCalls).place? := by decide +kernel
  have hplain : (Life.ofCalls plainCalls).cursor.next.1 =
      .ok (some ⟨.word, "b", 2, 3⟩) := rfl
  have hretried : (Life.ofCalls retriedCalls).cursor.next.1 =
      .ok (some ⟨.word, "b", 3, 3⟩) := by decide +kernel
  have hquote : (Life.ofCalls [.tokens "\n\x22"]).cursor.next.1 =
      .error (.unterminatedString 1) := by decide +kernel
  have hnone : NoToken (Life.ofCalls [.tokens "\n\x22"]).cursor.next.1 := by
    rw [hquote]
    rintro token ⟨⟩
  obtain ⟨-, -, -, -, hline, -⟩ := calls_keep_place_and_count plainCalls
  obtain ⟨halike, -, -, hcount, hlater, -⟩ :=
    calls_keep_place_and_count retriedCalls
  obtain ⟨-, hagain, -⟩ := calls_keep_place_and_count [.tokens "\n\x22"]
  refine ⟨hplace, (halike plainCalls hplace.symm).symm, hplain,
    (hline _ hplain).1.symm, hcount, (hlater _ hretried).1.symm, ?_⟩
  intro n
  rw [hagain hnone n, hquote]

end Cursor

end TableQuery

import Mathlib.Logic.Function.Iterate
import TableQuery.Proofs.OuterFeeds
import TableQuery.Proofs.TokenTiling

/-!
# Asking a cursor for tokens

All that a call for a token can do is said once (`Advance`). Without a text
it does nothing. Else it passes a gap, and behind that either a token or nothing;
where there is no token the next call stands in front of the same, with no gap
left to pass (`next_next_of_no_token`). In any case what is passed begins and
ends outside strings, and its line feeds outside of them are those that are
counted (`next_passes`).

To take all tokens is to ask for one after another up to the call that finds none
(`drainAfter_eq`).
-/

namespace TableQuery

namespace Cursor

open Lexeme

/-! ## One call -/

theorem next_of_no_text {c : Cursor} (h : c.rest = none) :
    c.next = (.error .noText, c) := by
  rw [next, h]

/-- An answer is no token. -/
def NoToken (answer : Except Error (Option Token)) : Prop :=
  ∀ token, answer ≠ .ok (some token)

theorem exists_token_or_noToken (answer : Except Error (Option Token)) :
    (∃ token, answer = .ok (some token)) ∨ NoToken answer := by
  by_cases h : ∃ token, answer = .ok (some token)
  · exact .inl h
  · exact .inr fun token htoken => h ⟨token, htoken⟩

/-- The cursor behind a gap. -/
def behindGap (c : Cursor) (gap rest : List Char) : Cursor where
  line := c.line + gap.count '\n'
  position := c.position + gap.length
  rest := some rest

/-- What a call can answer, and where it can leave a cursor. -/
inductive Advance (c : Cursor) :
    Except Error (Option Token) × Cursor → Prop
  | noText : c.rest = none → Advance c (.error .noText, c)
  | token {gap rest : List Char} {l : Lexeme} :
      c.rest = some (gap ++ (l.raw ++ rest)) →
      (∀ d ∈ gap, isGap d = true) → l.Regular →
      Advance c
        (.ok (some ⟨l.kind, String.ofList l.value, c.line + gap.count '\n',
          c.position + gap.length⟩),
        ⟨c.line + gap.count '\n', c.position + gap.length + l.raw.length,
          some rest⟩)
  | halt {gap tail : List Char} {answer : Except Error (Option Token)} :
      c.rest = some (gap ++ tail) → (∀ d ∈ gap, isGap d = true) →
      NoToken answer →
      (c.behindGap gap tail).next = (answer, c.behindGap gap tail) →
      Advance c (answer, c.behindGap gap tail)

theorem advance_of_halt {c : Cursor} {gap tail : List Char}
    (hc : c.rest = some (gap ++ tail)) (hgap : ∀ d ∈ gap, isGap d = true)
    (htail : tail = [] ∨ Stuck tail) : c.Advance c.next := by
  rw [next_of_halt hc hgap htail]
  refine .halt hc hgap ?_ ?_
  · intro token htoken
    split at htoken
    · cases htoken
    · cases htoken
  · -- What is left has no gap in front, so that nothing more is passed.
    have hleft : (c.behindGap gap tail).rest = some ([] ++ tail) := rfl
    exact next_of_halt hleft (List.forall_mem_nil _) htail

theorem advance_next (c : Cursor) : c.Advance c.next := by
  match hc : c.rest with
  | none =>
      rw [next_of_no_text hc]
      exact .noText hc
  | some cs =>
      have hgap : ∀ d ∈ cs.takeWhile isGap, isGap d = true :=
        fun d hd => List.mem_takeWhile_imp hd
      rw [← List.takeWhile_append_dropWhile (p := isGap) (l := cs)] at hc
      match hfirst : first? (cs.dropWhile isGap) with
      | some (l, rest) =>
          obtain ⟨happend, hregular, hstops⟩ := first?_eq_some_iff.1 hfirst
          rw [happend] at hc
          rw [next_of_regular hc hgap hregular hstops]
          exact .token hc hgap hregular
      | none =>
          by_cases hnil : cs.dropWhile isGap = []
          · exact advance_of_halt hc hgap (.inl hnil)
          · exact advance_of_halt hc hgap (.inr (stuck_of_first?_eq_none hfirst
              (stops_dropWhile isGap cs) hnil))

/-- A token that is taken comes behind the gap, on the line to which the gap
leads, and the cursor goes on behind its characters on this line. -/
theorem next_of_token {c : Cursor} {token : Token}
    (h : c.next.1 = .ok (some token)) :
    ∃ gap raw rest feeds, c.rest = some (gap ++ (raw ++ rest)) ∧
      Whole gap feeds ∧ Whole raw 0 ∧ token.line = c.line + feeds ∧
      token.position = c.position + gap.length ∧
      c.next.2 = ⟨token.line, token.position + raw.length, some rest⟩ := by
  have hadvance := c.advance_next
  generalize c.next = outcome at h hadvance ⊢
  cases hadvance with
  | noText _ => cases h
  | @token gap rest l hc hgap hregular =>
      cases h
      exact ⟨gap, l.raw, rest, _, hc, whole_of_gap hgap, hregular.whole, rfl,
        rfl, rfl⟩
  | halt _ _ hnone _ => exact absurd h (hnone token)

/-- Whatever a call answers, it passes characters that begin and end outside
strings, and counts the line feeds outside of them. -/
theorem next_passes {c : Cursor} {cs : List Char} (h : c.rest = some cs) :
    ∃ passed rest feeds, cs = passed ++ rest ∧ Whole passed feeds ∧
      c.next.2 = ⟨c.line + feeds, c.position + passed.length, some rest⟩ := by
  have hadvance := c.advance_next
  generalize c.next = outcome at hadvance ⊢
  cases hadvance with
  | noText hc =>
      rw [h] at hc
      cases hc
  | @token gap rest l hc hgap hregular =>
      rw [h] at hc
      injection hc with hc
      refine ⟨gap ++ l.raw, rest, _, ?_,
        (whole_of_gap hgap).append hregular.whole, ?_⟩
      · rw [hc, List.append_assoc]
      · rw [List.length_append, Nat.add_zero, Nat.add_assoc c.position]
  | @halt gap tail _ hc hgap _ _ =>
      rw [h] at hc
      injection hc with hc
      exact ⟨gap, tail, _, hc, whole_of_gap hgap, rfl⟩

/-- A call that finds no token finds none when it is repeated, and leaves the
cursor as the first one did. -/
theorem next_next_of_no_token {c : Cursor} (h : NoToken c.next.1) :
    c.next.2.next = c.next := by
  have hadvance := c.advance_next
  generalize c.next = outcome at h hadvance ⊢
  cases hadvance with
  | noText hc => exact next_of_no_text hc
  | token _ _ _ => exact absurd rfl (h _)
  | halt _ _ _ hagain => exact hagain

/-! ## Calls one after another -/

/-- The cursor behind a number of calls for a token. -/
def afterNexts (c : Cursor) (n : Nat) : Cursor :=
  (fun c => c.next.2)^[n] c

theorem afterNexts_succ (c : Cursor) (n : Nat) :
    c.afterNexts (n + 1) = c.next.2.afterNexts n :=
  Function.iterate_succ_apply _ n c

theorem afterNexts_succ' (c : Cursor) (n : Nat) :
    c.afterNexts (n + 1) = (c.afterNexts n).next.2 :=
  Function.iterate_succ_apply' _ n c

theorem next_afterNexts_of_no_token {c : Cursor} (h : NoToken c.next.1)
    (n : Nat) : (c.afterNexts n).next = c.next := by
  induction n with
  | zero => rfl
  | succ n ih =>
      rw [afterNexts_succ']
      rw [← ih] at h ⊢
      exact next_next_of_no_token h

/-- The tokens that can still be taken. -/
def ahead (c : Cursor) : List Token :=
  match _h : c.next with
  | (.ok (some token), after) => token :: after.ahead
  | (.ok none, _) | (.error _, _) => []
termination_by c.remaining
decreasing_by exact remaining_next_lt _h

theorem ahead_of_token {c after : Cursor} {token : Token}
    (h : c.next = (.ok (some token), after)) :
    c.ahead = token :: after.ahead := by
  rw [ahead]
  split
  · next heq => rw [h] at heq; cases heq; rfl
  · next heq => rw [h] at heq; cases heq
  · next heq => rw [h] at heq; cases heq

theorem ahead_of_no_token {c : Cursor} (h : NoToken c.next.1) :
    c.ahead = [] := by
  rw [ahead]
  split
  · next heq => rw [heq] at h; exact absurd rfl (h _)
  · rfl
  · rfl

/-- Taking all tokens is asking for them until there is none. What is answered
are those that were there, or the error behind them. -/
theorem drainAfter_eq (taken : List Token) (c : Cursor) :
    (∀ (k : Nat) token, c.ahead[k]? = some token →
      (c.afterNexts k).next.1 = .ok (some token)) ∧
    (drainAfter taken c).2 = c.afterNexts (c.ahead.length + 1) ∧
    ∃ last : Except Error Unit,
      (c.afterNexts c.ahead.length).next.1 = last.map (fun _ => none) ∧
      (drainAfter taken c).1 =
        last.map fun _ => taken.reverse ++ c.ahead := by
  fun_induction drainAfter taken c with
  | case1 taken c e after hnext =>
      have hahead : c.ahead = [] :=
        ahead_of_no_token (by rw [hnext]; rintro token ⟨⟩)
      rw [hahead]
      refine ⟨?_, ?_, .error e, ?_, rfl⟩
      · rintro k token ⟨⟩
      · exact (congrArg Prod.snd hnext).symm
      · exact congrArg Prod.fst hnext
  | case2 taken c after hnext =>
      have hahead : c.ahead = [] :=
        ahead_of_no_token (by rw [hnext]; rintro token ⟨⟩)
      rw [hahead]
      refine ⟨?_, ?_, .ok (), ?_, ?_⟩
      · rintro k token ⟨⟩
      · exact (congrArg Prod.snd hnext).symm
      · exact congrArg Prod.fst hnext
      · rw [List.append_nil]
        rfl
  | case3 taken c token after hnext ih =>
      obtain ⟨htokens, hafter, last, hlast, hout⟩ := ih
      have hsecond : ∀ n, c.afterNexts (n + 1) = after.afterNexts n := by
        intro n
        rw [afterNexts_succ, hnext]
      rw [ahead_of_token hnext, List.length_cons, hsecond, hsecond]
      refine ⟨?_, hafter, last, hlast, ?_⟩
      · intro k token' hk
        cases k with
        | zero =>
            injection hk with hk
            rw [← hk]
            exact congrArg Prod.fst hnext
        | succ k =>
            rw [hsecond]
            exact htokens k token' hk
      · rw [hout, List.reverse_cons, List.append_assoc, List.singleton_append]

/-! ## Cursors that answer alike -/

/-- Two cursors give the same next answer but for the line of a token, and have
the same ahead of them behind it. -/
structure Alike (c d : Cursor) : Prop where
  answer_eq : c.next.1.map (·.map Token.unlined) =
    d.next.1.map (·.map Token.unlined)
  sameAhead : c.next.2.SameAhead d.next.2

theorem SameAhead.alike {c d : Cursor} (h : c.SameAhead d) : c.Alike d :=
  ⟨h.next.1, h.next.2⟩

end Cursor

end TableQuery

import TableQuery.Proofs.TokenForms

/-!
# Line feeds outside strings

Which characters of a text stand in a string can be said without taking the text
apart: from one character to the next it is known what stands around it
(`Quoting`). So the line feeds outside strings can be counted in any piece of a
text that begins outside of them.

Gaps and tokens are such pieces, and they end outside strings as well
(`Regular.whole`). Of the two only a gap has line feeds that count, since words
have none and the others stand between quotes.
-/

namespace TableQuery

namespace Lexeme

/-- What stands around a character: no string, a string of either kind, or in
one between double quotes the backslash that takes it. -/
inductive Quoting where
  | outside
  | single
  | double
  | escaped
  deriving DecidableEq, Repr

namespace Quoting

/-- What stands around the character behind another one. -/
def next (q : Quoting) (c : Char) : Quoting :=
  match q with
  | .outside =>
    if c = '\x22' then .double else if c = '\x27' then .single else .outside
  | .single => if c = '\x27' then .outside else .single
  | .double =>
    if c = '\x22' then .outside else if c = '\\' then .escaped else .double
  | .escaped => .double

/-- What stands around the end of a text. -/
def behind (q : Quoting) (cs : List Char) : Quoting :=
  cs.foldl next q

/-- The number of line feeds of a text around which there is no string. -/
def outerFeeds (q : Quoting) : List Char → Nat
  | [] => 0
  | c :: cs =>
    (if q = .outside ∧ c = '\n' then 1 else 0) + (q.next c).outerFeeds cs

theorem behind_cons (q : Quoting) (c : Char) (cs : List Char) :
    q.behind (c :: cs) = (q.next c).behind cs :=
  rfl

theorem behind_append (q : Quoting) (cs ds : List Char) :
    q.behind (cs ++ ds) = (q.behind cs).behind ds :=
  List.foldl_append

theorem outerFeeds_append (q : Quoting) (cs ds : List Char) :
    q.outerFeeds (cs ++ ds) =
      q.outerFeeds cs + (q.behind cs).outerFeeds ds := by
  induction cs generalizing q with
  | nil => exact (Nat.zero_add _).symm
  | cons c cs ih =>
      rw [List.cons_append, outerFeeds, outerFeeds, ih, behind_cons,
        Nat.add_assoc]

theorem outerFeeds_cons_of_not {q : Quoting} {c : Char}
    (h : ¬ (q = .outside ∧ c = '\n')) (cs : List Char) :
    q.outerFeeds (c :: cs) = (q.next c).outerFeeds cs := by
  rw [outerFeeds, if_neg h, Nat.zero_add]

end Quoting

/-- A text that begins and ends outside strings, with a number of line feeds
outside of them. -/
structure Whole (cs : List Char) (feeds : Nat) : Prop where
  behind_eq : Quoting.outside.behind cs = .outside
  feeds_eq : Quoting.outside.outerFeeds cs = feeds

theorem Whole.append {cs ds : List Char} {m n : Nat} (h : Whole cs m)
    (h' : Whole ds n) : Whole (cs ++ ds) (m + n) := by
  constructor
  · rw [Quoting.behind_append, h.behind_eq, h'.behind_eq]
  · rw [Quoting.outerFeeds_append, h.behind_eq, h.feeds_eq, h'.feeds_eq]

theorem whole_of_no_quote {cs : List Char}
    (h : ∀ c ∈ cs, c ≠ '\x22' ∧ c ≠ '\x27') : Whole cs (cs.count '\n') := by
  induction cs with
  | nil => exact ⟨rfl, rfl⟩
  | cons c cs ih =>
      obtain ⟨⟨hdouble, hsingle⟩, hcs⟩ := List.forall_mem_cons.1 h
      have hnext : Quoting.outside.next c = .outside := by
        rw [Quoting.next, if_neg hdouble, if_neg hsingle]
      obtain ⟨hbehind, hfeeds⟩ := ih hcs
      constructor
      · rw [Quoting.behind_cons, hnext, hbehind]
      · rw [Quoting.outerFeeds, hnext, hfeeds, List.count_cons, Nat.add_comm]
        simp

theorem whole_of_gap {gap : List Char} (h : ∀ c ∈ gap, isGap c = true) :
    Whole gap (gap.count '\n') := by
  refine whole_of_no_quote fun c hc => ⟨?_, ?_⟩
  · rintro rfl
    cases h _ hc
  · rintro rfl
    cases h _ hc

theorem behind_single {cs : List Char} (h : '\x27' ∉ cs) :
    Quoting.single.behind (cs ++ ['\x27']) = .outside ∧
      Quoting.single.outerFeeds (cs ++ ['\x27']) = 0 := by
  induction cs with
  | nil => exact ⟨rfl, rfl⟩
  | cons c cs ih =>
      rw [List.mem_cons, not_or] at h
      have hnext : Quoting.single.next c = .single := if_neg (Ne.symm h.1)
      rw [List.cons_append, Quoting.behind_cons,
        Quoting.outerFeeds_cons_of_not (by simp), hnext]
      exact ih h.2

theorem Escaped.behind_double {raw value : List Char} (h : Escaped raw value) :
    Quoting.double.behind (raw ++ ['\x22']) = .outside ∧
      Quoting.double.outerFeeds (raw ++ ['\x22']) = 0 := by
  induction h with
  | nil => exact ⟨rfl, rfl⟩
  | @plain c raw value hquote hbackslash _ ih =>
      have hnext : Quoting.double.next c = .double := by
        rw [Quoting.next, if_neg hquote, if_neg hbackslash]
      rw [List.cons_append, Quoting.behind_cons,
        Quoting.outerFeeds_cons_of_not (by simp), hnext]
      exact ih
  | @pair c raw value _ _ ih =>
      -- The backslash takes the character, whatever that is.
      have hnext : Quoting.double.next '\\' = .escaped := rfl
      rw [List.cons_append, List.cons_append, Quoting.behind_cons,
        Quoting.behind_cons, Quoting.outerFeeds_cons_of_not (by simp), hnext,
        Quoting.outerFeeds_cons_of_not (by simp)]
      exact ih

/-- A token begins and ends outside strings, and no line feed in it counts. -/
theorem Regular.whole {l : Lexeme} (h : l.Regular) : Whole l.raw 0 := by
  cases h with
  | @word cs _ hcs =>
      have hchars := fun c hc => isWordChar_eq_true (hcs c hc)
      have hfeed : cs.count '\n' = 0 := by
        rw [List.count_eq_zero]
        intro hmem
        cases (hchars _ hmem).1
      rw [← hfeed]
      exact whole_of_no_quote fun c hc => (hchars c hc).2.2.2
  | opening | closing => exact ⟨rfl, rfl⟩
  | single hcs =>
      obtain ⟨hbehind, hfeeds⟩ := behind_single hcs
      refine ⟨hbehind, ?_⟩
      rw [List.cons_append, Quoting.outerFeeds_cons_of_not (by decide)]
      exact hfeeds
  | double hraw =>
      obtain ⟨hbehind, hfeeds⟩ := hraw.behind_double
      refine ⟨hbehind, ?_⟩
      rw [List.cons_append, Quoting.outerFeeds_cons_of_not (by decide)]
      exact hfeeds

end Lexeme

end TableQuery

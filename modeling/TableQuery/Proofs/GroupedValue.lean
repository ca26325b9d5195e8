import TableQuery.Proofs.RelatedSets
import TableQuery.Proofs.SetRefusal

/-!
# A group and its value

A group in parentheses may be replaced by the set that it has for a value, in
any context at all. The tokens in front of it and behind it need not be balanced
and need not have a value; all that counts is what the evaluator makes of them.

So the statement to prove is one about places and not about derivations. From
every place the group leads where the set leads (`interchangeable_group`): in
front of an operand to the same value joined to what stands on the left, and
behind a value nowhere, because there a parenthesis is refused just as a set is.
Tokens that lead alike from every place may stand for each other, whatever the
context does before and after (`Interchangeable.evaluate_eq_ok_iff`).
-/

namespace TableQuery.SetExpression

/-- Tokens that lead to one place from every place, or are refused there
together. -/
def Interchangeable (us vs : List Token) : Prop :=
  ∀ outer state, walk outer state us = walk outer state vs

theorem Interchangeable.walk_context {us vs : List Token}
    (h : Interchangeable us vs) (ps qs : List Token) (outer : List Left)
    (state : State) :
    walk outer state (ps ++ us ++ qs) = walk outer state (ps ++ vs ++ qs) := by
  rw [walk_append, walk_append, walk_append, walk_append]
  cases walk outer state ps with
  | none => rfl
  | some place =>
      rw [Option.bind_some, Option.bind_some, h place.1 place.2]

theorem Interchangeable.evaluate_eq_ok_iff {us vs : List Token}
    (h : Interchangeable us vs) (hus : us ≠ []) (hvs : vs ≠ [])
    (ps qs : List Token) {s : IndexSet} :
    evaluate (ps ++ us ++ qs) = .ok s ↔ evaluate (ps ++ vs ++ qs) = .ok s := by
  have hleft : ps ++ us ++ qs ≠ [] := by simp [hus]
  have hright : ps ++ vs ++ qs ≠ [] := by simp [hvs]
  rw [evaluate_eq_ok_iff_walk hleft, evaluate_eq_ok_iff_walk hright,
    h.walk_context]

theorem interchangeable_group {ts : List Token} {s : IndexSet}
    (h : evaluate ts = .ok s) :
    Interchangeable (.opening :: ts ++ [.closing]) [.set s] := by
  intro outer state
  match state with
  | .operand left =>
      rw [(operand_of_evaluate h).walk_eq outer left,
        (Operand.set s).walk_eq outer left]
  | .value _ => rfl

/-- The value of tokens can be shown if their sets can. -/
theorem writable_of_evaluate {ts : List Token} {s : IndexSet}
    (h : evaluate ts = .ok s) (hts : ∀ u, Token.set u ∈ ts → u.Writable) :
    s.Writable := by
  intro i hi
  obtain ⟨u, hu, hiu⟩ := drawnFrom_of_evaluate h i hi
  exact hts u hu i hiu

/-- Tokens that have a value may be put in parentheses or replaced by a set of
this value, in front of any tokens and behind any tokens: either both lists are
refused or both have the same value. If all the sets can be shown, both refusals
have their complaints. -/
theorem group_stands_for_value {ts : List Token} {s : IndexSet}
    (h : evaluate ts = .ok s) (ps qs : List Token) :
    (∃ e e', evaluate (ps ++ (.opening :: ts ++ [.closing]) ++ qs) = .error e ∧
      evaluate (ps ++ [.set s] ++ qs) = .error e' ∧
      ((∀ u, Token.set u ∈ ps ++ ts ++ qs → u.Writable) →
        (∃ text, e.complaint = .ok text) ∧
          ∃ text, e'.complaint = .ok text)) ∨
    ∃ t, evaluate (ps ++ (.opening :: ts ++ [.closing]) ++ qs) = .ok t ∧
      evaluate (ps ++ [.set s] ++ qs) = .ok t := by
  have hiff := fun t => (interchangeable_group h).evaluate_eq_ok_iff
    (by simp) (by simp) ps qs (s := t)
  cases hset : evaluate (ps ++ [.set s] ++ qs) with
  | ok t => exact .inr ⟨t, (hiff t).2 hset, rfl⟩
  | error e' =>
      cases hgroup : evaluate (ps ++ (.opening :: ts ++ [.closing]) ++ qs) with
      | ok t =>
          rw [(hiff t).1 hgroup] at hset
          cases hset
      | error e =>
          refine .inl ⟨e, e', rfl, rfl, fun hshown => ⟨?_, ?_⟩⟩
          · refine exists_complaint_of_evaluate hgroup fun u hu => hshown u ?_
            simpa using hu
          · have hs : s.Writable :=
              writable_of_evaluate h fun u hu => hshown u (by simp [hu])
            refine exists_complaint_of_evaluate hset fun u hu => ?_
            rcases List.mem_append.1 hu with hu | hu
            · rcases List.mem_append.1 hu with hu | hu
              · exact hshown u (by simp [hu])
              · cases List.mem_singleton.1 hu
                exact hs
            · exact hshown u (by simp [hu])

/-- `A | ( )`, where `A` has the member one. -/
def sampleGroup : List Token :=
  [.set (.ofList [1]), .connective .or, .opening, .closing]

/-- `( B &`, where `B` has one and two. -/
def sampleBefore : List Token :=
  [.opening, .set (.ofList [1, 2]), .connective .and]

/-- `) | C`, where `C` has three. -/
def sampleBehind : List Token :=
  [.closing, .connective .or, .set (.ofList [3])]

/-- The group inside another one, and behind a set, where it is refused. -/
theorem sampleGroup_stands_for_value :
    evaluate sampleGroup = .ok (.ofList [1]) ∧
    (∃ t, evaluate (sampleBefore ++ (.opening :: sampleGroup ++ [.closing]) ++
          sampleBehind) = .ok t ∧
      evaluate (sampleBefore ++ [.set (.ofList [1])] ++ sampleBehind) = .ok t ∧
      t = .ofList [1, 3]) ∧
    ∃ e e', evaluate (sampleGroup ++ (.opening :: sampleGroup ++ [.closing]) ++
          []) = .error e ∧
      evaluate (sampleGroup ++ [.set (.ofList [1])] ++ []) = .error e' ∧
      (∃ text, e.complaint = .ok text) ∧ ∃ text, e'.complaint = .ok text := by
  have hgroup : evaluate sampleGroup = .ok (.ofList [1]) := rfl
  have hvalue : evaluate (sampleBefore ++ [.set (.ofList [1])] ++ sampleBehind) =
      .ok (.ofList [1, 3]) := rfl
  refine ⟨hgroup, ?_, ?_⟩
  · rcases group_stands_for_value hgroup sampleBefore sampleBehind with
      ⟨e, e', -, he', -⟩ | ⟨t, ht, ht'⟩
    · rw [hvalue] at he'
      cases he'
    · refine ⟨t, ht, ht', ?_⟩
      rw [hvalue] at ht'
      exact (Except.ok.inj ht').symm
  · have hshown : ∀ u, Token.set u ∈ sampleGroup ++ sampleGroup ++ [] →
        u.Writable := by
      intro u hu
      obtain rfl : u = .ofList [1] := by simpa [sampleGroup] using hu
      exact IndexSet.writable_ofList (by decide)
    rcases group_stands_for_value hgroup sampleGroup [] with
      ⟨e, e', he, he', hcomplaints⟩ | ⟨t, -, ht⟩
    · exact ⟨e, e', he, he', hcomplaints hshown⟩
    · cases ht

/-- The tokens of a set that cannot be shown. -/
def endlessGroup : List Token :=
  [.set endlessSet]

/-- Behind a set both a group and its value are refused. The complaint about the
group shows its parenthesis; where the value is not writable there is none about
the value. -/
theorem group_hides_endless_set :
    evaluate endlessGroup = .ok endlessSet ∧
    (∃ e, evaluate (sampleGroup ++ (.opening :: endlessGroup ++ [.closing]) ++
        []) = .error e ∧
      ∃ text, e.complaint = .ok text) ∧
    ∃ e', evaluate (sampleGroup ++ [.set endlessSet] ++ []) = .error e' ∧
      ¬ ∃ text, e'.complaint = .ok text := by
  refine ⟨rfl, ⟨.unexpected .opening 4, rfl, ?_⟩,
    .unexpected (.set endlessSet) 4, rfl, ?_⟩
  · rw [exists_complaint_unexpected_iff]
    trivial
  · rw [exists_complaint_unexpected_iff]
    exact not_writable_endlessSet

end TableQuery.SetExpression

import Mathlib.Data.List.Forall2
import TableQuery.SetExpression

/-!
# Set expressions over related sets

The evaluator joins sets and never asks one what is in it. So take any relation
between sets that joining keeps and that the empty set has to itself
(`KeptByJoins`), and two lists of tokens that are alike but for sets, which are
related one by one. Both are refused at one position, or both have a value, and
the values are related (`KeptByJoins.evaluate`).

There is one thing to prove, that a step from related places leads to related
places or is refused at both; what waits on the stack of open groups is related
along with the rest. Everything that is said about two runs of the evaluator, or
about all the sets that one run makes, is a choice of the relation. Where it is
inclusion, wider sets have a wider value; where it is a property of the first
set alone, it is an invariant of one run, for instance that no member of a value
is invented (`drawnFrom_of_evaluate`).
-/

namespace TableQuery

namespace IndexSet

instance : HasSubset IndexSet := ⟨fun s t => ∀ i, i ∈ s → i ∈ t⟩

end IndexSet

theorem Connective.mem_or_mem_of_mem_join {c : Connective} {s t : IndexSet}
    {i : Int} (h : i ∈ c.join s t) : i ∈ s ∨ i ∈ t := by
  cases c with
  | and => exact .inl (IndexSet.mem_inter.1 h).1
  | or => exact IndexSet.mem_union.1 h

namespace SetExpression

/-- A relation between sets that is kept by what expressions are made with. -/
structure KeptByJoins (R : IndexSet → IndexSet → Prop) : Prop where
  empty : R .empty .empty
  join : ∀ (c : Connective) {s s' t t' : IndexSet}, R s s' → R t t' →
    R (c.join s t) (c.join s' t')

/-! ## Alike but for sets -/

section

variable (R : IndexSet → IndexSet → Prop)

/-- The same symbol, or sets that are related. -/
inductive Token.Related : Token → Token → Prop
  | set {s s' : IndexSet} : R s s' → Related (.set s) (.set s')
  | connective (c : Connective) : Related (.connective c) (.connective c)
  | opening : Related .opening .opening
  | closing : Related .closing .closing

/-- Nothing on either side, or the same connective behind related sets. -/
inductive Left.Related : Left → Left → Prop
  | none : Related none none
  | some {s s' : IndexSet} (c : Connective) : R s s' →
      Related (some (s, c)) (some (s', c))

inductive State.Related : State → State → Prop
  | operand {left left' : Left} : left.Related R left' →
      Related (.operand left) (.operand left')
  | value {s s' : IndexSet} : R s s' → Related (.value s) (.value s')

/-- Places of the evaluator with related sets, on the stack too. -/
structure PlacesRelated (place place' : List Left × State) : Prop where
  outer : List.Forall₂ (Left.Related R) place.1 place'.1
  state : place.2.Related R place'.2

/-- Values that are related, or refusals at the same position. -/
inductive OutcomesRelated :
    Except Error IndexSet → Except Error IndexSet → Prop
  | value {s s' : IndexSet} : R s s' → OutcomesRelated (.ok s) (.ok s')
  | unexpected {t t' : Token} (position : Nat) : t.Related R t' →
      OutcomesRelated (.error (.unexpected t position))
        (.error (.unexpected t' position))
  | unexpectedEnd :
      OutcomesRelated (.error .unexpectedEnd) (.error .unexpectedEnd)

variable {R}

theorem OutcomesRelated.exists_value {outcome outcome' : Except Error IndexSet}
    (h : OutcomesRelated R outcome outcome') {s : IndexSet}
    (hs : outcome = .ok s) : ∃ t, outcome' = .ok t ∧ R s t := by
  cases h with
  | value hst =>
      cases hs
      exact ⟨_, rfl, hst⟩
  | unexpected _ _ | unexpectedEnd => cases hs

end

/-! ## One step, and all of them -/

namespace KeptByJoins

variable {R : IndexSet → IndexSet → Prop}

theorem joinLeft (hR : KeptByJoins R) {left left' : Left} {s s' : IndexSet}
    (hleft : left.Related R left') (hs : R s s') :
    R (SetExpression.joinLeft left s) (SetExpression.joinLeft left' s') := by
  cases hleft with
  | none => exact hs
  | some c hvalue => exact hR.join c hvalue hs

/-- A group that ends with related values ends at related places, or both
parentheses close nothing. -/
theorem step_closing (hR : KeptByJoins R) {outer outer' : List Left}
    {s s' : IndexSet} (houter : List.Forall₂ (Left.Related R) outer outer')
    (hs : R s s') :
    Option.Rel (PlacesRelated R) (step outer (.value s) .closing)
      (step outer' (.value s') .closing) := by
  cases houter with
  | nil => exact .none
  | cons hleft hrest => exact .some ⟨hrest, .value (hR.joinLeft hleft hs)⟩

theorem step (hR : KeptByJoins R) {outer outer' : List Left}
    {state state' : State} {t t' : Token}
    (houter : List.Forall₂ (Left.Related R) outer outer')
    (hstate : state.Related R state') (ht : t.Related R t') :
    Option.Rel (PlacesRelated R) (SetExpression.step outer state t)
      (SetExpression.step outer' state' t') := by
  cases hstate with
  | value hs =>
      cases ht with
      | set _ => exact .none
      | connective c => exact .some ⟨houter, .operand (.some c hs)⟩
      | opening => exact .none
      | closing => exact hR.step_closing houter hs
  | operand hleft =>
      cases ht with
      | set hs => exact .some ⟨houter, .value (hR.joinLeft hleft hs)⟩
      | connective c => cases hleft <;> exact .none
      | opening => exact .some ⟨.cons hleft houter, .operand .none⟩
      | closing =>
          -- A parenthesis that closes an empty group closes the empty set.
          cases hleft with
          | none => exact hR.step_closing houter hR.empty
          | some c hs => exact .none

theorem run (hR : KeptByJoins R) (position : Nat) {outer outer' : List Left}
    {state state' : State} {ts ts' : List Token}
    (houter : List.Forall₂ (Left.Related R) outer outer')
    (hstate : state.Related R state')
    (hts : List.Forall₂ (Token.Related R) ts ts') :
    OutcomesRelated R (SetExpression.run position outer state ts)
      (SetExpression.run position outer' state' ts') := by
  induction hts generalizing position outer outer' state state' with
  | nil =>
      cases houter with
      | nil =>
          cases hstate with
          | operand _ => exact .unexpectedEnd
          | value hs => exact .value hs
      | cons _ _ => cases hstate <;> exact .unexpectedEnd
  | @cons t t' _ _ ht _ ih =>
      have hstep := hR.step houter hstate ht
      rw [SetExpression.run, SetExpression.run]
      generalize SetExpression.step outer state t = place at hstep ⊢
      generalize SetExpression.step outer' state' t' = place' at hstep ⊢
      cases hstep with
      | none => exact .unexpected position ht
      | some hplaces => exact ih (position + 1) hplaces.outer hplaces.state

theorem evaluate (hR : KeptByJoins R) {ts ts' : List Token}
    (h : List.Forall₂ (Token.Related R) ts ts') :
    OutcomesRelated R (SetExpression.evaluate ts)
      (SetExpression.evaluate ts') := by
  cases h with
  | nil => exact .value hR.empty
  | cons ht hts => exact hR.run 0 .nil (.operand .none) (.cons ht hts)

end KeptByJoins

/-! ## Members of a value -/

theorem forall₂_related_self {R : IndexSet → IndexSet → Prop} {ts : List Token}
    (h : ∀ s, Token.set s ∈ ts → R s s) :
    List.Forall₂ (Token.Related R) ts ts := by
  refine List.forall₂_same.2 fun t ht => ?_
  cases t with
  | set s => exact .set (h s ht)
  | connective c => exact .connective c
  | opening => exact .opening
  | closing => exact .closing

/-- Every member of a set is one of a set among the tokens. -/
def DrawnFrom (ts : List Token) (s : IndexSet) : Prop :=
  ∀ i ∈ s, ∃ u, Token.set u ∈ ts ∧ i ∈ u

/-- This is about one run: the second set is not looked at. -/
theorem keptByJoins_drawnFrom (ts : List Token) :
    KeptByJoins fun s _ => DrawnFrom ts s where
  empty _ h := absurd h IndexSet.not_mem_empty
  join c _ _ _ _ hs ht i hi :=
    (c.mem_or_mem_of_mem_join hi).elim (hs i) (ht i)

theorem drawnFrom_of_evaluate {ts : List Token} {s : IndexSet}
    (h : evaluate ts = .ok s) : DrawnFrom ts s := by
  have hself : List.Forall₂ (Token.Related fun s _ => DrawnFrom ts s) ts ts :=
    forall₂_related_self fun u hu i hi => ⟨u, hu, hi⟩
  obtain ⟨-, -, hs⟩ :=
    ((keptByJoins_drawnFrom ts).evaluate hself).exists_value h
  exact hs

theorem keptByJoins_subset : KeptByJoins (· ⊆ ·) where
  empty _ h := h
  join c s s' t t' hs ht i hi := by
    cases c with
    | and =>
        rw [Connective.join, IndexSet.mem_inter] at hi ⊢
        exact ⟨hs i hi.1, ht i hi.2⟩
    | or =>
        rw [Connective.join, IndexSet.mem_union] at hi ⊢
        exact hi.imp (hs i) (ht i)

/-- The value of an expression has no members but those of its sets. Where each
set is replaced by one that has all its members and perhaps more, there is a
value again, and it has all the members of the former one. -/
theorem wider_sets_have_wider_value {ts : List Token} {s : IndexSet}
    (h : evaluate ts = .ok s) :
    (∀ i ∈ s, ∃ u, Token.set u ∈ ts ∧ i ∈ u) ∧
    ∀ us, List.Forall₂ (Token.Related (· ⊆ ·)) ts us →
      ∃ t, evaluate us = .ok t ∧ s ⊆ t := by
  refine ⟨drawnFrom_of_evaluate h, fun us hus => ?_⟩
  have houtcomes := keptByJoins_subset.evaluate hus
  exact houtcomes.exists_value h

/-- `A & ( B | ( ) )`, where `A` has one and two and `B` has two and three. -/
def narrowTokens : List Token :=
  [.set (.ofList [1, 2]), .connective .and, .opening, .set (.ofList [2, 3]),
    .connective .or, .opening, .closing, .closing]

/-- The tokens of `narrowTokens` with four in `A` and in `B`. -/
def wideTokens : List Token :=
  [.set (.ofList [1, 2, 4]), .connective .and, .opening,
    .set (.ofList [2, 3, 4]), .connective .or, .opening, .closing, .closing]

theorem wideTokens_have_wider_value :
    evaluate narrowTokens = .ok (.ofList [2]) ∧
    List.Forall₂ (Token.Related (· ⊆ ·)) narrowTokens wideTokens ∧
    (∃ u, Token.set u ∈ narrowTokens ∧ (2 : Int) ∈ u) ∧
    ∃ t, evaluate wideTokens = .ok t ∧ IndexSet.ofList [2] ⊆ t := by
  have hvalue : evaluate narrowTokens = .ok (.ofList [2]) := rfl
  have hwider : ∀ xs : List Int, IndexSet.ofList xs ⊆ .ofList (xs ++ [4]) := by
    intro xs i hi
    rw [IndexSet.mem_ofList] at hi ⊢
    exact List.mem_append_left _ hi
  have hwide : List.Forall₂ (Token.Related (· ⊆ ·)) narrowTokens wideTokens :=
    .cons (.set (hwider [1, 2])) (.cons (.connective .and) (.cons .opening
      (.cons (.set (hwider [2, 3])) (.cons (.connective .or) (.cons .opening
        (.cons .closing (.cons .closing .nil)))))))
  obtain ⟨hmembers, hmonotone⟩ := wider_sets_have_wider_value hvalue
  exact ⟨hvalue, hwide, hmembers 2 (IndexSet.mem_ofList.2 (by decide)),
    hmonotone wideTokens hwide⟩

end SetExpression

end TableQuery

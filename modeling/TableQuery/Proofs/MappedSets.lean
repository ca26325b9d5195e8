import TableQuery.Proofs.RelatedSets

/-!
# Set expressions under a map of their sets

An expression asks nothing of its sets. It joins them, and puts the empty set
where a group is empty; whether it is read at all is settled by the other
tokens. So a map of sets that keeps joins and the empty set may be applied to
the sets of an expression or to its value, and the outcome is the same
(`evaluate_mapSet`): refusals too, up to the set that a message may show.

To be mapped to a set is a relation that joins keep, so this is a matter of
related sets and there is no step to look at again. What waits on the stack of
open groups is mapped along.
-/

namespace TableQuery.SetExpression

/-- A map of sets that keeps what expressions are made with. -/
structure KeepsJoins (f : IndexSet → IndexSet) : Prop where
  empty : f .empty = .empty
  join : ∀ (c : Connective) s t, f (c.join s t) = c.join (f s) (f t)

def Token.mapSet (f : IndexSet → IndexSet) : Token → Token
  | .set s => .set (f s)
  | t => t

def Left.mapSet (f : IndexSet → IndexSet) (left : Left) : Left :=
  left.map fun entry => (f entry.1, entry.2)

def State.mapSet (f : IndexSet → IndexSet) : State → State
  | .operand left => .operand (Left.mapSet f left)
  | .value s => .value (f s)

def Error.mapSet (f : IndexSet → IndexSet) : Error → Error
  | .unexpected t position => .unexpected (t.mapSet f) position
  | e => e

section

variable {f : IndexSet → IndexSet}

/-- Sets are related to what they are mapped to. -/
theorem KeepsJoins.keptByJoins (hf : KeepsJoins f) :
    KeptByJoins fun s s' => s' = f s where
  empty := hf.empty.symm
  join c s _ t _ hs ht := by rw [hs, ht, hf.join]

theorem Token.related_mapSet (t : Token) :
    t.Related (fun s s' => s' = f s) (t.mapSet f) := by
  cases t with
  | set s => exact .set rfl
  | connective c => exact .connective c
  | opening => exact .opening
  | closing => exact .closing

theorem Left.related_mapSet (left : Left) :
    left.Related (fun s s' => s' = f s) (Left.mapSet f left) := by
  cases left with
  | none => exact .none
  | some entry => exact .some entry.2 rfl

theorem State.related_mapSet (state : State) :
    state.Related (fun s s' => s' = f s) (state.mapSet f) := by
  cases state with
  | operand left => exact .operand left.related_mapSet
  | value s => exact .value rfl

theorem Token.eq_mapSet {t t' : Token}
    (h : t.Related (fun s s' => s' = f s) t') : t' = t.mapSet f := by
  cases h with
  | set hs => rw [hs]; rfl
  | connective _ | opening | closing => rfl

theorem OutcomesRelated.eq_mapSet {outcome outcome' : Except Error IndexSet}
    (h : OutcomesRelated (fun s s' => s' = f s) outcome outcome') :
    outcome' = (outcome.map f).mapError (Error.mapSet f) := by
  cases h with
  | value hs => rw [hs]; rfl
  | unexpected position ht => rw [Token.eq_mapSet ht]; rfl
  | unexpectedEnd => rfl

theorem forall₂_related_mapSet (ts : List Token) :
    List.Forall₂ (Token.Related fun s s' => s' = f s) ts
      (ts.map (Token.mapSet f)) :=
  List.forall₂_map_right_iff.2
    (List.forall₂_same.2 fun t _ => t.related_mapSet)

theorem KeepsJoins.run (hf : KeepsJoins f) (position : Nat) (outer : List Left)
    (state : State) (ts : List Token) :
    run position (outer.map (Left.mapSet f)) (state.mapSet f)
        (ts.map (Token.mapSet f)) =
      ((run position outer state ts).map f).mapError (Error.mapSet f) := by
  have houter : List.Forall₂ (Left.Related fun s s' => s' = f s) outer
      (outer.map (Left.mapSet f)) :=
    List.forall₂_map_right_iff.2
      (List.forall₂_same.2 fun left _ => Left.related_mapSet left)
  exact (hf.keptByJoins.run position houter state.related_mapSet
    (forall₂_related_mapSet ts)).eq_mapSet

/-- Mapping the sets of an expression maps its value, or the set in the message
of its refusal. -/
theorem evaluate_mapSet (hf : KeepsJoins f) (ts : List Token) :
    evaluate (ts.map (Token.mapSet f)) =
      ((evaluate ts).map f).mapError (Error.mapSet f) :=
  (hf.keptByJoins.evaluate (forall₂_related_mapSet ts)).eq_mapSet

end

end TableQuery.SetExpression

import TableQuery.Proofs.ShownTokens

/-!
# The grammar of set expressions

`Expression` and `Operand` are the grammar as it is written down, left
recursion included, with the value of each derivation beside its tokens. Values
are given by their members, so nothing of the evaluator goes into them. The
evaluator never builds a derivation: it keeps what an operand is to be joined
to, and one such entry for every parenthesis still open. This file ties the
two together.

One direction runs a derivation through the evaluator. An operand may be read
in front of anything, so the statement for operands is made for every entry to
its left and every stack below, and the two inductions feed each other.

The other direction reads the stack back. `Enclosing` and `State.Holds` say
which tokens an entry and a state stand for; a step of the evaluator keeps
that true, and at the end what is left is a single derivation. Determinism of
the evaluator then makes the value of a derivation unique, although the
grammar was never shown to be unambiguous by itself.
-/

namespace TableQuery.SetExpression

mutual

/-- Tokens that derive from `expression`, which is
`expression '&' operand | expression '|' operand | operand`, and their value. -/
inductive Expression : List Token → IndexSet → Prop
  | and {ts us : List Token} {s t v : IndexSet} :
      Expression ts s → Operand us t → (∀ i, i ∈ v ↔ i ∈ s ∧ i ∈ t) →
      Expression (ts ++ .connective .and :: us) v
  | or {ts us : List Token} {s t v : IndexSet} :
      Expression ts s → Operand us t → (∀ i, i ∈ v ↔ i ∈ s ∨ i ∈ t) →
      Expression (ts ++ .connective .or :: us) v
  | operand {ts : List Token} {s : IndexSet} : Operand ts s → Expression ts s

/-- Tokens that derive from `operand`, which is
`SET | '(' expression ')' | '(' ')'`, and their value. -/
inductive Operand : List Token → IndexSet → Prop
  | set (s : IndexSet) : Operand [.set s] s
  | group {ts : List Token} {s : IndexSet} :
      Expression ts s → Operand (.opening :: ts ++ [.closing]) s
  | emptyGroup : Operand [.opening, .closing] .empty

end

/-- What a token list stands for: the value of a derivation, or the empty set
where there are no tokens at all. -/
def Denotes (ts : List Token) (s : IndexSet) : Prop :=
  ts = [] ∧ s = .empty ∨ Expression ts s

theorem Expression.join {ts us : List Token} {s t : IndexSet} (c : Connective)
    (hts : Expression ts s) (hus : Operand us t) :
    Expression (ts ++ .connective c :: us) (c.join s t) := by
  cases c with
  | and => exact .and hts hus fun _ => IndexSet.mem_inter
  | or => exact .or hts hus fun _ => IndexSet.mem_union

theorem eq_inter {s t v : IndexSet} (h : ∀ i, i ∈ v ↔ i ∈ s ∧ i ∈ t) :
    v = s.inter t :=
  IndexSet.ext_mem fun i => (h i).trans IndexSet.mem_inter.symm

theorem eq_union {s t v : IndexSet} (h : ∀ i, i ∈ v ↔ i ∈ s ∨ i ∈ t) :
    v = s.union t :=
  IndexSet.ext_mem fun i => (h i).trans IndexSet.mem_union.symm

/-! ## The evaluator, one place after another

`walk` is `run` without the positions and without the verdict at the end. -/

/-- The open parentheses and the state behind some tokens, unless one of the
tokens is refused. -/
def walk (outer : List Left) (state : State) :
    List Token → Option (List Left × State)
  | [] => some (outer, state)
  | t :: ts => (step outer state t).bind fun place => walk place.1 place.2 ts

theorem walk_append {outer : List Left} {state : State} {ts us : List Token} :
    walk outer state (ts ++ us) =
      (walk outer state ts).bind fun place => walk place.1 place.2 us := by
  induction ts generalizing outer state with
  | nil => rfl
  | cons t ts ih =>
      rw [List.cons_append, walk, walk]
      cases step outer state t with
      | none => rfl
      | some place => exact ih

theorem run_eq_ok_iff {position : Nat} {outer : List Left} {state : State}
    {ts : List Token} {s : IndexSet} :
    run position outer state ts = .ok s ↔
      walk outer state ts = some ([], .value s) := by
  induction ts generalizing position outer state with
  | nil => cases outer <;> cases state <;> simp [run, walk]
  | cons t ts ih =>
      rw [run, walk]
      cases step outer state t with
      | none => simp
      | some place => exact ih

theorem evaluate_eq_run {ts : List Token} (h : ts ≠ []) :
    evaluate ts = run 0 [] (.operand none) ts := by
  cases ts with
  | nil => exact absurd rfl h
  | cons t ts => rfl

theorem evaluate_eq_ok_iff_walk {ts : List Token} {s : IndexSet}
    (h : ts ≠ []) :
    evaluate ts = .ok s ↔
      walk [] (.operand none) ts = some ([], .value s) := by
  rw [evaluate_eq_run h, run_eq_ok_iff]

/-! ## Derivations are read -/

mutual

theorem Expression.walk_eq {ts : List Token} {s : IndexSet}
    (h : Expression ts s) (outer : List Left) :
    walk outer (.operand none) ts = some (outer, .value s) := by
  match h with
  | @Expression.and ts us s t v hts hus hmem =>
      rw [walk_append, hts.walk_eq outer, eq_inter hmem]
      exact hus.walk_eq outer (some (s, .and))
  | @Expression.or ts us s t v hts hus hmem =>
      rw [walk_append, hts.walk_eq outer, eq_union hmem]
      exact hus.walk_eq outer (some (s, .or))
  | .operand hts => exact hts.walk_eq outer none

theorem Operand.walk_eq {ts : List Token} {s : IndexSet}
    (h : Operand ts s) (outer : List Left) (left : Left) :
    walk outer (.operand left) ts =
      some (outer, .value (joinLeft left s)) := by
  match h with
  | .set s => rfl
  | @Operand.group ts s hts =>
      -- Inside the group nothing stands to the left; `left` waits on the stack.
      rw [List.cons_append, walk]
      show walk (left :: outer) (.operand none) (ts ++ [.closing]) = _
      rw [walk_append, hts.walk_eq (left :: outer)]
      rfl
  | .emptyGroup => rfl

end

theorem Expression.ne_nil {ts : List Token} {s : IndexSet}
    (h : Expression ts s) : ts ≠ [] := by
  rintro rfl
  have hwalk := h.walk_eq []
  cases hwalk

theorem evaluate_of_expression {ts : List Token} {s : IndexSet}
    (h : Expression ts s) : evaluate ts = .ok s :=
  (evaluate_eq_ok_iff_walk h.ne_nil).2 (h.walk_eq [])

/-! ## What is read is derived -/

/-- The tokens of an entry: none, or an expression and the connective behind
it. -/
def Left.Holds : Left → List Token → Prop
  | none, ts => ts = []
  | some (s, c), ts => ∃ us, Expression us s ∧ ts = us ++ [.connective c]

/-- The tokens read since the innermost open parenthesis. -/
def State.Holds : State → List Token → Prop
  | .operand left, ts => left.Holds ts
  | .value s, ts => Expression ts s

/-- The tokens up to the innermost open parenthesis, itself included. -/
inductive Enclosing : List Left → List Token → Prop
  | nil : Enclosing [] []
  | cons {outer : List Left} {left : Left} {ts us : List Token} :
      Enclosing outer ts → left.Holds us →
      Enclosing (left :: outer) (ts ++ us ++ [.opening])

/-- All the tokens read before a place. -/
def Reached (outer : List Left) (state : State) (ts : List Token) : Prop :=
  ∃ us vs, Enclosing outer us ∧ state.Holds vs ∧ ts = us ++ vs

theorem Left.Holds.expression {left : Left} {ts us : List Token}
    {s : IndexSet} (hts : left.Holds ts) (hus : Operand us s) :
    Expression (ts ++ us) (joinLeft left s) := by
  match left with
  | none =>
      obtain rfl : ts = [] := hts
      exact .operand hus
  | some (t, c) =>
      obtain ⟨vs, hvs, rfl⟩ := hts
      rw [List.append_assoc]
      exact .join c hvs hus

/-- A group that ends is an operand of the place where it began. -/
theorem Enclosing.close {outer : List Left} {left : Left}
    {us vs : List Token} {s : IndexSet} (hus : Enclosing (left :: outer) us)
    (hvs : Operand (.opening :: vs ++ [.closing]) s) :
    Reached outer (.value (joinLeft left s)) (us ++ vs ++ [.closing]) := by
  cases hus with
  | cons hts hleft =>
      refine ⟨_, _, hts, hleft.expression hvs, ?_⟩
      simp only [List.append_assoc, List.cons_append, List.nil_append]

theorem Reached.step {outer outer' : List Left} {state state' : State}
    {t : Token} {ts : List Token} (h : Reached outer state ts)
    (hstep : step outer state t = some (outer', state')) :
    Reached outer' state' (ts ++ [t]) := by
  obtain ⟨us, vs, hus, hvs, rfl⟩ := h
  match state, t with
  | .operand left, .set s =>
      cases hstep
      exact ⟨us, vs ++ [.set s], hus, hvs.expression (.set s),
        List.append_assoc ..⟩
  | .operand left, .opening =>
      cases hstep
      exact ⟨us ++ vs ++ [.opening], [], .cons hus hvs, rfl,
        (List.append_nil _).symm⟩
  | .operand none, .closing =>
      obtain rfl : vs = [] := hvs
      match outer with
      | [] => cases hstep
      | left :: outer =>
          cases hstep
          exact hus.close .emptyGroup
  | .operand (some _), .closing => cases hstep
  | .operand _, .connective _ => cases hstep
  | .value s, .connective c =>
      cases hstep
      exact ⟨us, vs ++ [.connective c], hus, ⟨vs, hvs, rfl⟩,
        List.append_assoc ..⟩
  | .value s, .closing =>
      match outer with
      | [] => cases hstep
      | left :: outer =>
          cases hstep
          exact hus.close (.group hvs)
  | .value _, .set _ => cases hstep
  | .value _, .opening => cases hstep

theorem Reached.walk {outer outer' : List Left} {state state' : State}
    {ts us : List Token} (h : Reached outer state ts)
    (hwalk : walk outer state us = some (outer', state')) :
    Reached outer' state' (ts ++ us) := by
  induction us generalizing outer state ts with
  | nil =>
      cases hwalk
      rw [List.append_nil]
      exact h
  | cons u us ih =>
      rw [SetExpression.walk] at hwalk
      obtain ⟨place, hplace, hrest⟩ := Option.bind_eq_some_iff.1 hwalk
      rw [List.append_cons]
      exact ih (h.step hplace) hrest

theorem Reached.start : Reached [] (.operand none) [] :=
  ⟨[], [], .nil, rfl, rfl⟩

theorem expression_of_walk {ts : List Token} {s : IndexSet}
    (h : walk [] (.operand none) ts = some ([], .value s)) :
    Expression ts s := by
  obtain ⟨us, vs, hus, hvs, heq⟩ := Reached.start.walk h
  cases hus
  rw [List.nil_append, List.nil_append] at heq
  rw [heq]
  exact hvs

theorem evaluate_eq_ok_iff {ts : List Token} {s : IndexSet} :
    evaluate ts = .ok s ↔ Denotes ts s := by
  by_cases hne : ts = []
  · subst hne
    constructor
    · intro h
      cases h
      exact .inl ⟨rfl, rfl⟩
    · rintro (⟨-, rfl⟩ | h)
      · rfl
      · exact absurd rfl h.ne_nil
  · rw [evaluate_eq_ok_iff_walk hne]
    constructor
    · intro h
      exact .inr (expression_of_walk h)
    · rintro (⟨h, -⟩ | h)
      · exact absurd h hne
      · exact h.walk_eq []

/-- What has a value is an operand in parentheses; no tokens at all make an
empty group. -/
theorem operand_of_evaluate {ts : List Token} {s : IndexSet}
    (h : evaluate ts = .ok s) : Operand (.opening :: ts ++ [.closing]) s := by
  rcases evaluate_eq_ok_iff.1 h with ⟨rfl, rfl⟩ | hts
  · exact .emptyGroup
  · exact .group hts

theorem Denotes.unique {ts : List Token} {s t : IndexSet}
    (hs : Denotes ts s) (ht : Denotes ts t) : s = t := by
  have heq : (.ok s : Except Error IndexSet) = .ok t := by
    rw [← evaluate_eq_ok_iff.2 hs, evaluate_eq_ok_iff.2 ht]
  injection heq

/-! ## Tokens as they are given -/

/-- The set or the symbol that a token is given as. -/
def Token.part : Token → String ⊕ IndexSet
  | .set s => .inr s
  | .connective c => .inl c.symbol
  | .opening => .inl "("
  | .closing => .inl ")"

theorem tokens_map_part (ts : List Token) :
    tokens (ts.map Token.part) = .ok ts := by
  induction ts with
  | nil => rfl
  | cons t ts ih =>
      rw [List.map_cons]
      match t with
      | .set _ | .connective .and | .connective .or | .opening | .closing =>
          show (tokens (ts.map Token.part)).map _ = _
          rw [ih]
          rfl

/-- Sets and symbols are evaluated exactly where the grammar derives them, to
the one value that their derivations have; everything else is refused, and a
refusal has its complaint unless it is of a set that is not writable. -/
theorem evaluates_what_derives (ts : List Token) :
    (∀ s, (tokens (ts.map Token.part)).bind evaluate = .ok s ↔
      Denotes ts s) ∧
    ((∃ e, (tokens (ts.map Token.part)).bind evaluate = .error e) ↔
      ¬ ∃ s, Denotes ts s) ∧
    (∀ e, (tokens (ts.map Token.part)).bind evaluate = .error e →
      ((∃ text, e.complaint = .ok text) ↔
        ∀ s n, e = .unexpected (.set s) n → s.Writable)) ∧
    (∀ s t, Denotes ts s → Denotes ts t → s = t) := by
  rw [tokens_map_part]
  refine ⟨fun s => evaluate_eq_ok_iff, ?_, fun e _ => ?_,
    fun s t => Denotes.unique⟩
  · show (∃ e, evaluate ts = .error e) ↔ ¬ ∃ s, Denotes ts s
    simp only [← evaluate_eq_ok_iff]
    cases evaluate ts with
    | error e => simp
    | ok s => simp
  · rw [Error.exists_complaint_iff]
    constructor
    · exact fun h s n he => h (.set s) n he
    · rintro h t n he
      match t with
      | .set s => exact h s n he
      | .connective _ | .opening | .closing => trivial

/-- Two sets with nothing between them, the second of which cannot be shown. -/
def adjacentSets : List Token :=
  [.set (.ofList [1]), .set endlessSet]

/-- Nothing derives the two sets, and their refusal has no complaint. -/
theorem adjacentSets_are_refused_without_complaint :
    (¬ ∃ s, Denotes adjacentSets s) ∧
    ∃ e, (tokens (adjacentSets.map Token.part)).bind evaluate = .error e ∧
      ¬ ∃ text, e.complaint = .ok text := by
  have he : evaluate adjacentSets = .error (.unexpected (.set endlessSet) 1) := rfl
  refine ⟨?_, _, by rw [tokens_map_part]; exact he, ?_⟩
  · simp only [← evaluate_eq_ok_iff, he]
    simp
  · rw [exists_complaint_unexpected_iff]
    exact not_writable_endlessSet

end TableQuery.SetExpression

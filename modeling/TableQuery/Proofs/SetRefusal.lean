import TableQuery.Proofs.SetGrammar

/-!
# Where a set expression is refused

The evaluator reads from left to right and names the first token it cannot
take. That this is the first token that cannot be right is a statement about
all continuations: whatever stands before it could still have become a set
expression, and with it nothing can.

Both halves come from one observation. Every place the evaluator can stand in
has a way to the end, an operand where one is due and then a closing
parenthesis for each open one. So the token lists that can be completed are
exactly those that can be read (`completable_iff`), and a refusal is the first
point where the two stop together.
-/

namespace TableQuery.SetExpression

/-- Token lists that have a value. -/
def Accepted (ts : List Token) : Prop := ∃ s, evaluate ts = .ok s

/-- Token lists that some further tokens make one that has a value. -/
def Completable (ts : List Token) : Prop := ∃ us, Accepted (ts ++ us)

/-- The token at an index is the last one of the shortest prefix that nothing
completes. -/
def FirstHopeless (ts : List Token) (t : Token) (n : Nat) : Prop :=
  ts[n]? = some t ∧ (∀ m ≤ n, Completable (ts.take m)) ∧
    ¬ Completable (ts.take (n + 1))

/-- The operand that is due, if one is. -/
def State.completion : State → List Token
  | .operand _ => [.set .empty]
  | .value _ => []

/-- Tokens that lead from a place to the end of an expression. -/
def completion (outer : List Left) (state : State) : List Token :=
  state.completion ++ outer.map fun _ => .closing

theorem walk_closings (outer : List Left) (s : IndexSet) :
    ∃ t, walk outer (.value s) (outer.map fun _ => .closing) =
      some ([], .value t) := by
  induction outer generalizing s with
  | nil => exact ⟨s, rfl⟩
  | cons left outer ih => exact ih (joinLeft left s)

theorem walk_completion (outer : List Left) (state : State) :
    ∃ s, walk outer state (completion outer state) = some ([], .value s) := by
  match state with
  | .operand left => exact walk_closings outer (joinLeft left .empty)
  | .value s => exact walk_closings outer s

/-! ## Completable is readable -/

theorem accepted_iff {ts : List Token} :
    Accepted ts ↔
      ts = [] ∨ ∃ s, walk [] (.operand none) ts = some ([], .value s) := by
  match ts with
  | [] => exact ⟨fun _ => .inl rfl, fun _ => ⟨.empty, rfl⟩⟩
  | t :: ts =>
      constructor
      · rintro ⟨s, hs⟩
        exact .inr ⟨s, run_eq_ok_iff.1 hs⟩
      · rintro (h | ⟨s, hs⟩)
        · cases h
        · exact ⟨s, run_eq_ok_iff.2 hs⟩

theorem completable_iff {ts : List Token} :
    Completable ts ↔ ∃ place, walk [] (.operand none) ts = some place := by
  constructor
  · rintro ⟨us, hus⟩
    rcases accepted_iff.1 hus with hnil | ⟨s, hs⟩
    · obtain rfl : ts = [] := (List.append_eq_nil_iff.1 hnil).1
      exact ⟨_, rfl⟩
    · rw [walk_append] at hs
      obtain ⟨place, hplace, -⟩ := Option.bind_eq_some_iff.1 hs
      exact ⟨place, hplace⟩
  · -- What can be read can be completed: close what is open.
    rintro ⟨place, hplace⟩
    obtain ⟨s, hs⟩ := walk_completion place.1 place.2
    refine ⟨completion place.1 place.2, accepted_iff.2 (.inr ⟨s, ?_⟩)⟩
    rw [walk_append, hplace]
    exact hs

theorem Completable.of_append {ts us : List Token}
    (h : Completable (ts ++ us)) : Completable ts := by
  obtain ⟨vs, hvs⟩ := h
  exact ⟨us ++ vs, by rwa [← List.append_assoc]⟩

theorem Completable.take {ts : List Token} (h : Completable ts) (n : Nat) :
    Completable (ts.take n) := by
  rw [← List.take_append_drop n ts] at h
  exact h.of_append

theorem Accepted.completable {ts : List Token} (h : Accepted ts) :
    Completable ts :=
  ⟨[], by rwa [List.append_nil]⟩

/-- A refused token stands behind tokens that are read, and is not. -/
theorem walk_of_unexpected {position : Nat} {outer : List Left}
    {state : State} {ts : List Token} {t : Token} {n : Nat}
    (h : run position outer state ts = .error (.unexpected t n)) :
    ∃ us vs place, ts = us ++ t :: vs ∧ n = position + us.length ∧
      walk outer state us = some place ∧ step place.1 place.2 t = none := by
  induction ts generalizing position outer state with
  | nil => cases outer <;> cases state <;> simp [run] at h
  | cons u ts ih =>
      rw [run] at h
      cases hstep : step outer state u with
      | none =>
          rw [hstep] at h
          injection h with h
          injection h with ht hn
          subst ht hn
          exact ⟨[], ts, (outer, state), rfl, rfl, rfl, hstep⟩
      | some place =>
          rw [hstep] at h
          obtain ⟨us, vs, place', rfl, hn, hus, ht⟩ := ih h
          refine ⟨u :: us, vs, place', rfl, ?_, ?_, ht⟩
          · rw [List.length_cons, hn]
            omega
          · rw [walk, hstep]
            exact hus

/-- Nothing is refused before the end. -/
theorem walk_of_unexpectedEnd {position : Nat} {outer : List Left}
    {state : State} {ts : List Token}
    (h : run position outer state ts = .error .unexpectedEnd) :
    ∃ place, walk outer state ts = some place := by
  induction ts generalizing position outer state with
  | nil => exact ⟨_, rfl⟩
  | cons t ts ih =>
      rw [run] at h
      rw [walk]
      cases hstep : step outer state t with
      | none => rw [hstep] at h; simp at h
      | some place =>
          rw [hstep] at h
          exact ih h

theorem run_ne_unknownSymbol {position : Nat} {outer : List Left}
    {state : State} {ts : List Token} {symbol : String} :
    run position outer state ts ≠ .error (.unknownSymbol symbol) := by
  induction ts generalizing position outer state with
  | nil => cases outer <;> cases state <;> simp [run]
  | cons t ts ih =>
      rw [run]
      cases step outer state t with
      | none => simp
      | some place => exact ih

theorem not_completable_of_step {ts : List Token} {t : Token}
    {place : List Left × State}
    (hts : walk [] (.operand none) ts = some place)
    (ht : step place.1 place.2 t = none) : ¬ Completable (ts ++ [t]) := by
  rw [completable_iff, walk_append, hts]
  simp [walk, ht]

theorem evaluate_unexpected {ts : List Token} {t : Token} {n : Nat}
    (h : evaluate ts = .error (.unexpected t n)) :
    ts[n]? = some t ∧ Completable (ts.take n) ∧
      ¬ Completable (ts.take (n + 1)) := by
  have hne : ts ≠ [] := by
    rintro rfl
    cases h
  rw [evaluate_eq_run hne] at h
  obtain ⟨us, vs, place, rfl, hn, hus, ht⟩ := walk_of_unexpected h
  obtain rfl : n = us.length := by omega
  refine ⟨by simp, ?_, ?_⟩
  · rw [List.take_left]
    exact completable_iff.2 ⟨place, hus⟩
  · rw [List.append_cons, List.take_left' (by simp)]
    exact not_completable_of_step hus ht

theorem evaluate_unexpectedEnd {ts : List Token}
    (h : evaluate ts = .error .unexpectedEnd) : Completable ts := by
  have hne : ts ≠ [] := by
    rintro rfl
    cases h
  rw [evaluate_eq_run hne] at h
  exact completable_iff.2 (walk_of_unexpectedEnd h)

theorem evaluate_ne_unknownSymbol {ts : List Token} {symbol : String} :
    evaluate ts ≠ .error (.unknownSymbol symbol) := by
  by_cases hne : ts = []
  · rw [hne]
    intro h
    cases h
  · rw [evaluate_eq_run hne]
    exact run_ne_unknownSymbol

/-- What the evaluator cannot read to the end it refuses at some token. -/
theorem exists_unexpected_of_walk {ts : List Token}
    (h : walk [] (.operand none) ts = none) :
    ∃ t n, evaluate ts = .error (.unexpected t n) := by
  have hnot : ¬ Completable ts := by
    rw [completable_iff, h]
    simp
  match he : evaluate ts with
  | .ok s =>
      have hts : Accepted ts := ⟨s, he⟩
      exact absurd hts.completable hnot
  | .error (.unexpected t n) => exact ⟨t, n, rfl⟩
  | .error .unexpectedEnd => exact absurd (evaluate_unexpectedEnd he) hnot
  | .error (.unknownSymbol _) => exact absurd he evaluate_ne_unknownSymbol

/-- Two first hopeless tokens of one list are at one place: the prefix in front
of each is the longest that can be completed. -/
theorem FirstHopeless.unique {ts : List Token} {t u : Token} {m n : Nat}
    (hm : FirstHopeless ts t m) (hn : FirstHopeless ts u n) : t = u ∧ m = n := by
  obtain ⟨ht, hbefore, hnot⟩ := hm
  obtain ⟨hu, hbefore', hnot'⟩ := hn
  have hmn : m = n := by
    rcases Nat.lt_trichotomy m n with hlt | heq | hgt
    · exact absurd (hbefore' (m + 1) hlt) hnot
    · exact heq
    · exact absurd (hbefore (n + 1) hgt) hnot'
  subst hmn
  exact ⟨Option.some_inj.1 (ht.symm.trans hu), rfl⟩

/-- What is refused is complained about if all the sets can be shown. -/
theorem exists_complaint_of_evaluate {ts : List Token} {e : Error}
    (he : evaluate ts = .error e) (hts : ∀ s, Token.set s ∈ ts → s.Writable) :
    ∃ text, e.complaint = .ok text := by
  rw [Error.exists_complaint_iff]
  rintro t n rfl
  obtain ⟨ht, -, -⟩ := evaluate_unexpected he
  have hmem : t ∈ ts := List.mem_of_getElem? ht
  match t with
  | .set s => exact hts s hmem
  | .connective _ | .opening | .closing => trivial

end TableQuery.SetExpression

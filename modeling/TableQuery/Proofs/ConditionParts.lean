import TableQuery.Proofs.ConditionForm

/-!
# Conditions part by part

The words of a condition are read from left to right, and so is the set
expression they make. This file says what a part of a condition leaves to the
words behind it, on either side.

On the side of the words it is a `Reading` and nothing else (`tokens_append`).
Which role is due next is a matter of counting: parentheses do not move the
reading, and every other word moves it by one of four roles, so that the count
of plain words modulo four decides (`toConnective_after`).

On the side of the tokens it is a place of the evaluator. The two are tied
together at one point. In front of a connective the evaluator stands behind a
value, however badly the condition is formed, unless it has refused the tokens
already: the last thing that moved the reading there was a literal, which made a
set, and nothing but a closing parenthesis can be read behind that
(`Reading.Settles.walk`). Hence a part that ends in front of a connective is a
whole operand on the left of whatever comes next.
-/

namespace TableQuery.Condition

open SetExpression (walk State Left Expression)

/-- Where the reading stands behind some words. -/
def Reading.after (t : Table) (r : Reading) (words : List String) : Reading :=
  words.foldl (fun r word => (r.step t word).1) r

section

variable {t : Table} {r : Reading} {words : List String}

theorem after_cons (word : String) :
    r.after t (word :: words) = (r.step t word).1.after t words := rfl

theorem run_append (more : List String) :
    r.run t (words ++ more) =
      ((r.run t words).1 ++ ((r.after t words).run t more).1,
        (r.run t words).2 ++ ((r.after t words).run t more).2) := by
  induction words generalizing r with
  | nil => rfl
  | cons word words ih =>
      simp only [List.cons_append, Reading.run, ih, after_cons,
        List.append_assoc]

theorem tokens_append (more : List String) :
    r.tokens t (words ++ more) =
      r.tokens t words ++ (r.after t words).tokens t more :=
  congrArg Prod.fst (run_append more)

/-! ## Counting plain words -/

theorem toConnective_next (role : Role) :
    (role.next.toConnective + 1) % 4 = role.toConnective % 4 := by
  cases role with
  | field | comparison | literal | connective => rfl

/-- Each plain word brings the next connective nearer by one, in a cycle of
four. -/
theorem toConnective_after (words : List String) :
    ((r.after t words).role.toConnective + (plainWords words).length) % 4 =
      r.role.toConnective % 4 := by
  induction words generalizing r with
  | nil => rfl
  | cons word words ih =>
      rw [after_cons]
      cases hword : parenthesis? word with
      | some token =>
          rw [step_of_parenthesis hword, plainWords_of_parenthesis hword]
          exact ih
      | none =>
          have hstep := ih (r := (r.step t word).1)
          have hnext := toConnective_next r.role
          rw [role_step hword] at hstep
          rw [plainWords_of_plain hword, List.length_cons]
          omega

theorem after_eq_connective (h : (plainWords words).length % 4 = 3) :
    Reading.field.after t words = .connective := by
  have hrole : (Reading.field.after t words).role.toConnective % 4 = 0 := by
    have hcount := toConnective_after (t := t) (r := .field) words
    have hfield : Reading.field.role.toConnective = 3 := rfl
    omega
  cases hr : Reading.field.after t words with
  | field | comparison _ | literal _ _ => rw [hr] at hrole; cases hrole
  | connective => rfl

/-! ## Words and tokens read together -/

/-- In front of a connective the evaluator is behind a value. -/
def Reading.Settles (r : Reading) (state : State) : Prop :=
  r = .connective → ∃ s, state = .value s

theorem walk_singleton {outer : List Left} {state : State}
    {token : SetExpression.Token} {place : List Left × State}
    (h : walk outer state [token] = some place) :
    SetExpression.step outer state token = some place := by
  rw [walk] at h
  obtain ⟨place', hplace', hwalk⟩ := Option.bind_eq_some_iff.1 h
  cases hwalk
  exact hplace'

theorem Reading.Settles.step {outer : List Left} {state : State}
    {place : List Left × State} (h : r.Settles state) (word : String)
    (hwalk : walk outer state (r.step t word).2.1 = some place) :
    (r.step t word).1.Settles place.2 := by
  intro hafter
  cases hword : parenthesis? word with
  | some token =>
      rw [step_of_parenthesis hword] at hwalk hafter
      obtain ⟨s, rfl⟩ := h hafter
      have hstep := walk_singleton hwalk
      -- Behind a value only the closing parenthesis of a group can be read.
      obtain rfl | rfl := parenthesis?_eq_some hword
      · cases hstep
      · match outer with
        | [] => cases hstep
        | left :: outer => cases hstep; exact ⟨_, rfl⟩
  | none =>
      have hrole := role_step (t := t) (r := r) hword
      rw [hafter] at hrole
      match r with
      | .field | .comparison _ | .connective => cases hrole
      | .literal f c =>
          rw [tokens_step hword] at hwalk
          have hstep := walk_singleton hwalk
          match state with
          | .operand left => cases hstep; exact ⟨_, rfl⟩
          | .value _ => cases hstep

theorem Reading.Settles.walk {outer : List Left} {state : State}
    {place : List Left × State} (h : r.Settles state)
    (hwalk : walk outer state (r.tokens t words) = some place) :
    (r.after t words).Settles place.2 := by
  induction words generalizing r outer state with
  | nil =>
      cases hwalk
      exact h
  | cons word words ih =>
      rw [tokens_cons, SetExpression.walk_append] at hwalk
      obtain ⟨middle, hmiddle, hrest⟩ := Option.bind_eq_some_iff.1 hwalk
      exact ih (h.step word hmiddle) hrest

/-- A part that ends in front of a connective leaves a value, if it can be read
at all. -/
theorem value_of_walk {outer : List Left} {state : State}
    {place : List Left × State} (h : (plainWords words).length % 4 = 3)
    (hwalk : walk outer state (Reading.field.tokens t words) = some place) :
    ∃ s, place.2 = .value s := by
  have hsettles : Reading.field.Settles state := by
    intro hfield
    cases hfield
  exact hsettles.walk hwalk (after_eq_connective h)

theorem tokens_ne_nil (h : (plainWords words).length % 4 = 3) :
    Reading.field.tokens t words ≠ [] := by
  intro hnil
  have hwalk : walk [] (.operand none) (Reading.field.tokens t words) =
      some ([], .operand none) := by
    rw [hnil]
    rfl
  obtain ⟨s, hs⟩ := value_of_walk h hwalk
  cases hs

theorem words_ne_nil (h : (plainWords words).length % 4 = 3) : words ≠ [] := by
  intro hnil
  rw [hnil] at h
  cases h

end

end TableQuery.Condition

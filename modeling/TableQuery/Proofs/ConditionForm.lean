import TableQuery.Proofs.ConditionFormula
import TableQuery.Proofs.MappedSets

/-!
# Refusals depend on form alone

Whether a condition is refused, and at which position, is settled by where its
parentheses stand and by its words in the place of a connective. Fields,
comparisons, literals and cells have no say: each predicate is one set among
the tokens, an unknown field or comparison included.

The argument is an erasure. `emptied` forgets what every set holds, and the
evaluator cannot tell: it joins sets but never asks one what is in it, so
emptying the tokens first or the outcome last is the same (`evaluate_emptied`).
On the other side the emptied tokens of a condition can be read off its form
(`map_emptied_tokens`), over any table. Two conditions of one form therefore
share their emptied run, and with it the position of a refusal.
-/

namespace TableQuery

/-! ## Sets without their members -/

namespace SetExpression

/-- The token with the empty set for its set. -/
def Token.emptied : Token → Token
  | .set _ => .set .empty
  | t => t

def Left.emptied (left : Left) : Left :=
  left.map fun entry => (.empty, entry.2)

def State.emptied : State → State
  | .operand left => .operand (Left.emptied left)
  | .value _ => .value .empty

def Error.emptied : Error → Error
  | .unexpected t position => .unexpected t.emptied position
  | e => e

/-- The index of the token that is refused; none where the tokens end too
soon. -/
def Error.position? : Error → Option Nat
  | .unexpected _ position => some position
  | .unexpectedEnd => none
  | .unknownSymbol _ => none

theorem Error.position?_emptied (e : Error) :
    e.emptied.position? = e.position? := by
  cases e <;> rfl

/-! Emptying is a map of sets like any other. -/

theorem keepsJoins_empty : KeepsJoins fun _ => .empty where
  empty := rfl
  join c _ _ := by cases c <;> rfl

theorem Token.emptied_eq : Token.emptied = Token.mapSet fun _ => .empty := by
  funext t
  cases t <;> rfl

theorem State.emptied_eq : State.emptied = State.mapSet fun _ => .empty := by
  funext state
  cases state <;> rfl

theorem Error.emptied_eq : Error.emptied = Error.mapSet fun _ => .empty := by
  funext e
  cases e with
  | unexpected t position => simp [Error.emptied, Error.mapSet, Token.emptied_eq]
  | unknownSymbol _ | unexpectedEnd => rfl

theorem run_emptied (position : Nat) (outer : List Left) (state : State)
    (ts : List Token) :
    run position (outer.map Left.emptied) state.emptied
        (ts.map Token.emptied) =
      ((run position outer state ts).map fun _ => .empty).mapError
        Error.emptied := by
  rw [Token.emptied_eq, State.emptied_eq, Error.emptied_eq]
  exact keepsJoins_empty.run position outer state ts

theorem evaluate_emptied (ts : List Token) :
    evaluate (ts.map Token.emptied) =
      ((evaluate ts).map fun _ => .empty).mapError Error.emptied := by
  match ts with
  | [] => rfl
  | t :: ts => exact run_emptied 0 [] (.operand none) (t :: ts)

/-- A refusal after emptying is a refusal before, at the same position. -/
theorem evaluate_emptied_position {ts : List Token} {place : Option Nat} :
    (∃ e, evaluate (ts.map Token.emptied) = .error e ∧
        e.position? = place) ↔
      ∃ e, evaluate ts = .error e ∧ e.position? = place := by
  rw [evaluate_emptied]
  cases evaluate ts with
  | ok s =>
      constructor
      · rintro ⟨e, he, -⟩
        cases he
      · rintro ⟨e, he, -⟩
        cases he
  | error e =>
      constructor
      · rintro ⟨e', he, hplace⟩
        injection he with he
        subst he
        exact ⟨e, rfl, by rw [← hplace, Error.position?_emptied]⟩
      · rintro ⟨e', he, hplace⟩
        injection he with he
        subst he
        exact ⟨e.emptied, rfl, by rw [Error.position?_emptied, hplace]⟩

end SetExpression

/-! ## The form of a condition -/

/-- How many words other than parentheses stand in front of the next
connective. -/
def Role.toConnective : Role → Nat
  | .field => 3
  | .comparison => 2
  | .literal => 1
  | .connective => 0

namespace Condition

/-- The words that are no parentheses. -/
def plainWords (words : List String) : List String :=
  words.filter fun word => (parenthesis? word).isNone

/-- Every fourth word, after skipping some. -/
def everyFourth : Nat → List String → List String
  | _, [] => []
  | 0, word :: words => word :: everyFourth 3 words
  | skip + 1, _ :: words => everyFourth skip words

/-- Two word lists with the same parentheses at the same places, and so of one
length, that are alike in every fourth of the other words: `and`, `or` or
anything else. The first such word comes after some to skip. -/
structure SameForm (skip : Nat) (ws vs : List String) : Prop where
  parentheses : ws.map parenthesis? = vs.map parenthesis?
  connectives : (everyFourth skip (plainWords ws)).map connective? =
    (everyFourth skip (plainWords vs)).map connective?

/-- What a plain word in some role adds to the tokens, apart from members. -/
def emits (role : Role) (word : String) : List SetExpression.Token :=
  match role with
  | .field | .comparison => []
  | .literal => [.set .empty]
  | .connective =>
    ((connective? word).map SetExpression.Token.connective).toList

theorem map_emptied_step {t : Table} {r : Reading} {word : String}
    (h : parenthesis? word = none) :
    ((r.step t word).2.1).map SetExpression.Token.emptied =
      emits r.role word := by
  rw [tokens_step h]
  match r with
  | .field | .comparison _ | .literal _ _ => rfl
  | .connective =>
      simp only [Reading.emitted, emits, Reading.role]
      cases connective? word with
      | some c => rfl
      | none => rfl

theorem plainWords_of_parenthesis {word : String} {token : SetExpression.Token}
    (h : parenthesis? word = some token) (words : List String) :
    plainWords (word :: words) = plainWords words := by
  rw [plainWords, List.filter_cons_of_neg (by simp [h]), plainWords]

theorem plainWords_of_plain {word : String} (h : parenthesis? word = none)
    (words : List String) :
    plainWords (word :: words) = word :: plainWords words := by
  rw [plainWords, List.filter_cons_of_pos (by simp [h]), plainWords]

theorem SameForm.of_parenthesis {skip : Nat} {w v : String}
    {ws vs : List String} {token : SetExpression.Token}
    (hw : parenthesis? w = some token) (hv : parenthesis? v = some token)
    (h : SameForm skip (w :: ws) (v :: vs)) : SameForm skip ws vs := by
  obtain ⟨hparens, hconns⟩ := h
  rw [plainWords_of_parenthesis hw, plainWords_of_parenthesis hv] at hconns
  exact ⟨(List.cons.inj hparens).2, hconns⟩

/-- One plain word of each list is read. Unless a connective was due this only
brings it nearer. -/
theorem SameForm.of_plain {role : Role} {w v : String} {ws vs : List String}
    (hw : parenthesis? w = none) (hv : parenthesis? v = none)
    (h : SameForm role.toConnective (w :: ws) (v :: vs)) :
    emits role w = emits role v ∧
      SameForm role.next.toConnective ws vs := by
  obtain ⟨hparens, hconns⟩ := h
  have hrest := (List.cons.inj hparens).2
  rw [plainWords_of_plain hw, plainWords_of_plain hv] at hconns
  match role with
  | .field => exact ⟨rfl, hrest, hconns⟩
  | .comparison => exact ⟨rfl, hrest, hconns⟩
  | .literal => exact ⟨rfl, hrest, hconns⟩
  | .connective =>
      obtain ⟨hhead, htail⟩ := List.cons.inj hconns
      refine ⟨?_, hrest, htail⟩
      rw [emits, emits, hhead]

/-- Over whatever tables, conditions of one form make the same tokens apart
from what the sets hold. -/
theorem map_emptied_tokens {t t' : Table} {ws vs : List String}
    {r r' : Reading} (hrole : r.role = r'.role)
    (h : SameForm r.role.toConnective ws vs) :
    (r.tokens t ws).map SetExpression.Token.emptied =
      (r'.tokens t' vs).map SetExpression.Token.emptied := by
  induction ws generalizing r r' vs with
  | nil =>
      have hnil : vs = [] := List.map_eq_nil_iff.1 h.parentheses.symm
      rw [hnil]
      rfl
  | cons w ws ih =>
      match vs with
      | [] => cases h.parentheses
      | v :: vs =>
          have hhead : parenthesis? w = parenthesis? v :=
            (List.cons.inj h.parentheses).1
          cases hw : parenthesis? w with
          | some token =>
              have hv : parenthesis? v = some token := by rw [← hhead, hw]
              rw [tokens_parenthesis hw, tokens_parenthesis hv, List.map_cons,
                List.map_cons, ih hrole (h.of_parenthesis hw hv)]
          | none =>
              have hv : parenthesis? v = none := by rw [← hhead, hw]
              obtain ⟨hemits, hrest⟩ := h.of_plain hw hv
              have hnext : (r.step t w).1.role = (r'.step t' v).1.role := by
                rw [role_step hw, role_step hv, hrole]
              rw [← role_step (t := t) hw] at hrest
              rw [tokens_cons, tokens_cons, List.map_append, List.map_append,
                map_emptied_step hw, map_emptied_step hv, ← hrole, hemits,
                ih hnext hrest]

end Condition

namespace Selection

/-- Over two loaded tables, conditions of one form are refused together and at
the same position, whatever else their words and the cells are. -/
theorem refusal_depends_on_form {files files' : Path → Entry}
    {separator separator' : String} {t t' : Table} (query query' : Query)
    (hload : Table.load files (Path.ofString query.table) separator = .ok t)
    (hload' : Table.load files' (Path.ofString query'.table) separator' =
      .ok t')
    (h : Condition.SameForm 3 query.condition query'.condition)
    (place : Option Nat) :
    (∃ e, ofQuery files separator query = .error (.condition e) ∧
        e.position? = place) ↔
      ∃ e, ofQuery files' separator' query' = .error (.condition e) ∧
        e.position? = place := by
  simp only [ofQuery_eq_error_iff query hload,
    ofQuery_eq_error_iff query' hload']
  have htokens :
      (Condition.Reading.field.tokens t query.condition).map
          SetExpression.Token.emptied =
        (Condition.Reading.field.tokens t' query'.condition).map
          SetExpression.Token.emptied :=
    Condition.map_emptied_tokens rfl h
  rw [← SetExpression.evaluate_emptied_position, htokens,
    SetExpression.evaluate_emptied_position]

/-- A file that names two fields and has no rows, as bytes. -/
def headerFile : List UInt8 :=
  "x,y\n".toList.map fun c => c.toNat.toUInt8

/-- The table of `headerFile`. -/
def headerTable : Table :=
  .ofRows (.ofString "B") ["x", "y"] []

theorem sampleRefusals_share_position :
    Table.load (fun _ => .file Condition.sampleFile) (.ofString "A") " " =
      .ok Condition.sampleTable ∧
    Table.load (fun _ => .file headerFile) (.ofString "B") "," =
      .ok headerTable ∧
    Condition.SameForm 3
      ["(", "a", "=", "1", "xor", "b", "=", "5", ")", "AND", "c"]
      ["(", "z", "~", "or", "nor", "x", "-gt", "and", ")", "and", "y"] ∧
    ∃ e, ofQuery (fun _ => .file headerFile) "," ⟨["x"], "B",
          ["(", "z", "~", "or", "nor", "x", "-gt", "and", ")", "and", "y"]⟩ =
        .error (.condition e) ∧ e.position? = some 2 := by
  have hform : Condition.SameForm 3
      ["(", "a", "=", "1", "xor", "b", "=", "5", ")", "AND", "c"]
      ["(", "z", "~", "or", "nor", "x", "-gt", "and", ")", "and", "y"] :=
    ⟨by decide, by decide⟩
  have htable : Table.load (fun _ => .file Condition.sampleFile)
      (.ofString "A") " " = .ok Condition.sampleTable := rfl
  refine ⟨htable, rfl, hform, ?_⟩
  exact (refusal_depends_on_form
    ⟨["a"], "A", ["(", "a", "=", "1", "xor", "b", "=", "5", ")", "AND", "c"]⟩
    ⟨["x"], "B",
      ["(", "z", "~", "or", "nor", "x", "-gt", "and", ")", "and", "y"]⟩
    htable rfl hform (some 2)).1 ⟨_, rfl, rfl⟩

end Selection

end TableQuery

import TableQuery.Proofs.ResultLists
import TableQuery.SetExpression

/-!
# What can be shown of a refused token

A refusal names a token, and the complaint about it shows the token. A symbol
shows itself. A set is shown by its members, and a number that has too many
digits is not written, so a set with such a member cannot be shown and the
refusal has no complaint. `IndexSet.Writable` excludes this, and no more than
this: the only refusal without a complaint is one that names a set which is not
writable (`Error.exists_complaint_iff`).
-/

namespace TableQuery

/-- Every member has few enough digits to be written. -/
def IndexSet.Writable (s : IndexSet) : Prop :=
  ∀ i ∈ s, i.natAbs < Numeral.leastTooLong

/-- A number is less than the power with itself as the exponent. -/
theorem Numeral.lt_leastTooLong {n : Nat} (h : n ≤ maxWholeDigits) :
    n < leastTooLong := by
  have hpow : ∀ m, n ≤ m → n < Nat.pow 10 m := fun m hm =>
    Nat.lt_of_le_of_lt hm (Nat.lt_pow_self (by decide))
  unfold leastTooLong
  exact hpow maxWholeDigits h

theorem IndexSet.writable_ofList {xs : List Int}
    (h : ∀ i ∈ xs, i.natAbs ≤ Numeral.maxWholeDigits) :
    (IndexSet.ofList xs).Writable := fun i hi =>
  Numeral.lt_leastTooLong (h i (IndexSet.mem_ofList.1 hi))

theorem Numeral.exists_write_iff {n : Int} :
    (∃ text, write n = .ok text) ↔ n.natAbs < leastTooLong := by
  rw [write]
  split <;> simp [*]

namespace SetExpression

/-- A token that can be shown: a symbol, or a set of numbers that can be
written. -/
def Token.Writable : Token → Prop
  | .set s => s.Writable
  | .connective _ | .opening | .closing => True

theorem describe_set_eq (s : IndexSet) :
    (Token.set s).describe = (s.toList.mapM Numeral.write).map fun members =>
      "\x7b" ++ " ".intercalate members ++ "\x7d" := by
  rw [Token.describe]
  cases s.toList.mapM Numeral.write <;> rfl

theorem Token.exists_describe_iff {t : Token} :
    (∃ shown, t.describe = .ok shown) ↔ t.Writable := by
  match t with
  | .connective c => exact ⟨fun _ => trivial, fun _ => ⟨c.symbol, rfl⟩⟩
  | .opening => exact ⟨fun _ => trivial, fun _ => ⟨"(", rfl⟩⟩
  | .closing => exact ⟨fun _ => trivial, fun _ => ⟨")", rfl⟩⟩
  | .set s =>
      have hmembers : (∃ members, s.toList.mapM Numeral.write = .ok members) ↔
          s.Writable := by
        rw [exists_mapM_eq_ok_iff]
        exact forall₂_congr fun i _ => Numeral.exists_write_iff
      rw [Token.Writable, ← hmembers, describe_set_eq]
      cases s.toList.mapM Numeral.write with
      | error e => simp [Except.map]
      | ok members => simp [Except.map]

theorem complaint_of_describe {t : Token} {shown : String}
    (h : t.describe = .ok shown) (n : Nat) :
    (Error.unexpected t n).complaint =
      .ok ("Unexpected '" ++ shown ++ "' at position " ++ toString n ++
        " in WHERE clause") := by
  rw [Error.complaint, h]
  rfl

theorem exists_complaint_unexpected_iff {t : Token} {n : Nat} :
    (∃ text, (Error.unexpected t n).complaint = .ok text) ↔ t.Writable := by
  rw [← Token.exists_describe_iff]
  cases hshown : t.describe with
  | ok shown => simp [complaint_of_describe hshown n]
  | error e =>
      have hnone : (Error.unexpected t n).complaint = .error e := by
        rw [Error.complaint, hshown]
        rfl
      simp [hnone]

/-- What is refused is complained about, unless the complaint would show a set
that is not writable. -/
theorem Error.exists_complaint_iff {e : Error} :
    (∃ text, e.complaint = .ok text) ↔
      ∀ t n, e = .unexpected t n → t.Writable := by
  match e with
  | .unknownSymbol symbol => exact ⟨fun _ _ _ h => (nomatch h), fun _ => ⟨_, rfl⟩⟩
  | .unexpectedEnd => exact ⟨fun _ _ _ h => (nomatch h), fun _ => ⟨_, rfl⟩⟩
  | .unexpected t n =>
      rw [exists_complaint_unexpected_iff]
      constructor
      · rintro ht _ _ h
        cases h
        exact ht
      · exact fun h => h t n rfl

/-- The set of one number, the least that has too many digits. -/
def endlessSet : IndexSet :=
  .ofList [(Numeral.leastTooLong : Int)]

theorem not_writable_endlessSet : ¬ endlessSet.Writable := by
  intro h
  have hmem : (Numeral.leastTooLong : Int) ∈ endlessSet :=
    IndexSet.mem_ofList.2 List.mem_cons_self
  have hlt := h _ hmem
  rw [Int.natAbs_natCast] at hlt
  exact absurd hlt (Nat.lt_irrefl _)

end SetExpression

end TableQuery

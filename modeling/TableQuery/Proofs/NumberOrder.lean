import Mathlib.Order.Defs.LinearOrder
import TableQuery.Comparison
import TableQuery.Proofs.Rounding

/-!
# The order of numbers

The dashed comparisons hold of two texts by the numbers that these write, and
the numbers are compared by the values they stand for. The values lie on one
line (`ExtendedRat`, which is a linear order), whole numbers and binary64 ones
among each other and the infinities at its ends; so whatever is true of a linear
order is true of the comparisons. What is not a number has no place on the line,
though it is read from a text like a number. It is unequal to all numbers, and
that is the only way in which it compares.

`Consistent` says this of any relations between texts, one for each dashed
comparison. The comparisons are such relations because each holds of two values
exactly when these are so related (`holds_iff_onLine`), and where one of two
numbers has no value only `unequal` holds (`holds_iff_of_isNaN`).
-/

namespace TableQuery

/-- Of three things that say how two members of an order lie to each other just
one is the case. -/
theorem existsUnique_of_trichotomy {ι α : Type} [LinearOrder α] {x y : α}
    {l e g : ι} {p : ι → Prop} (hl : p l ↔ x < y) (he : p e ↔ x = y)
    (hg : p g ↔ y < x) : ∃! r, r ∈ [l, e, g] ∧ p r := by
  simp only [ExistsUnique, List.mem_cons, List.not_mem_nil, or_false]
  rcases lt_trichotomy x y with h | h | h
  · refine ⟨l, ⟨.inl rfl, hl.2 h⟩, ?_⟩
    rintro r ⟨rfl | rfl | rfl, hr⟩
    · rfl
    · exact absurd (he.1 hr) h.ne
    · exact absurd (hg.1 hr) h.asymm
  · refine ⟨e, ⟨.inr (.inl rfl), he.2 h⟩, ?_⟩
    rintro r ⟨rfl | rfl | rfl, hr⟩
    · exact absurd h (hl.1 hr).ne
    · rfl
    · exact absurd h (hg.1 hr).ne'
  · refine ⟨g, ⟨.inr (.inr rfl), hg.2 h⟩, ?_⟩
    rintro r ⟨rfl | rfl | rfl, hr⟩
    · exact absurd (hl.1 hr) h.asymm
    · exact absurd (he.1 hr) h.ne'
    · rfl

/-! ## The line of values -/

namespace ExtendedRat

theorem lt_irrefl (x : ExtendedRat) : ¬ x < x := by
  cases x with
  | bottom | top => exact id
  | rational q => exact Rat.lt_irrefl

theorem lt_trans : ∀ {x y z : ExtendedRat}, x < y → y < z → x < z
  | .rational p, .rational q, .rational _, h, h' =>
      LT.lt.trans (show p < q from h) h'
  | .bottom, _, .rational _, _, _ => trivial
  | .bottom, _, .top, _, _ => trivial
  | .rational _, _, .top, _, _ => trivial
  | .rational _, .bottom, .rational _, h, _ => absurd h (not_lt_bottom _)
  | .rational _, .top, .rational _, _, h' => absurd h' (not_top_lt _)
  | .top, y, _, h, _ => absurd h (not_top_lt y)
  | _, y, .bottom, _, h' => absurd h' (not_lt_bottom y)

-- Scoped, so that nothing that runs decides the order in a second way.
scoped instance : LinearOrder ExtendedRat where
  le x y := ¬ y < x
  lt x y := x < y
  le_refl := lt_irrefl
  le_trans x y z hxy hyz hzx := by
    by_cases hlt : x < y
    · exact hyz (lt_trans hzx hlt)
    · exact hyz (eq_of_not_lt hlt hxy ▸ hzx)
  lt_iff_le_not_ge x y :=
    ⟨fun h => ⟨fun h' => lt_irrefl x (lt_trans h h'), not_not_intro h⟩,
      fun h => Decidable.not_not.1 h.2⟩
  le_antisymm x y hxy hyx := eq_of_not_lt hyx hxy
  le_total x y := by
    by_cases hlt : y < x
    · exact .inr fun h => lt_irrefl x (lt_trans h hlt)
    · exact .inl hlt
  toDecidableLE x y := inferInstanceAs (Decidable ¬ y < x)
  toDecidableEq := inferInstance
  toDecidableLT := inferInstance

end ExtendedRat

/-! ## Texts as numbers -/

namespace Number

/-- A text writes a number. -/
def IsNumber (s : String) : Prop := ∃ n, read? s = some n

/-- A text writes the number that is not a number. -/
def IsNaN (s : String) : Prop := read? s = some (.binary .nan)

/-- The value of the number that a text writes. -/
def valueOf? (s : String) : Option ExtendedRat := (read? s).bind value?

instance (s : String) : Decidable (IsNumber s) :=
  decidable_of_iff ((read? s).isSome = true) Option.isSome_iff_exists

instance (s : String) : Decidable (IsNaN s) :=
  inferInstanceAs (Decidable (read? s = some (.binary .nan)))

theorem value?_eq_none_iff {n : Number} : n.value? = none ↔ n = .binary .nan := by
  cases n with
  | whole n => exact iff_of_false nofun nofun
  | binary x =>
      match x with
      | .finite _ _ _ | .infinite true | .infinite false =>
          exact iff_of_false nofun nofun
      | .nan => exact iff_of_true rfl rfl

/-- Without a value nothing is less and nothing the same. -/
theorem not_related_of_value?_eq_none {m n : Number}
    (h : m.value? = none ∨ n.value? = none) :
    m.isSame n = false ∧ m.isLess n = false := by
  rw [isSame, isLess]
  rcases h with h | h
  · rw [h]
    exact ⟨rfl, rfl⟩
  · rw [h]
    cases m.value? with
    | none | some x => exact ⟨rfl, rfl⟩

/-- Every number but the one that is not a number has a value. -/
theorem exists_valueOf?_iff {s : String} :
    (∃ x, valueOf? s = some x) ↔ IsNumber s ∧ ¬ IsNaN s := by
  rw [valueOf?, IsNumber, IsNaN]
  cases read? s with
  | none => exact iff_of_false nofun nofun
  | some n =>
      rw [Option.bind_some, ← Option.ne_none_iff_exists', Ne, value?_eq_none_iff]
      simp

end Number

open scoped ExtendedRat

/-- The relation of values that a relation of numbers stands for. -/
def NumberRelation.OnLine (r : NumberRelation) (x y : ExtendedRat) : Prop :=
  match r with
  | .equal => x = y
  | .unequal => x ≠ y
  | .greater => y < x
  | .greaterOrEqual => y ≤ x
  | .less => x < y
  | .lessOrEqual => x ≤ y

open Number (IsNumber IsNaN valueOf? exists_valueOf?_iff)

/-! ## Relations between texts -/

/-- Relations between texts that one order of the numbers makes. -/
structure Consistent (stands : NumberRelation → String → String → Prop) :
    Prop where
  isNumber : ∀ {r a b}, stands r a b → IsNumber a ∧ IsNumber b
  /-- What is compared are the values themselves, of whatever kinds the two
  numbers are. -/
  byValue : ∀ {a b x y}, valueOf? a = some x → valueOf? b = some y →
    (stands .less a b ↔ x < y) ∧ (stands .equal a b ↔ x = y)
  trichotomy : ∀ {a b}, IsNumber a → IsNumber b → ¬ IsNaN a → ¬ IsNaN b →
    ∃! r, r ∈ [NumberRelation.less, .equal, .greater] ∧ stands r a b
  /-- The other three comparisons come down to these. -/
  others : ∀ {a b}, IsNumber a → IsNumber b → ¬ IsNaN a → ¬ IsNaN b →
    (stands .greaterOrEqual a b ↔ stands .greater a b ∨ stands .equal a b) ∧
    (stands .lessOrEqual a b ↔ stands .less a b ∨ stands .equal a b) ∧
    (stands .unequal a b ↔ ¬ stands .equal a b)
  /-- What is not a number is only unequal to numbers. -/
  nan : ∀ {a b}, IsNumber a → IsNumber b → IsNaN a ∨ IsNaN b →
    ∀ r, stands r a b ↔ r = .unequal
  converse : ∀ {a b}, stands .less a b ↔ stands .greater b a
  less_trans : ∀ {a b c}, stands .less a b → stands .less b c → stands .less a c
  equal_equivalence :
    Equivalence fun a b : { s // IsNumber s ∧ ¬ IsNaN s } => stands .equal a b
  less_congr : ∀ {a a' b b'}, stands .equal a a' → stands .equal b b' →
    (stands .less a b ↔ stands .less a' b')

namespace Comparison

section

variable {r : NumberRelation} {a b : String} {x y : ExtendedRat}

theorem isNumber_of_holds (h : (numeric r).holds a b = true) :
    IsNumber a ∧ IsNumber b := by
  rw [holds] at h
  split at h
  · next m n ha hb => exact ⟨⟨m, ha⟩, ⟨n, hb⟩⟩
  · cases h

theorem holds_iff_onLine (ha : valueOf? a = some x) (hb : valueOf? b = some y) :
    (numeric r).holds a b = true ↔ r.OnLine x y := by
  obtain ⟨m, hreada, hm⟩ := Option.bind_eq_some_iff.1 ha
  obtain ⟨n, hreadb, hn⟩ := Option.bind_eq_some_iff.1 hb
  have hsame : x = y ↔ y = x := eq_comm
  simp only [holds, hreada, hreadb]
  cases r with
  | equal | unequal | greater | less =>
      simp [NumberRelation.holds, NumberRelation.OnLine, Number.isSame,
        Number.isLess, hm, hn]
  | greaterOrEqual | lessOrEqual =>
      simp [NumberRelation.holds, NumberRelation.OnLine, Number.isSame,
        Number.isLess, hm, hn, le_iff_lt_or_eq, hsame]

/-- Where one of two numbers has no value nothing holds but that they are
unequal. -/
theorem holds_iff_of_isNaN (ha : IsNumber a) (hb : IsNumber b)
    (h : IsNaN a ∨ IsNaN b) : (numeric r).holds a b = true ↔ r = .unequal := by
  obtain ⟨m, hm⟩ := ha
  obtain ⟨n, hn⟩ := hb
  have hnone : m.value? = none ∨ n.value? = none := by
    rw [IsNaN, IsNaN, hm, hn, Option.some.injEq, Option.some.injEq] at h
    exact h.imp Number.value?_eq_none_iff.2 Number.value?_eq_none_iff.2
  obtain ⟨hsame, hless⟩ := Number.not_related_of_value?_eq_none hnone
  have hgreater := (Number.not_related_of_value?_eq_none hnone.symm).2
  simp only [holds, hm, hn]
  cases r with
  | equal | unequal | greater | greaterOrEqual | less | lessOrEqual =>
      simp [NumberRelation.holds, hsame, hless, hgreater]

theorem holds_iff (hr : r ≠ .unequal) :
    (numeric r).holds a b = true ↔
      ∃ x y, valueOf? a = some x ∧ valueOf? b = some y ∧ r.OnLine x y := by
  constructor
  · intro h
    obtain ⟨ha, hb⟩ := isNumber_of_holds h
    have hnan : ¬ (IsNaN a ∨ IsNaN b) := fun hnan =>
      hr ((holds_iff_of_isNaN ha hb hnan).1 h)
    rw [not_or] at hnan
    obtain ⟨x, hx⟩ := exists_valueOf?_iff.2 ⟨ha, hnan.1⟩
    obtain ⟨y, hy⟩ := exists_valueOf?_iff.2 ⟨hb, hnan.2⟩
    exact ⟨x, y, hx, hy, (holds_iff_onLine hx hy).1 h⟩
  · rintro ⟨x, y, hx, hy, h⟩
    exact (holds_iff_onLine hx hy).2 h

theorem equal_iff :
    (numeric .equal).holds a b = true ↔
      ∃ x, valueOf? a = some x ∧ valueOf? b = some x := by
  rw [holds_iff (by decide)]
  constructor
  · rintro ⟨x, y, hx, hy, rfl⟩
    exact ⟨x, hx, hy⟩
  · rintro ⟨x, hx, hy⟩
    exact ⟨x, x, hx, hy, rfl⟩

end

/-- The dashed comparisons are relations that one order of the numbers makes. -/
theorem numeric_comparisons_are_consistent :
    Consistent fun r a b => (numeric r).holds a b = true where
  isNumber := isNumber_of_holds
  byValue ha hb := ⟨holds_iff_onLine ha hb, holds_iff_onLine ha hb⟩
  trichotomy ha hb hna hnb := by
    obtain ⟨x, hx⟩ := exists_valueOf?_iff.2 ⟨ha, hna⟩
    obtain ⟨y, hy⟩ := exists_valueOf?_iff.2 ⟨hb, hnb⟩
    exact existsUnique_of_trichotomy (holds_iff_onLine hx hy)
      (holds_iff_onLine hx hy) (holds_iff_onLine hx hy)
  others ha hb hna hnb := by
    obtain ⟨x, hx⟩ := exists_valueOf?_iff.2 ⟨ha, hna⟩
    obtain ⟨y, hy⟩ := exists_valueOf?_iff.2 ⟨hb, hnb⟩
    simp only [holds_iff_onLine hx hy]
    exact ⟨le_iff_lt_or_eq.trans (or_congr_right eq_comm), le_iff_lt_or_eq, Iff.rfl⟩
  nan ha hb hnan r := holds_iff_of_isNaN ha hb hnan
  converse := by
    intro a b
    rw [holds_iff (by decide), holds_iff (by decide), exists_comm]
    simp only [and_left_comm, NumberRelation.OnLine]
  less_trans := by
    intro a b c hab hbc
    rw [holds_iff (by decide)] at hab hbc ⊢
    obtain ⟨x, y, hx, hy, hxy⟩ := hab
    obtain ⟨y', z, hy', hz, hyz⟩ := hbc
    obtain rfl := Option.some.inj (hy.symm.trans hy')
    exact ⟨x, z, hx, hz, lt_trans hxy hyz⟩
  equal_equivalence := by
    constructor
    · rintro ⟨a, ha⟩
      obtain ⟨x, hx⟩ := exists_valueOf?_iff.2 ha
      exact equal_iff.2 ⟨x, hx, hx⟩
    · intro a b hab
      obtain ⟨x, hx, hy⟩ := equal_iff.1 hab
      exact equal_iff.2 ⟨x, hy, hx⟩
    · intro a b c hab hbc
      obtain ⟨x, hx, hy⟩ := equal_iff.1 hab
      obtain ⟨y, hy', hz⟩ := equal_iff.1 hbc
      obtain rfl := Option.some.inj (hy.symm.trans hy')
      exact equal_iff.2 ⟨x, hx, hz⟩
  less_congr := by
    intro a a' b b' ha hb
    obtain ⟨x, hx, hx'⟩ := equal_iff.1 ha
    obtain ⟨y, hy, hy'⟩ := equal_iff.1 hb
    exact (holds_iff_onLine hx hy).trans (holds_iff_onLine hx' hy').symm

/-- A binary64 number, the whole number above it that is rounded to it, and a
number that is rounded to infinity stand in this order; what is not a number
stands in none with them. -/
theorem neighbours_are_ordered :
    (numeric .less).holds "9007199254740992.0" "9007199254740993" = true ∧
    (numeric .less).holds "9007199254740993" "1e999" = true ∧
    (numeric .less).holds "9007199254740992.0" "1e999" = true ∧
    (IsNumber "1e999" ∧ IsNaN "nan") ∧
    ∀ r, (numeric r).holds "nan" "1e999" = true ↔ r = .unequal := by
  have hlower :
      (numeric .less).holds "9007199254740992.0" "9007199254740993" = true := by
    decide +kernel
  have hupper : (numeric .less).holds "9007199254740993" "1e999" = true := by
    decide +kernel
  have hinfinite : IsNumber "1e999" := by decide +kernel
  have hnan : IsNaN "nan" := by decide +kernel
  exact ⟨hlower, hupper,
    numeric_comparisons_are_consistent.less_trans hlower hupper,
    ⟨hinfinite, hnan⟩,
    numeric_comparisons_are_consistent.nan ⟨_, hnan⟩ hinfinite (.inl hnan)⟩

end Comparison

end TableQuery

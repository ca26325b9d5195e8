import Mathlib.Algebra.Order.Field.Power
import Mathlib.Tactic.FieldSimp
import Mathlib.Tactic.Linarith
import Mathlib.Tactic.NormNum
import Mathlib.Tactic.Positivity
import Mathlib.Tactic.Ring
import TableQuery.Number

/-!
# Rounding to binary64

Rounding keeps order, which is all that comparing rounded numbers needs: of two
ratios the greater one is never rounded to less (`IsRounded.mono`, and
`clamp_mono` for what becomes infinite), and a ratio that is a binary64 number
already is rounded to itself (`IsValue.isRounded_self`).

Both come from what rounding does to one number, and `RoundsTo` says that apart
from how the exponent and the quotient are found. The exponent is the least one
that leaves room for the number, and the significand is the nearest whole number
in its units. For one exponent order is kept because nearest whole numbers keep
it. For two exponents the units change only past a power of two, which is a
whole number in either, so that nothing is rounded across it.
-/

namespace TableQuery

namespace ExtendedRat

theorem not_top_lt (x : ExtendedRat) : ¬ top < x := by
  cases x <;> exact id

theorem not_lt_bottom (x : ExtendedRat) : ¬ x < bottom := by
  cases x <;> exact id

theorem eq_of_not_lt : ∀ {x y : ExtendedRat}, ¬ x < y → ¬ y < x → x = y
  | .bottom, .bottom, _, _ => rfl
  | .top, .top, _, _ => rfl
  | .rational _, .rational _, h, h' =>
      congrArg rational (Rat.le_antisymm (Rat.not_lt.mp h') (Rat.not_lt.mp h))
  | .bottom, .rational _, h, _ => absurd trivial h
  | .bottom, .top, h, _ => absurd trivial h
  | .rational _, .top, h, _ => absurd trivial h
  | .rational _, .bottom, _, h' => absurd trivial h'
  | .top, .bottom, _, h' => absurd trivial h'
  | .top, .rational _, _, h' => absurd trivial h'

end ExtendedRat

namespace Binary64

/-! ## Nearest whole numbers -/

/-- A natural number is nearest to a rational one, and even where another one is
as near. -/
structure NearestEven (x : ℚ) (k : ℕ) : Prop where
  le : (k : ℚ) ≤ x + 1 / 2
  ge : x ≤ k + 1 / 2
  even_of_tie : (k : ℚ) = x + 1 / 2 ∨ x = k + 1 / 2 → k % 2 = 0

theorem nearestEven_natCast (n : ℕ) : NearestEven n n where
  le := by linarith
  ge := by linarith
  even_of_tie h := by rcases h with h | h <;> linarith

theorem NearestEven.mono {x y : ℚ} {k l : ℕ} (hk : NearestEven x k)
    (hl : NearestEven y l) (h : x ≤ y) : k ≤ l := by
  by_contra hlt
  -- Then both are ties, halfway between two neighbours, which are not both even.
  have hsucc : (l : ℚ) + 1 ≤ k := by exact_mod_cast Nat.lt_of_not_le hlt
  have hle := hk.le
  have hge := hl.ge
  have hkeven := hk.even_of_tie (.inl (by linarith))
  have hleven := hl.even_of_tie (.inr (by linarith))
  have heq : k = l + 1 := by
    have : (k : ℚ) = l + 1 := by linarith
    exact_mod_cast this
  omega

theorem NearestEven.eq_natCast {n k : ℕ} (h : NearestEven n k) : k = n :=
  Nat.le_antisymm (h.mono (nearestEven_natCast n) le_rfl)
    ((nearestEven_natCast n).mono h le_rfl)

theorem nearestEven_roundQuotient (num : ℕ) {den : ℕ} (hden : 0 < den) :
    NearestEven ((num : ℚ) / den) (roundQuotient num den) := by
  have hpos : (0 : ℚ) < den := by exact_mod_cast hden
  -- The remainder is a part `f` of the divisor.
  obtain ⟨f, hf⟩ : ∃ f : ℚ, f = ((num % den : ℕ) : ℚ) / den := ⟨_, rfl⟩
  have hfden : f * den = (num % den : ℕ) := by
    rw [hf, div_mul_cancel₀ _ hpos.ne']
  have hx : (num : ℚ) / den = (num / den : ℕ) + f := by
    rw [hf, div_eq_iff hpos.ne', add_mul, div_mul_cancel₀ _ hpos.ne']
    exact_mod_cast (Nat.div_add_mod' num den).symm
  have hf₀ : 0 ≤ f := by rw [hf]; positivity
  have hf₁ : f < 1 := by
    rw [hf, div_lt_one hpos]
    exact_mod_cast Nat.mod_lt num hden
  rw [hx, roundQuotient]
  generalize num / den = n
  split
  · next h =>
      have hhalf : f < 1 / 2 := by
        have : 2 * ((num % den : ℕ) : ℚ) < den := by exact_mod_cast h
        rw [← hfden] at this
        nlinarith
      exact ⟨by linarith, by linarith, by rintro (h | h) <;> linarith⟩
  split
  · next h =>
      have hhalf : 1 / 2 < f := by
        have : (den : ℚ) < 2 * ((num % den : ℕ) : ℚ) := by exact_mod_cast h
        rw [← hfden] at this
        nlinarith
      refine ⟨?_, ?_, ?_⟩
      · push_cast; linarith
      · push_cast; linarith
      · push_cast; rintro (h | h) <;> linarith
  · next h₁ h₂ =>
      have hhalf : f = 1 / 2 := by
        have : 2 * ((num % den : ℕ) : ℚ) = den := by
          exact_mod_cast Nat.le_antisymm (Nat.le_of_not_lt h₂) (Nat.le_of_not_lt h₁)
        rw [← hfden] at this
        field_simp
        nlinarith
      have hparity : ((n % 2 : ℕ) : ℚ) ≤ 1 := by
        exact_mod_cast Nat.le_of_lt_succ (Nat.mod_lt n (by decide))
      have hparity₀ : (0 : ℚ) ≤ ((n % 2 : ℕ) : ℚ) := by positivity
      refine ⟨?_, ?_, fun _ => by omega⟩
      · push_cast at *; linarith
      · push_cast at *; linarith

/-! ## The exponent of a number

The least exponent in use makes room for every smaller number. Above it the
significand has no more than the 53 bits it needs. -/

/-- Of all exponents that binary64 numbers have, `e` is the least one that
leaves room for `q`, and `k` is `q` rounded in its units. -/
structure RoundsTo (q : ℚ) (e : ℤ) (k : ℕ) : Prop where
  least : minExponent ≤ e
  lt : q < 2 ^ (e + 53)
  ge : minExponent < e → 2 ^ (e + 52) ≤ q
  nearest : NearestEven (q / 2 ^ e) k

section RoundsTo

variable {q q' : ℚ} {e e' : ℤ} {k k' : ℕ}

theorem RoundsTo.le_two_pow (h : RoundsTo q e k) : k ≤ 2 ^ 53 := by
  have hroom : q / 2 ^ e ≤ ((2 ^ 53 : ℕ) : ℚ) := by
    rw [div_le_iff₀ (by positivity)]
    have hlt := h.lt
    rw [zpow_add₀ two_ne_zero] at hlt
    push_cast
    linarith
  exact h.nearest.mono (nearestEven_natCast _) hroom

theorem RoundsTo.two_pow_le (h : RoundsTo q e k) (he : minExponent < e) : 2 ^ 52 ≤ k := by
  have hroom : ((2 ^ 52 : ℕ) : ℚ) ≤ q / 2 ^ e := by
    rw [le_div_iff₀ (by positivity)]
    have hge := h.ge he
    rw [zpow_add₀ two_ne_zero] at hge
    push_cast
    linarith
  exact (nearestEven_natCast _).mono h.nearest hroom

theorem RoundsTo.mono (h : RoundsTo q e k) (h' : RoundsTo q' e' k') (hle : q ≤ q') :
    (k : ℚ) * 2 ^ e ≤ k' * 2 ^ e' := by
  rcases lt_trichotomy e e' with he | rfl | he
  · -- The power of two at the start of the units of `e'` lies between the two.
    have hk : (k : ℚ) ≤ 2 ^ 53 := by exact_mod_cast h.le_two_pow
    have hk' : (2 ^ 52 : ℚ) ≤ k' := by
      exact_mod_cast h'.two_pow_le (lt_of_le_of_lt h.least he)
    calc (k : ℚ) * 2 ^ e ≤ 2 ^ 53 * 2 ^ e := by gcongr
      _ = 2 ^ 52 * 2 ^ (e + 1) := by rw [zpow_add_one₀ two_ne_zero]; ring
      _ ≤ 2 ^ 52 * 2 ^ e' := by
        gcongr
        · exact one_le_two
        · omega
      _ ≤ k' * 2 ^ e' := by gcongr
  · have hdiv : q / 2 ^ e ≤ q' / 2 ^ e := by gcongr
    have hk : (k : ℚ) ≤ k' := by exact_mod_cast h.nearest.mono h'.nearest hdiv
    gcongr
  · -- Then `q` is too great for the units of `e'`, and `q'` is not.
    have hge := h.ge (lt_of_le_of_lt h'.least he)
    have hpow : (2 : ℚ) ^ (e' + 53) ≤ 2 ^ (e + 52) :=
      zpow_le_zpow_right₀ one_le_two (by omega)
    linarith [h'.lt]

theorem RoundsTo.eq_of_fits (h : RoundsTo q e k) {m : ℕ} {f : ℤ} (hm : m < 2 ^ 53)
    (hf : minExponent ≤ f) (hq : q = m * 2 ^ f) : (k : ℚ) * 2 ^ e = q := by
  have hef : e ≤ f := by
    by_contra hfe
    have hge := h.ge (by omega)
    have hlt : q < 2 ^ (f + 53) := by
      have hm' : (m : ℚ) < 2 ^ 53 := by exact_mod_cast hm
      rw [hq, zpow_add₀ two_ne_zero, mul_comm]
      gcongr
      exact_mod_cast hm'
    have hpow : (2 : ℚ) ^ (f + 53) ≤ 2 ^ (e + 52) :=
      zpow_le_zpow_right₀ one_le_two (by omega)
    linarith
  have hunits : q / 2 ^ e = ((m * 2 ^ (f - e).toNat : ℕ) : ℚ) := by
    rw [hq, mul_div_assoc, ← zpow_sub₀ two_ne_zero]
    push_cast
    rw [← zpow_natCast, Int.toNat_of_nonneg (by omega)]
  have hnearest := h.nearest
  rw [hunits] at hnearest
  rw [hnearest.eq_natCast, ← hunits, div_mul_cancel₀ _ (by positivity)]

end RoundsTo

/-! ## What the search for the exponent finds -/

/-- A power of two with an exponent of either sign as a quotient of two powers
of two without. -/
theorem two_pow_toNat (e : ℤ) : (2 : ℚ) ^ e.toNat = 2 ^ e * 2 ^ (-e).toNat := by
  rw [← zpow_natCast, ← zpow_natCast, ← zpow_add₀ two_ne_zero]
  congr 1
  omega

theorem cast_shiftLeft (m n : ℕ) : ((m <<< n : ℕ) : ℚ) = m * 2 ^ n := by
  rw [Nat.shiftLeft_eq]
  push_cast
  rfl

/-- Scaling by a power of two goes to the numerator or to the denominator. -/
theorem shifted_div_shifted (num den : ℕ) (e : ℤ) :
    ((num <<< (-e).toNat : ℕ) : ℚ) / (den <<< e.toNat : ℕ) = num / den / 2 ^ e := by
  rw [cast_shiftLeft, cast_shiftLeft, two_pow_toNat e]
  field_simp

theorem binade_spec {num den : ℕ} (hnum : num ≠ 0) (hden : den ≠ 0) :
    (2 : ℚ) ^ binade num den ≤ num / den ∧ (num : ℚ) / den < 2 ^ (binade num den + 1) := by
  have hpos : (0 : ℚ) < den := by positivity
  have hnum₁ : (2 : ℚ) ^ (num.log2 : ℤ) ≤ num := by exact_mod_cast Nat.log2_self_le hnum
  have hnum₂ : (num : ℚ) < 2 ^ (num.log2 + 1 : ℤ) := by exact_mod_cast Nat.lt_log2_self
  have hden₁ : (2 : ℚ) ^ (den.log2 : ℤ) ≤ den := by exact_mod_cast Nat.log2_self_le hden
  have hden₂ : (den : ℚ) < 2 ^ (den.log2 + 1 : ℤ) := by exact_mod_cast Nat.lt_log2_self
  have hupper : (num : ℚ) / den < 2 ^ ((num.log2 : ℤ) - den.log2 + 1) := by
    rw [div_lt_iff₀ hpos]
    calc (num : ℚ) < 2 ^ (num.log2 + 1 : ℤ) := hnum₂
      _ = 2 ^ ((num.log2 : ℤ) - den.log2 + 1) * 2 ^ (den.log2 : ℤ) := by
        rw [← zpow_add₀ two_ne_zero]; congr 1; ring
      _ ≤ 2 ^ ((num.log2 : ℤ) - den.log2 + 1) * den := by gcongr
  have hlower : (2 : ℚ) ^ ((num.log2 : ℤ) - den.log2 - 1) ≤ num / den := by
    rw [le_div_iff₀ hpos]
    calc (2 : ℚ) ^ ((num.log2 : ℤ) - den.log2 - 1) * den
        ≤ 2 ^ ((num.log2 : ℤ) - den.log2 - 1) * 2 ^ (den.log2 + 1 : ℤ) := by gcongr
      _ = 2 ^ (num.log2 : ℤ) := by rw [← zpow_add₀ two_ne_zero]; congr 1; ring
      _ ≤ num := hnum₁
  rw [binade]
  generalize (num.log2 : ℤ) - den.log2 = estimate at *
  -- The test compares the number with the power of two of the estimate.
  have htest : den <<< estimate.toNat ≤ num <<< (-estimate).toNat ↔
      (2 : ℚ) ^ estimate ≤ num / den := by
    rw [← Nat.cast_le (α := ℚ), cast_shiftLeft, cast_shiftLeft, two_pow_toNat, le_div_iff₀ hpos,
      ← mul_assoc, mul_le_mul_iff_left₀ (by positivity), mul_comm]
  split
  · next h => exact ⟨htest.mp h, hupper⟩
  · next h =>
      rw [sub_add_cancel]
      exact ⟨hlower, lt_of_not_ge (mt htest.mpr h)⟩

/-! ## Signs and the ends of the line

A rounded number whose magnitude reaches `lineEnd` is an infinity. -/

/-- A number with its sign put back. -/
def withSign (negative : Bool) (q : ℚ) : ℚ := if negative then -q else q

/-- The power of two above all finite binary64 numbers. -/
@[irreducible] def lineEnd : ℚ := 2 ^ (maxExponent + 53)

theorem lineEnd_pos : 0 < lineEnd := by
  rw [lineEnd]
  positivity

/-- A rounded number, or the end of the line that it lies beyond. -/
def clamp (q : ℚ) : ExtendedRat :=
  if lineEnd ≤ q then .top else if q ≤ -lineEnd then .bottom else .rational q

theorem clamp_eq_top {q : ℚ} (h : lineEnd ≤ q) : clamp q = .top := if_pos h

theorem clamp_eq_bottom {q : ℚ} (h : q ≤ -lineEnd) : clamp q = .bottom := by
  have hpos := lineEnd_pos
  rw [clamp, if_neg (by linarith), if_pos h]

theorem clamp_eq_rational {q : ℚ} (hbottom : -lineEnd < q) (htop : q < lineEnd) :
    clamp q = .rational q := by
  rw [clamp, if_neg (not_le.mpr htop), if_neg (not_le.mpr hbottom)]

theorem clamp_mono {q q' : ℚ} (h : q ≤ q') : ¬ clamp q' < clamp q := by
  by_cases htop : lineEnd ≤ q'
  · rw [clamp_eq_top htop]
    exact ExtendedRat.not_top_lt _
  by_cases hbottom : q ≤ -lineEnd
  · rw [clamp_eq_bottom hbottom]
    exact ExtendedRat.not_lt_bottom _
  · rw [not_le] at htop hbottom
    rw [clamp_eq_rational (hbottom.trans_le h) htop, clamp_eq_rational hbottom (h.trans_lt htop)]
    exact not_lt_of_ge h

theorem ratio_eq (negative : Bool) (significand : ℕ) (exponent : ℤ) :
    ratio negative significand exponent = withSign negative (significand * 2 ^ exponent) := by
  have hmagnitude : ((significand <<< exponent.toNat : ℕ) : ℚ) / (1 <<< (-exponent).toNat : ℕ) =
      significand * 2 ^ exponent := by
    rw [cast_shiftLeft, cast_shiftLeft, two_pow_toNat, ← mul_assoc, Nat.cast_one, one_mul,
      mul_div_cancel_right₀ _ (by positivity)]
  rw [ratio, Rat.mkRat_eq_div, withSign]
  cases negative with
  | false => exact_mod_cast hmagnitude
  | true => rw [if_pos rfl, if_pos rfl, Int.cast_neg, Int.cast_natCast, neg_div, hmagnitude]

theorem lt_lineEnd {significand : ℕ} {exponent : ℤ} (hlt : significand < 2 ^ 53)
    (hexp : exponent ≤ maxExponent) : (significand : ℚ) * 2 ^ exponent < lineEnd := by
  have hsig : (significand : ℚ) < 2 ^ 53 := by exact_mod_cast hlt
  calc (significand : ℚ) * 2 ^ exponent < 2 ^ 53 * 2 ^ exponent := by gcongr
    _ ≤ 2 ^ 53 * 2 ^ maxExponent := by
      gcongr
      exact one_le_two
    _ = lineEnd := by rw [lineEnd, zpow_add₀ two_ne_zero, mul_comm]; rfl

theorem lineEnd_le {significand : ℕ} {exponent : ℤ} (hge : 2 ^ 52 ≤ significand)
    (hexp : maxExponent < exponent) : lineEnd ≤ (significand : ℚ) * 2 ^ exponent := by
  have hsig : (2 ^ 52 : ℚ) ≤ significand := by exact_mod_cast hge
  calc lineEnd = 2 ^ 52 * 2 ^ (maxExponent + 1) := by
        rw [lineEnd, ← zpow_natCast, ← zpow_add₀ two_ne_zero]
        rfl
    _ ≤ significand * 2 ^ exponent := by
      gcongr
      · exact one_le_two
      · exact hexp

theorem clamp_of_lt {q : ℚ} (hnonneg : 0 ≤ q) (h : q < lineEnd) (negative : Bool) :
    clamp (withSign negative q) = .rational (withSign negative q) := by
  have hpos := lineEnd_pos
  cases negative with
  | false => exact clamp_eq_rational (show -lineEnd < q by linarith) h
  | true => exact clamp_eq_rational (neg_lt_neg h) (show -q < lineEnd by linarith)

/-- A significand with an exponent has the value they write, except that an
exponent too great for a finite number puts it beyond the end of the line. -/
theorem value?_ofParts (negative : Bool) {significand : ℕ} {exponent : ℤ}
    (hlt : significand < 2 ^ 53) (hge : maxExponent < exponent → 2 ^ 52 ≤ significand) :
    (if maxExponent < exponent then infinite negative
      else finite negative significand exponent).value? =
      some (clamp (withSign negative (significand * 2 ^ exponent))) := by
  split
  · next hexp =>
      have hend := lineEnd_le (hge hexp) hexp
      cases negative with
      | false => exact congrArg some (clamp_eq_top hend).symm
      | true => exact congrArg some (clamp_eq_bottom (neg_le_neg hend)).symm
  · next hexp =>
      rw [value?, ratio_eq, clamp_of_lt (by positivity) (lt_lineEnd hlt (not_lt.mp hexp))]

/-! ## The number nearest to a ratio -/

/-- `w` is `p` rounded, with as many exponents above as it takes. -/
def IsRounded (p w : ℚ) : Prop :=
  ∃ (e : ℤ) (k : ℕ), RoundsTo |p| e k ∧ w = withSign (p < 0) (k * 2 ^ e)

theorem IsRounded.mono {p p' w w' : ℚ} (h : IsRounded p w) (h' : IsRounded p' w')
    (hle : p ≤ p') : w ≤ w' := by
  obtain ⟨e, k, hround, rfl⟩ := h
  obtain ⟨e', k', hround', rfl⟩ := h'
  have hnonneg : 0 ≤ (k : ℚ) * 2 ^ e := by positivity
  have hnonneg' : 0 ≤ (k' : ℚ) * 2 ^ e' := by positivity
  simp only [withSign, decide_eq_true_eq]
  by_cases hp : p < 0
  · rw [if_pos hp]
    by_cases hp' : p' < 0
    · have habs : |p'| ≤ |p| := by
        rw [abs_of_neg hp, abs_of_neg hp']
        linarith
      rw [if_pos hp']
      linarith [hround'.mono hround habs]
    · rw [if_neg hp']
      linarith
  · have hp' : ¬ p' < 0 := by linarith
    have habs : |p| ≤ |p'| := by
      rwa [abs_of_nonneg (not_lt.mp hp), abs_of_nonneg (not_lt.mp hp')]
    rw [if_neg hp, if_neg hp']
    exact hround.mono hround' habs

/-- Zero rounds to zero, so its sign makes no difference. -/
theorem isRounded_withSign {q : ℚ} {e : ℤ} {k : ℕ} (h : RoundsTo q e k) (hq : 0 ≤ q)
    (negative : Bool) : IsRounded (withSign negative q) (withSign negative (k * 2 ^ e)) := by
  refine ⟨e, k, ?_, ?_⟩
  · have habs : |withSign negative q| = q := by
      cases negative with
      | false => exact abs_of_nonneg hq
      | true => exact (abs_neg q).trans (abs_of_nonneg hq)
    rwa [habs]
  · rcases hq.eq_or_lt with rfl | hpos
    · have hzero : (k : ℚ) * 2 ^ e = 0 :=
        h.eq_of_fits (m := 0) (by norm_num) le_rfl (by simp)
      simp [withSign, hzero]
    · cases negative with
      | false => simp [withSign, hpos.le]
      | true => simp [withSign, hpos]

theorem roundsTo_zero : RoundsTo 0 minExponent 0 where
  least := le_rfl
  lt := by positivity
  ge h := absurd h (lt_irrefl _)
  nearest := by simpa using nearestEven_natCast 0

theorem roundsTo_binade {num den : ℕ} (hnum : num ≠ 0) (hden : den ≠ 0) (e : ℤ)
    (he : e = max minExponent (binade num den - 52)) :
    RoundsTo (num / den) e (roundQuotient (num <<< (-e).toNat) (den <<< e.toNat)) := by
  obtain ⟨hlower, hupper⟩ := binade_spec hnum hden
  have hshift : 0 < den <<< e.toNat := by
    rw [Nat.shiftLeft_eq]
    positivity
  refine ⟨by omega, hupper.trans_le ?_, fun hmin => le_trans ?_ hlower, ?_⟩
  · exact zpow_le_zpow_right₀ one_le_two (by omega)
  · exact zpow_le_zpow_right₀ one_le_two (by omega)
  · rw [← shifted_div_shifted]
    exact nearestEven_roundQuotient _ hshift

theorem value?_ofRatio (negative : Bool) (num : ℕ) {den : ℕ} (hden : den ≠ 0) :
    ∃ w, IsRounded (withSign negative (num / den)) w ∧
      (ofRatio negative num den).value? = some (clamp w) := by
  by_cases hnum : num = 0
  · refine ⟨withSign negative 0, ?_, ?_⟩
    · simpa [hnum] using isRounded_withSign roundsTo_zero le_rfl negative
    · have hzero : (0 : ℕ) < 2 ^ 53 := by positivity
      have hexp : ¬ maxExponent < minExponent := by decide
      have hvalue := value?_ofParts negative hzero fun h => absurd h hexp
      rw [Nat.cast_zero, zero_mul, if_neg hexp] at hvalue
      rw [ofRatio, if_pos hnum, hvalue]
  · obtain ⟨e, he⟩ : ∃ e, e = max minExponent (binade num den - 52) := ⟨_, rfl⟩
    have hround := roundsTo_binade hnum hden e he
    rw [ofRatio, if_neg hnum, ← he]
    dsimp only
    generalize roundQuotient (num <<< (-e).toNat) (den <<< e.toNat) = k at *
    refine ⟨_, isRounded_withSign hround (by positivity) negative, ?_⟩
    by_cases hcarry : k = 2 ^ 53
    · -- The significand of one bit too many is halved, and its value stays.
      have hvalue : (k : ℚ) * 2 ^ e = (2 ^ 52 : ℕ) * 2 ^ (e + 1) := by
        rw [hcarry, zpow_add_one₀ two_ne_zero]
        push_cast
        ring
      rw [hvalue, if_pos (show k = 1 <<< 53 from hcarry)]
      exact value?_ofParts negative (show 2 ^ 52 < 2 ^ 53 by norm_num) (fun _ => le_rfl)
    · rw [if_neg (show ¬ k = 1 <<< 53 from hcarry)]
      exact value?_ofParts negative (lt_of_le_of_ne hround.le_two_pow hcarry)
        (fun hexp => hround.two_pow_le (lt_trans (by decide) hexp))

/-! ## The numbers that rounding leaves alone -/

/-- A rational number that a finite binary64 number stands for. -/
def IsValue (g : ℚ) : Prop :=
  ∃ (negative : Bool) (significand : ℕ) (exponent : ℤ), significand < 2 ^ 53 ∧
    minExponent ≤ exponent ∧ exponent ≤ maxExponent ∧ g = ratio negative significand exponent

theorem exists_isRounded (p : ℚ) : ∃ w, IsRounded p w := by
  obtain ⟨w, hround, -⟩ := value?_ofRatio (p < 0) p.num.natAbs p.den_nz
  have habs : (p.num.natAbs : ℚ) / p.den = |p| := by
    rw [Nat.cast_natAbs, Int.cast_abs, ← abs_of_pos (α := ℚ) (a := p.den) (by positivity), ← abs_div,
      Rat.num_div_den]
  have hsign : withSign (p < 0) |p| = p := by
    by_cases hp : p < 0
    · simp [withSign, hp, abs_of_neg]
    · simp [withSign, hp, abs_of_nonneg (not_lt.mp hp)]
  rw [habs, hsign] at hround
  exact ⟨w, hround⟩

theorem IsValue.isRounded_self {g : ℚ} (h : IsValue g) : IsRounded g g := by
  obtain ⟨negative, m, f, hm, hf, -, rfl⟩ := h
  obtain ⟨e, k, hround⟩ : ∃ (e : ℤ) (k : ℕ), RoundsTo ((m : ℚ) * 2 ^ f) e k := by
    obtain ⟨_, e, k, hround, -⟩ := exists_isRounded ((m : ℚ) * 2 ^ f)
    rw [abs_of_nonneg (by positivity)] at hround
    exact ⟨e, k, hround⟩
  have hself := isRounded_withSign hround (by positivity) negative
  rwa [hround.eq_of_fits hm hf rfl, ← ratio_eq] at hself

theorem IsValue.mem_line {g : ℚ} (h : IsValue g) : -lineEnd < g ∧ g < lineEnd := by
  obtain ⟨negative, m, f, hm, -, hf, rfl⟩ := h
  have hlt := lt_lineEnd hm hf
  have hnonneg : 0 ≤ (m : ℚ) * 2 ^ f := by positivity
  rw [ratio_eq]
  cases negative with
  | false => exact ⟨show -lineEnd < (m : ℚ) * 2 ^ f by linarith, hlt⟩
  | true => exact ⟨neg_lt_neg hlt, show -((m : ℚ) * 2 ^ f) < lineEnd by linarith⟩

/-! A number that is not rounded keeps its order with one that is as long as
some binary64 number separates the two. -/

theorem IsValue.not_clamp_lt {g n p w : ℚ} (hg : IsValue g) (hround : IsRounded p w)
    (hn : n ≤ g) (hp : g ≤ p) : ¬ clamp w < .rational n := by
  have hw : g ≤ w := hg.isRounded_self.mono hround hp
  by_cases htop : lineEnd ≤ w
  · rw [clamp_eq_top htop]
    exact ExtendedRat.not_top_lt _
  · rw [clamp_eq_rational (hg.mem_line.1.trans_le hw) (not_le.mp htop)]
    exact not_lt_of_ge (hn.trans hw)

theorem IsValue.not_lt_clamp {g n p w : ℚ} (hg : IsValue g) (hround : IsRounded p w)
    (hp : p ≤ g) (hn : g ≤ n) : ¬ .rational n < clamp w := by
  have hw : w ≤ g := hround.mono hg.isRounded_self hp
  by_cases hbottom : w ≤ -lineEnd
  · rw [clamp_eq_bottom hbottom]
    exact ExtendedRat.not_lt_bottom _
  · rw [clamp_eq_rational (not_le.mp hbottom) (hw.trans_lt hg.mem_line.2)]
    exact not_lt_of_ge (hw.trans hn)

end Binary64

end TableQuery

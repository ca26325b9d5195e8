import Mathlib.Data.List.TakeWhile
import TableQuery.Comparison
import TableQuery.Proofs.Rounding

/-!
# Comparing plain numerals

A plain numeral is digits with an optional sign and an optional point, and it
denotes a rational number. One without a point is read as just that number,
unless it is too long; all others are read as the nearest binary64 number.
Rounding keeps order, so that two numerals read in the same way never compare
against the numbers they denote. Read in different ways they still do not when
some binary64 number lies between those numbers, since rounding does not cross
it. Without one they may.

Reading a plain numeral takes the text through every part of the reader. What
all its characters have in common (`of_mem_plainChars`) gets it past the
margins, the digits of other scripts, the underscores and the exponent; sign,
digits and point are then taken off it one by one.
-/

namespace TableQuery

namespace Numeral

/-- The values of a run of ASCII digits. -/
def digitValues (cs : List Char) : List Nat :=
  cs.map fun c => c.toNat - '0'.toNat

theorem length_digitValues (cs : List Char) : (digitValues cs).length = cs.length :=
  List.length_map _

/-- A run of digits behind a point, or nothing at all. -/
def pointed (fraction : List Char) : List Char :=
  if fraction = [] then [] else '.' :: fraction

/-- A numeral of ASCII digits with an optional sign and an optional point. -/
structure Plain where
  sign : List Char
  whole : List Char
  fraction : List Char
  sign_mem : sign ∈ [[], ['+'], ['-']]
  whole_ne_nil : whole ≠ []
  all_isDigit : (whole ++ fraction).all Char.isDigit = true

namespace Plain

def chars (x : Plain) : List Char :=
  x.sign ++ (x.whole ++ pointed x.fraction)

def text (x : Plain) : String := .ofList x.chars

def isNegative (x : Plain) : Bool := x.sign = ['-']

/-- The number that a numeral denotes. -/
def value (x : Plain) : ℚ :=
  Binary64.withSign x.isNegative
    (natOfDigits (digitValues (x.whole ++ x.fraction)) / 10 ^ x.fraction.length)

/-- A numeral is read as a whole number: it has no point and not too many
digits. -/
def IsExact (x : Plain) : Prop :=
  x.fraction = [] ∧ x.whole.length ≤ maxWholeDigits

instance (x : Plain) : Decidable x.IsExact :=
  inferInstanceAs (Decidable (x.fraction = [] ∧ x.whole.length ≤ maxWholeDigits))

end Plain

/-! ## The characters of a plain numeral -/

/-- The characters that plain numerals are made of. -/
def plainChars : List Char :=
  ['0', '1', '2', '3', '4', '5', '6', '7', '8', '9', '+', '-', '.']

/-- A character of a plain numeral stands for itself and ends nothing. -/
theorem of_mem_plainChars {c : Char} (h : c ∈ plainChars) :
    isMargin c = false ∧ Text.plainDigit c = c ∧ isExponentMark c = false ∧ c ≠ '_' := by
  have hall : plainChars.all (fun c => isMargin c = false ∧ Text.plainDigit c = c ∧
      isExponentMark c = false ∧ c ≠ '_') = true := by decide
  exact of_decide_eq_true (List.all_eq_true.mp hall c h)

theorem mem_plainChars_of_isDigit {c : Char} (h : c.isDigit = true) : c ∈ plainChars := by
  have hdigits : ∀ d < 10, Char.ofNat (48 + d) ∈ plainChars := by decide
  simp only [Char.isDigit, Bool.and_eq_true, decide_eq_true_eq] at h
  have hlower : 48 ≤ c.toNat := h.1
  have hupper : c.toNat ≤ 57 := h.2
  rw [← Char.ofNat_toNat c, ← Nat.add_sub_cancel' hlower]
  exact hdigits _ (by omega)

theorem dropWhile_eq_self {p : Char → Bool} {cs : List Char} (h : ∀ c ∈ cs, p c = false) :
    cs.dropWhile p = cs := by
  cases cs with
  | nil => rfl
  | cons c rest => exact List.dropWhile_cons_of_neg (by simp [h c (by simp)])

theorem body_of_subset {cs : List Char} (h : cs ⊆ plainChars) : body cs = cs := by
  have hmargin : ∀ c ∈ cs, isMargin c = false := fun c hc => (of_mem_plainChars (h hc)).1
  have hreverse : ∀ c ∈ cs.reverse, isMargin c = false := fun c hc =>
    hmargin c (List.mem_reverse.mp hc)
  have hdigits : ∀ c ∈ cs, Text.plainDigit c = c := fun c hc =>
    (of_mem_plainChars (h hc)).2.1
  rw [body, dropWhile_eq_self hmargin, dropWhile_eq_self hreverse, List.reverse_reverse]
  exact (List.map_congr_left hdigits).trans (List.map_id cs)

/-! ## Its parts -/

theorem digits?_eq {cs : List Char} (h : '_' ∉ cs) :
    digits? cs = if cs ≠ [] ∧ cs.all Char.isDigit then some (digitValues cs) else none := by
  rw [digits?, List.splitOn_eq_singleton h]
  cases cs with
  | nil => rfl
  | cons c rest => simp [digitValues]

theorem digits?_of_isDigit {cs : List Char} (hne : cs ≠ []) (h : ∀ c ∈ cs, c.isDigit = true) :
    digits? cs = some (digitValues cs) := by
  rw [digits?_eq fun hmem => absurd (h _ hmem) (by decide), if_pos ⟨hne, List.all_eq_true.mpr h⟩]

theorem digitsOrNone?_of_isDigit {cs : List Char} (h : ∀ c ∈ cs, c.isDigit = true) :
    digitsOrNone? cs = some (digitValues cs) := by
  cases cs with
  | nil => rfl
  | cons c rest => exact digits?_of_isDigit (by simp) h

namespace Plain

variable (x : Plain)

theorem isDigit_of_mem_whole {c : Char} (h : c ∈ x.whole) : c.isDigit = true :=
  List.all_eq_true.mp x.all_isDigit c (List.mem_append_left _ h)

theorem isDigit_of_mem_fraction {c : Char} (h : c ∈ x.fraction) : c.isDigit = true :=
  List.all_eq_true.mp x.all_isDigit c (List.mem_append_right _ h)

theorem unsigned_subset : x.whole ++ pointed x.fraction ⊆ plainChars := by
  refine List.append_subset.mpr
    ⟨fun c hc => mem_plainChars_of_isDigit (x.isDigit_of_mem_whole hc), ?_⟩
  rw [pointed]
  split
  · exact List.nil_subset _
  · exact List.cons_subset.mpr
      ⟨by decide, fun c hc => mem_plainChars_of_isDigit (x.isDigit_of_mem_fraction hc)⟩

theorem chars_subset : x.chars ⊆ plainChars := by
  have hsigns : ∀ sign ∈ [[], ['+'], ['-']], sign ⊆ plainChars := by decide
  exact List.append_subset.mpr ⟨hsigns x.sign x.sign_mem, x.unsigned_subset⟩

theorem body_eq : body x.text.toList = x.chars := by
  rw [text, String.toList_ofList]
  exact body_of_subset x.chars_subset

theorem signed_eq : signed x.chars = (x.isNegative, x.whole ++ pointed x.fraction) := by
  have hwhole := x.whole_ne_nil
  have hdigit : ∀ c ∈ x.whole, c.isDigit = true := fun c => x.isDigit_of_mem_whole
  rw [chars, isNegative]
  have hsign := x.sign_mem
  simp only [List.mem_cons, List.not_mem_nil, or_false] at hsign
  rcases hsign with hsign | hsign | hsign <;> rw [hsign]
  · -- Without a sign there is a digit in front, and that is not taken for one.
    cases hcase : x.whole with
    | nil => exact absurd hcase hwhole
    | cons c rest =>
      have hc : c.isDigit = true := hdigit c (hcase ▸ List.mem_cons_self)
      have hminus : c ≠ '-' := by rintro rfl; exact absurd hc (by decide)
      have hplus : c ≠ '+' := by rintro rfl; exact absurd hc (by decide)
      simp [signed, hminus, hplus]
  · rfl
  · rfl

theorem mantissa?_eq :
    mantissa? (x.whole ++ pointed x.fraction) =
      some (digitValues (x.whole ++ x.fraction), x.fraction.length) := by
  have hpoint : ∀ {cs : List Char}, (∀ c ∈ cs, c.isDigit = true) → '.' ∉ cs := fun h hmem =>
    absurd (h _ hmem) (by decide)
  have hwhole := hpoint fun c => x.isDigit_of_mem_whole
  have hdigits := digits?_of_isDigit x.whole_ne_nil fun c => x.isDigit_of_mem_whole
  by_cases hnone : x.fraction = []
  · rw [mantissa?, pointed, if_pos hnone, List.append_nil, List.splitOn_eq_singleton hwhole, hnone]
    simp [hdigits]
  · have hfraction := hpoint fun c => x.isDigit_of_mem_fraction
    rw [mantissa?, pointed, if_neg hnone, List.splitOn_append_cons_self,
      List.splitOn_eq_singleton hwhole, List.splitOn_eq_singleton hfraction]
    simp [digitsOrNone?_of_isDigit fun c => x.isDigit_of_mem_whole,
      digitsOrNone?_of_isDigit fun c => x.isDigit_of_mem_fraction, digitValues, x.whole_ne_nil]

theorem decimal?_eq :
    decimal? x.chars =
      some ⟨x.isNegative, digitValues (x.whole ++ x.fraction), -x.fraction.length⟩ := by
  have hmark : ∀ c ∈ x.whole ++ pointed x.fraction, (!isExponentMark c) = true := fun c hc => by
    rw [(of_mem_plainChars (x.unsigned_subset hc)).2.2.1]
    rfl
  rw [decimal?, x.signed_eq]
  dsimp only
  rw [List.takeWhile_eq_self_iff.mpr hmark, List.dropWhile_eq_nil_iff.mpr hmark, x.mantissa?_eq]
  simp [exponent?]

theorem whole?_of_isExact (h : x.IsExact) :
    ∃ n : ℤ, whole? x.chars = some n ∧ n = x.value := by
  have hdigits := digits?_of_isDigit x.whole_ne_nil fun c => x.isDigit_of_mem_whole
  have hlength := (length_digitValues x.whole).trans_le h.2
  rw [whole?, x.signed_eq, value, h.1, pointed, if_pos rfl, List.append_nil]
  dsimp only
  rw [hdigits]
  refine ⟨_, if_pos hlength, ?_⟩
  cases x.isNegative <;> simp [Binary64.withSign]

theorem whole?_of_not_isExact (h : ¬ x.IsExact) : whole? x.chars = none := by
  rw [whole?, x.signed_eq]
  dsimp only
  by_cases hnone : x.fraction = []
  · have hlength : ¬ (digitValues x.whole).length ≤ maxWholeDigits := fun hle =>
      h ⟨hnone, (length_digitValues x.whole).symm.trans_le hle⟩
    rw [pointed, if_pos hnone, List.append_nil,
      digits?_of_isDigit x.whole_ne_nil fun c => x.isDigit_of_mem_whole]
    exact if_neg hlength
  · have hunderscore : '_' ∉ x.whole ++ pointed x.fraction := fun hmem =>
      (of_mem_plainChars (x.unsigned_subset hmem)).2.2.2 rfl
    have hpoint : '.' ∈ x.whole ++ pointed x.fraction := by simp [pointed, hnone]
    have hdigits : ¬ (x.whole ++ pointed x.fraction).all Char.isDigit = true := fun h =>
      absurd (List.all_eq_true.mp h '.' hpoint) (by decide)
    rw [digits?_eq hunderscore, if_neg fun hall => hdigits hall.2]

end Plain

end Numeral

/-- A plain numeral is never far beyond the binary64 numbers by its exponent
alone, so it is rounded like any ratio. -/
theorem Decimal.toBinary64_of_places (negative : Bool) {digits : List Nat} {places : ℕ}
    (h : places ≤ digits.length) :
    (Decimal.mk negative digits (-places)).toBinary64 =
      .ofRatio negative (natOfDigits digits) (10 ^ places) := by
  rw [Decimal.toBinary64]
  by_cases hzero : natOfDigits digits = 0
  · rw [if_pos (.inl hzero), hzero]
    rfl
  · rw [if_neg (by simp only [hzero, false_or]; omega), if_neg (by simp only; omega)]
    simp

namespace Numeral.Plain

/-- What a plain numeral is read as. -/
structure Reads (x : Plain) (v : ExtendedRat) : Prop where
  exact : x.IsExact → v = .rational x.value
  rounded : ¬ x.IsExact → ∃ w, Binary64.IsRounded x.value w ∧ v = Binary64.clamp w

theorem exists_reads (x : Plain) :
    ∃ a v, Number.read? x.text = some a ∧ a.value? = some v ∧ x.Reads v := by
  rw [Number.read?, x.body_eq]
  by_cases hexact : x.IsExact
  · obtain ⟨n, hwhole, hn⟩ := x.whole?_of_isExact hexact
    rw [hwhole]
    exact ⟨.whole n, _, rfl, rfl, fun _ => congrArg _ hn, fun h => absurd hexact h⟩
  · obtain ⟨w, hround, hvalue⟩ := Binary64.value?_ofRatio x.isNegative
      (natOfDigits (digitValues (x.whole ++ x.fraction)))
      (pow_ne_zero x.fraction.length (show 10 ≠ 0 by decide))
    have hplaces : x.fraction.length ≤ (digitValues (x.whole ++ x.fraction)).length := by
      rw [length_digitValues, List.length_append]
      exact Nat.le_add_left _ _
    have hrounded : Binary64.IsRounded x.value w := by
      rw [value]
      exact_mod_cast hround
    rw [x.whole?_of_not_isExact hexact, x.decimal?_eq]
    dsimp only
    rw [Decimal.toBinary64_of_places _ hplaces]
    exact ⟨_, _, rfl, hvalue, fun h => absurd h hexact, fun _ => ⟨w, hrounded, rfl⟩⟩

theorem not_lt_of_value_le {x y : Plain} {u v : ExtendedRat} (hx : x.Reads u) (hy : y.Reads v)
    (hle : x.value ≤ y.value)
    (h : (x.IsExact ↔ y.IsExact) ∨ ∃ g, Binary64.IsValue g ∧ x.value ≤ g ∧ g ≤ y.value) :
    ¬ v < u := by
  -- Where only one of the two is rounded, the number between them keeps them apart.
  by_cases hxe : x.IsExact
  · rw [hx.exact hxe]
    by_cases hye : y.IsExact
    · rw [hy.exact hye]
      exact not_lt_of_ge hle
    · obtain ⟨w, hround, rfl⟩ := hy.rounded hye
      obtain ⟨g, hg, hxg, hgy⟩ := h.resolve_left fun hiff => hye (hiff.mp hxe)
      exact hg.not_clamp_lt hround hxg hgy
  · obtain ⟨w, hround, rfl⟩ := hx.rounded hxe
    by_cases hye : y.IsExact
    · rw [hy.exact hye]
      obtain ⟨g, hg, hxg, hgy⟩ := h.resolve_left fun hiff => hxe (hiff.mpr hye)
      exact hg.not_lt_clamp hround hxg hgy
    · obtain ⟨w', hround', rfl⟩ := hy.rounded hye
      exact Binary64.clamp_mono (hround.mono hround' hle)

/-- Comparing two numerals never contradicts the numbers they denote. -/
structure ComparesByValue (x y : Plain) : Prop where
  of_eq : x.value = y.value →
    (∀ c ∈ [Comparison.numeric .equal, .numeric .greaterOrEqual, .numeric .lessOrEqual],
      c.holds x.text y.text = true) ∧
    (∀ c ∈ [Comparison.numeric .unequal, .numeric .greater, .numeric .less, .greater, .less],
      c.holds x.text y.text = false)
  of_lt : x.value < y.value →
    ∀ c ∈ [Comparison.numeric .greater, .greater], c.holds x.text y.text = false

end Numeral.Plain

namespace Comparison

open Numeral (Plain)

theorem plain_numerals_compare_by_value {x y : Plain}
    (h : (x.IsExact ↔ y.IsExact) ∨
      ∃ g, Binary64.IsValue g ∧ x.value ≤ g ∧ g ≤ y.value) :
    x.ComparesByValue y := by
  obtain ⟨a, u, hreadx, hvaluex, hx⟩ := x.exists_reads
  obtain ⟨b, v, hready, hvaluey, hy⟩ := y.exists_reads
  refine ⟨fun heq => ?_, fun hlt => ?_⟩
  · have hsym : (y.IsExact ↔ x.IsExact) ∨
        ∃ g, Binary64.IsValue g ∧ y.value ≤ g ∧ g ≤ x.value := by
      rw [← heq] at h ⊢
      exact h.imp_left Iff.symm
    have hless := Plain.not_lt_of_value_le hx hy heq.le h
    have hsame : u = v :=
      ExtendedRat.eq_of_not_lt (Plain.not_lt_of_value_le hy hx heq.ge hsym) hless
    subst hsame
    constructor <;>
      simp [holds, hreadx, hready, NumberRelation.holds, Number.isLess, Number.isSame,
        hvaluex, hvaluey, hless]
  · have hnot := Plain.not_lt_of_value_le hx hy hlt.le h
    simp [holds, hreadx, hready, NumberRelation.holds, Number.isLess,
      hvaluex, hvaluey, hnot]

/-- The numeral `+100`. -/
def signedNumeral : Plain := ⟨['+'], ['1', '0', '0'], [], by decide, by decide, by decide⟩

/-- The numeral `100.00`. -/
def pointedNumeral : Plain :=
  ⟨[], ['1', '0', '0'], ['0', '0'], by decide, by decide, by decide⟩

/-- One numeral is read exactly and the other is rounded, and the number that
both denote is a binary64 number. -/
theorem signedNumeral_equals_pointedNumeral :
    (signedNumeral.IsExact ∧ ¬ pointedNumeral.IsExact) ∧
    (signedNumeral.value = 100 ∧ pointedNumeral.value = 100) ∧
    (numeric .equal).holds "+100" "100.00" = true := by
  have hsigned : signedNumeral.value = 100 := by decide +kernel
  have hpointed : pointedNumeral.value = 100 := by decide +kernel
  have hvalue : Binary64.IsValue 100 :=
    ⟨false, 100, 0, by decide, by decide, by decide, by decide +kernel⟩
  have hcompare : signedNumeral.ComparesByValue pointedNumeral :=
    plain_numerals_compare_by_value (.inr ⟨100, hvalue, hsigned.le, hpointed.ge⟩)
  exact ⟨⟨by decide, by decide⟩, ⟨hsigned, hpointed⟩,
    (hcompare.of_eq (hsigned.trans hpointed.symm)).1 (numeric .equal) (by decide)⟩

/-! The whole numbers next to the greatest exact ones are read as themselves
without a point and rounded with one. -/

/-- The numeral `9007199254740993`, which no binary64 number equals. -/
def oddNumeral : Plain :=
  ⟨[], "9007199254740993".toList, [], by decide, by decide, by decide⟩

/-- The numeral `9007199254740993.0`. -/
def oddPointedNumeral : Plain :=
  ⟨[], "9007199254740993".toList, ['0'], by decide, by decide, by decide⟩

/-- The numeral `18014398509481985`. -/
def lowerNumeral : Plain :=
  ⟨[], "18014398509481985".toList, [], by decide, by decide, by decide⟩

/-- The numeral `18014398509481985.5`, rounded to less than the one above. -/
def upperNumeral : Plain :=
  ⟨[], "18014398509481985".toList, ['5'], by decide, by decide, by decide⟩

theorem close_numerals_contradict_values :
    (oddNumeral.value = oddPointedNumeral.value ∧
      (numeric .equal).holds oddNumeral.text oddPointedNumeral.text = false) ∧
    (lowerNumeral.value < upperNumeral.value ∧
      (numeric .greater).holds lowerNumeral.text upperNumeral.text = true ∧
      greater.holds lowerNumeral.text upperNumeral.text = true) ∧
    ¬ oddNumeral.ComparesByValue oddPointedNumeral ∧
    ¬ lowerNumeral.ComparesByValue upperNumeral := by
  have heq : oddNumeral.value = oddPointedNumeral.value := by decide +kernel
  have hlt : lowerNumeral.value < upperNumeral.value := by decide +kernel
  have hequal : (numeric .equal).holds oddNumeral.text oddPointedNumeral.text = false := by
    decide +kernel
  have hgreater : greater.holds lowerNumeral.text upperNumeral.text = true := by
    decide +kernel
  have hnumeric : (numeric .greater).holds lowerNumeral.text upperNumeral.text = true := by
    decide +kernel
  refine ⟨⟨heq, hequal⟩, ⟨hlt, hnumeric, hgreater⟩, fun h => ?_, fun h => ?_⟩
  · exact absurd ((h.of_eq heq).1 (numeric .equal) (by decide)) (by rw [hequal]; decide)
  · exact absurd (h.of_lt hlt greater (by decide)) (by rw [hgreater]; decide)

end Comparison

end TableQuery

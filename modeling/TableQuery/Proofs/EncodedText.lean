import TableQuery.Text.Utf8

/-!
# Text that was encoded

Encoding a text and reading the bytes gives the text back, whatever it is. The
encoding is the standard one, of one to four bytes for a character: the first
byte holds the highest bits and says how many bytes follow, and each of these
holds six bits more.

Where a first byte leaves more room than there are characters, the reader
narrows the range of the second byte. No character is hurt by that: below the
range the form would be longer than it has to be, and above it lie surrogates
and numbers past the last character.
-/

namespace TableQuery.Text.Utf8

/-- The bytes of a text. -/
def encode (text : List Char) : List UInt8 :=
  text.flatMap String.utf8EncodeChar

theorem toNat_ofNat_of_lt {n : Nat} (h : n < 256) :
    (UInt8.ofNat n).toNat = n := by
  rw [UInt8.toNat_ofNat', Nat.mod_eq_of_lt h]

/-! ## The first byte -/

theorem first_of_one {n : Nat} (h : n < 0x80) (position : Nat) :
    first position (UInt8.ofNat n) = .ok (.inl (Char.ofNat n)) := by
  have hn : (UInt8.ofNat n).toNat = n := toNat_ofNat_of_lt (by omega)
  simp only [first, UInt8.lt_iff_toNat_lt, hn, UInt8.reduceToNat]
  rw [if_pos h]

theorem first_of_two {n : Nat} (h₁ : 0xC2 ≤ n) (h₂ : n < 0xE0)
    (position : Nat) :
    first position (UInt8.ofNat n) =
      .ok (.inr ⟨UInt8.ofNat n, position, n - 0xC0, 0x80, 0xBF, 0⟩) := by
  have hn : (UInt8.ofNat n).toNat = n := toNat_ofNat_of_lt (by omega)
  simp only [first, UInt8.lt_iff_toNat_lt, hn, UInt8.reduceToNat]
  rw [if_neg (by omega), if_neg (by omega), if_pos h₂]

/-- A first byte of three takes the six bits behind it, unless they make the
form too long or a surrogate. -/
theorem first_of_three {n : Nat} (h₁ : 0xE0 ≤ n) (h₂ : n < 0xF0)
    (position : Nat) :
    ∃ low high : UInt8, first position (UInt8.ofNat n) =
        .ok (.inr ⟨UInt8.ofNat n, position, n - 0xE0, low, high, 1⟩) ∧
      ∀ bits < 64, (n = 0xE0 → 0x20 ≤ bits) → (n = 0xED → bits < 0x20) →
        low.toNat ≤ bits + 0x80 ∧ bits + 0x80 ≤ high.toNat := by
  have hn : (UInt8.ofNat n).toNat = n := toNat_ofNat_of_lt (by omega)
  refine ⟨if UInt8.ofNat n = 0xE0 then 0xA0 else 0x80,
    if UInt8.ofNat n = 0xED then 0x9F else 0xBF, ?_, fun bits hbits hlow hhigh => ?_⟩
  · simp only [first, UInt8.lt_iff_toNat_lt, hn, UInt8.reduceToNat]
    rw [if_neg (by omega), if_neg (by omega), if_neg (by omega), if_pos h₂]
  · simp only [← UInt8.toNat_inj, hn, UInt8.reduceToNat]
    constructor
    · split
      · next h => have := hlow h; show 0xA0 ≤ _; omega
      · show 0x80 ≤ _; omega
    · split
      · next h => have := hhigh h; show _ ≤ 0x9F; omega
      · show _ ≤ 0xBF; omega

/-- A first byte of four takes the six bits behind it, unless they make the form
too long or go past the last character. -/
theorem first_of_four {n : Nat} (h₁ : 0xF0 ≤ n) (h₂ : n < 0xF5)
    (position : Nat) :
    ∃ low high : UInt8, first position (UInt8.ofNat n) =
        .ok (.inr ⟨UInt8.ofNat n, position, n - 0xF0, low, high, 2⟩) ∧
      ∀ bits < 64, (n = 0xF0 → 0x10 ≤ bits) → (n = 0xF4 → bits < 0x10) →
        low.toNat ≤ bits + 0x80 ∧ bits + 0x80 ≤ high.toNat := by
  have hn : (UInt8.ofNat n).toNat = n := toNat_ofNat_of_lt (by omega)
  refine ⟨if UInt8.ofNat n = 0xF0 then 0x90 else 0x80,
    if UInt8.ofNat n = 0xF4 then 0x8F else 0xBF, ?_, fun bits hbits hlow hhigh => ?_⟩
  · simp only [first, UInt8.lt_iff_toNat_lt, hn, UInt8.reduceToNat]
    rw [if_neg (by omega), if_neg (by omega), if_neg (by omega),
      if_neg (by omega), if_pos h₂]
  · simp only [← UInt8.toNat_inj, hn, UInt8.reduceToNat]
    constructor
    · split
      · next h => have := hlow h; show 0x90 ≤ _; omega
      · show 0x80 ≤ _; omega
    · split
      · next h => have := hhigh h; show _ ≤ 0x8F; omega
      · show _ ≤ 0xBF; omega

/-! ## The bytes behind it -/

/-- What six more bits make of a sequence. -/
def Sequence.add (s : Sequence) (bits : Nat) : Char ⊕ Sequence :=
  match s.more with
  | 0 => .inl (Char.ofNat (s.bits * 64 + bits))
  | more + 1 => .inr ⟨s.byte, s.start, s.bits * 64 + bits, 0x80, 0xBF, more⟩

theorem Sequence.next_eq_add {s : Sequence} {bits : Nat} (hbits : bits < 64)
    (h : s.low.toNat ≤ bits + 0x80 ∧ bits + 0x80 ≤ s.high.toNat)
    (position : Nat) :
    s.next position (UInt8.ofNat (bits + 0x80)) = .ok (s.add bits) := by
  have hn : (UInt8.ofNat (bits + 0x80)).toNat = bits + 0x80 :=
    toNat_ofNat_of_lt (by omega)
  unfold Sequence.next Sequence.add
  simp only [UInt8.le_iff_toNat_le, hn, Nat.add_sub_cancel]
  rw [if_pos h]
  cases s.more with
  | zero => rfl
  | succ more => rfl

/-- Goes on behind a byte with a character, or with a sequence begun. -/
def resume (position : Nat) (read : List Char) (rest : List UInt8) :
    Char ⊕ Sequence → Except Fault (List Char)
  | .inl c => decodeFrom position none (c :: read) rest
  | .inr s => decodeFrom position (some s) read rest

theorem decodeFrom_of_first {position : Nat} {b : UInt8}
    {outcome : Char ⊕ Sequence} (h : first position b = .ok outcome)
    (read : List Char) (rest : List UInt8) :
    decodeFrom position none read (b :: rest) =
      resume (position + 1) read rest outcome := by
  rw [decodeFrom]
  simp only [h]
  cases outcome <;> rfl

theorem decodeFrom_add {s : Sequence} {bits : Nat} (hbits : bits < 64)
    (h : s.low.toNat ≤ bits + 0x80 ∧ bits + 0x80 ≤ s.high.toNat)
    (position : Nat) (read : List Char) (rest : List UInt8) :
    decodeFrom position (some s) read (UInt8.ofNat (bits + 0x80) :: rest) =
      resume (position + 1) read rest (s.add bits) := by
  rw [decodeFrom]
  simp only [Sequence.next_eq_add hbits h]
  cases s.add bits <;> rfl

/-- Behind the second byte every six bits are in range. -/
theorem decodeFrom_add_open {b : UInt8} {start bits more lower : Nat}
    (hlower : lower < 64) (position : Nat) (read : List Char)
    (rest : List UInt8) :
    decodeFrom position (some ⟨b, start, bits, 0x80, 0xBF, more⟩) read
        (UInt8.ofNat (lower + 0x80) :: rest) =
      resume (position + 1) read rest
        (Sequence.add ⟨b, start, bits, 0x80, 0xBF, more⟩ lower) := by
  have hrange : (0x80 : UInt8).toNat ≤ lower + 0x80 ∧
      lower + 0x80 ≤ (0xBF : UInt8).toNat := by
    simp only [UInt8.reduceToNat]
    omega
  exact decodeFrom_add hlower hrange position read rest

/-! ## Characters and texts -/

theorem decodeFrom_utf8EncodeChar (c : Char) (position : Nat)
    (read : List Char) (rest : List UInt8) :
    decodeFrom position none read (String.utf8EncodeChar c ++ rest) =
      decodeFrom (position + (String.utf8EncodeChar c).length) none
        (c :: read) rest := by
  have hvalid : c.toNat < 0xD800 ∨ 0xDFFF < c.toNat ∧ c.toNat < 0x110000 :=
    c.valid
  have hc : ∀ n, n = c.toNat → Char.ofNat n = c := by
    rintro n rfl
    exact Char.ofNat_toNat c
  unfold String.utf8EncodeChar
  rw [show c.val.toNat = c.toNat from rfl]
  generalize c.toNat = v at hvalid hc ⊢
  dsimp only
  -- One case for each length: the bits of the bytes add up to the number again.
  split
  · rw [List.singleton_append, decodeFrom_of_first (first_of_one (by omega) _),
      resume, hc v rfl]
    rfl
  split
  · rw [List.cons_append, List.singleton_append,
      decodeFrom_of_first (first_of_two (by omega) (by omega) _), resume,
      decodeFrom_add_open (by omega), Sequence.add]
    dsimp only
    rw [resume, hc _ (by omega)]
    rfl
  split
  · obtain ⟨low, high, hfirst, hrange⟩ := first_of_three
      (n := v / 4096 % 16 + 0xE0) (by omega) (by omega) position
    rw [List.cons_append, List.cons_append, List.singleton_append,
      decodeFrom_of_first hfirst, resume,
      decodeFrom_add (by omega)
        (hrange (v / 64 % 64) (by omega) (by omega) (by omega)),
      Sequence.add]
    dsimp only
    rw [resume, decodeFrom_add_open (by omega), Sequence.add]
    dsimp only
    rw [resume, hc _ (by omega)]
    rfl
  · obtain ⟨low, high, hfirst, hrange⟩ := first_of_four
      (n := v / 262144 % 8 + 0xF0) (by omega) (by omega) position
    rw [List.cons_append, List.cons_append, List.cons_append,
      List.singleton_append, decodeFrom_of_first hfirst, resume,
      decodeFrom_add (by omega)
        (hrange (v / 4096 % 64) (by omega) (by omega) (by omega)),
      Sequence.add]
    dsimp only
    rw [resume, decodeFrom_add_open (by omega), Sequence.add]
    dsimp only
    rw [resume, decodeFrom_add_open (by omega), Sequence.add]
    dsimp only
    rw [resume, hc _ (by omega)]
    rfl

theorem decodeFrom_encode (text : List Char) (position : Nat)
    (read : List Char) :
    decodeFrom position none read (encode text) = .ok (read.reverse ++ text) := by
  induction text generalizing position read with
  | nil =>
      rw [List.append_nil]
      rfl
  | cons c text ih =>
      show decodeFrom position none read
        (String.utf8EncodeChar c ++ encode text) = _
      rw [decodeFrom_utf8EncodeChar, ih, List.reverse_cons, List.append_assoc,
        List.singleton_append]

theorem decode_encode (text : List Char) : decode (encode text) = .ok text :=
  decodeFrom_encode text 0 []

end TableQuery.Text.Utf8

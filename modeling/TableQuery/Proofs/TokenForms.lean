import Mathlib.Data.List.TakeWhile
import TableQuery.Query.Token

/-!
# The forms of tokens

What a token can look like is said here without the reader. A token is a
parenthesis, a run of characters of words, or a string: between single quotes
anything but such a quote, between double quotes plain characters and pairs of
a backslash and a character that it takes (`Escaped`). `Regular` lists these
forms.

The reader takes just the regular tokens off the front of a text, and of a word
all that can belong to it (`first?_eq_some_iff`). So it stops only at the end of
the text, or where nothing regular begins: at white space, or at a quote that
opens no string (`Stuck`).
-/

namespace TableQuery

namespace Lexeme

/-! ## Runs of characters -/

/-- A text does not begin with a character of some kind. -/
def Stops (p : Char → Bool) (cs : List Char) : Prop :=
  ∀ c ∈ cs.head?, p c = false

theorem stops_nil (p : Char → Bool) : Stops p [] := by
  intro c hc
  cases hc

theorem stops_cons {p : Char → Bool} {c : Char} {cs : List Char} :
    Stops p (c :: cs) ↔ p c = false := by
  constructor
  · intro h
    exact h c rfl
  · intro h d hd
    injection hd with hd
    rwa [← hd]

theorem stops_append {p : Char → Bool} {cs : List Char}
    (h : ∀ c ∈ cs, p c = false) (hne : cs ≠ []) (rest : List Char) :
    Stops p (cs ++ rest) := by
  match cs with
  | [] => exact absurd rfl hne
  | c :: cs => exact stops_cons.2 (h c List.mem_cons_self)

theorem takeWhile_of_stops {p : Char → Bool} {cs rest : List Char}
    (hcs : ∀ c ∈ cs, p c = true) (hrest : Stops p rest) :
    (cs ++ rest).takeWhile p = cs := by
  rw [List.takeWhile_append_of_pos hcs]
  cases rest with
  | nil => exact List.append_nil cs
  | cons c rest =>
      have hc := stops_cons.1 hrest
      rw [List.takeWhile_cons_of_neg (by simp [hc]), List.append_nil]

theorem dropWhile_of_stops {p : Char → Bool} {cs rest : List Char}
    (hcs : ∀ c ∈ cs, p c = true) (hrest : Stops p rest) :
    (cs ++ rest).dropWhile p = rest := by
  rw [List.dropWhile_append_of_pos hcs]
  cases rest with
  | nil => rfl
  | cons c rest =>
      have hc := stops_cons.1 hrest
      rw [List.dropWhile_cons_of_neg (by simp [hc])]

theorem stops_dropWhile (p : Char → Bool) (cs : List Char) :
    Stops p (cs.dropWhile p) := by
  intro c hc
  have hnot := List.head?_dropWhile_not p cs
  rw [Option.mem_def.1 hc] at hnot
  simpa using hnot

theorem isBlank_of_isGap {c : Char} (h : isGap c = true) :
    Text.isBlank c = true := by
  simp only [isGap, Bool.or_eq_true, beq_iff_eq] at h
  rcases h with ((rfl | rfl) | rfl) | rfl <;> decide

theorem isWordChar_eq_true {c : Char} (h : isWordChar c = true) :
    isGap c = false ∧ c ≠ '(' ∧ c ≠ ')' ∧ c ≠ '\x22' ∧ c ≠ '\x27' := by
  simp only [isWordChar, Bool.and_eq_true, Bool.not_eq_true', bne_iff_ne] at h
  obtain ⟨⟨⟨⟨hblank, h₁⟩, h₂⟩, h₃⟩, h₄⟩ := h
  refine ⟨?_, h₁, h₂, h₃, h₄⟩
  cases hgap : isGap c with
  | false => rfl
  | true =>
      rw [isBlank_of_isGap hgap] at hblank
      cases hblank

theorem isWordChar_of_isBlank {c : Char} (h : Text.isBlank c = true) :
    isWordChar c = false := by
  rw [isWordChar, h]
  rfl

theorem isWordChar_of_isGap {c : Char} (h : isGap c = true) :
    isWordChar c = false :=
  isWordChar_of_isBlank (isBlank_of_isGap h)

/-- What is neither a parenthesis, a quote nor part of a word is white space. -/
theorem isBlank_of_not_isWordChar {c : Char} (h : isWordChar c = false)
    (h₁ : c ≠ '(') (h₂ : c ≠ ')') (h₃ : c ≠ '\x22') (h₄ : c ≠ '\x27') :
    Text.isBlank c = true := by
  simpa [isWordChar, h₁, h₂, h₃, h₄] using h

/-! ## Strings -/

/-- What stands between the double quotes of a string, and the text that it
stands for. A backslash takes the next character as it is, and can take any but
a line feed. -/
inductive Escaped : List Char → List Char → Prop
  | nil : Escaped [] []
  | plain {c : Char} {raw value : List Char} : c ≠ '\x22' → c ≠ '\\' →
      Escaped raw value → Escaped (c :: raw) (c :: value)
  | pair {c : Char} {raw value : List Char} : c ≠ '\n' →
      Escaped raw value → Escaped ('\\' :: c :: raw) (c :: value)

theorem closeDouble_quote (seen rest : List Char) :
    closeDouble seen ('\x22' :: rest) = some (seen.reverse, rest) := by
  rw [closeDouble.eq_def]
  exact if_pos rfl

theorem closeDouble_pair {d : Char} (hd : d ≠ '\n') (seen rest : List Char) :
    closeDouble seen ('\\' :: d :: rest) =
      closeDouble (d :: '\\' :: seen) rest := by
  rw [closeDouble, if_neg (by decide), if_pos rfl, if_neg hd]

theorem closeDouble_plain {c : Char} (hquote : c ≠ '\x22')
    (hbackslash : c ≠ '\\') (seen rest : List Char) :
    closeDouble seen (c :: rest) = closeDouble (c :: seen) rest := by
  rw [closeDouble.eq_def]
  simp only [if_neg hquote, if_neg hbackslash]

theorem Escaped.closeDouble_eq {raw value : List Char} (h : Escaped raw value)
    (seen rest : List Char) :
    closeDouble seen (raw ++ '\x22' :: rest) =
      some (seen.reverse ++ raw, rest) := by
  induction h generalizing seen with
  | nil =>
      rw [List.nil_append, List.append_nil]
      exact closeDouble_quote seen rest
  | plain hquote hbackslash _ ih =>
      rw [List.cons_append, closeDouble_plain hquote hbackslash, ih,
        List.reverse_cons, List.append_assoc, List.singleton_append]
  | pair hfeed _ ih =>
      rw [List.cons_append, List.cons_append, closeDouble_pair hfeed, ih]
      simp only [List.reverse_cons, List.append_assoc, List.cons_append,
        List.nil_append]

theorem unescape_pair (c : Char) (cs : List Char) :
    unescape ('\\' :: c :: cs) = c :: unescape cs := by
  rw [unescape, if_pos rfl]

theorem unescape_plain {c : Char} (h : c ≠ '\\') (cs : List Char) :
    unescape (c :: cs) = c :: unescape cs := by
  cases cs with
  | nil => rfl
  | cons d cs => rw [unescape, if_neg h]

theorem Escaped.unescape_eq {raw value : List Char} (h : Escaped raw value) :
    unescape raw = value := by
  induction h with
  | nil => rfl
  | plain _ hbackslash _ ih => rw [unescape_plain hbackslash, ih]
  | pair _ _ ih => rw [unescape_pair, ih]

/-- What is found before the closing quote is plain characters and pairs. -/
theorem escaped_of_closeDouble {seen cs body rest : List Char}
    (h : closeDouble seen cs = some (body, rest)) :
    ∃ raw value, Escaped raw value ∧ body = seen.reverse ++ raw := by
  fun_induction closeDouble seen cs with
  | case1 => cases h
  | case2 seen tail =>
      cases h
      exact ⟨[], [], .nil, (List.append_nil _).symm⟩
  | case3 => cases h
  | case4 => cases h
  | case5 seen d tail hfeed _ ih =>
      obtain ⟨raw, value, hraw, hbody⟩ := ih h
      exact ⟨'\\' :: d :: raw, d :: value, .pair hfeed hraw, by simp [hbody]⟩
  | case6 seen c tail hquote hbackslash ih =>
      obtain ⟨raw, value, hraw, hbody⟩ := ih h
      exact ⟨c :: raw, c :: value, .plain hquote hbackslash hraw,
        by simp [hbody]⟩

theorem closeSingle_append {word : List Char} (h : '\x27' ∉ word)
    (rest : List Char) :
    closeSingle (word ++ '\x27' :: rest) = some (word, rest) := by
  have hword : ∀ c ∈ word, (c != '\x27') = true := by
    intro c hc
    rw [bne_iff_ne]
    rintro rfl
    exact h hc
  have hrest : Stops (· != '\x27') ('\x27' :: rest) := stops_cons.2 rfl
  rw [closeSingle, dropWhile_of_stops hword hrest,
    takeWhile_of_stops hword hrest]

theorem not_mem_of_closeSingle {cs body rest : List Char}
    (h : closeSingle cs = some (body, rest)) : '\x27' ∉ body := by
  unfold closeSingle at h
  split at h
  · cases h
  · cases h
    intro hmem
    have hne := List.mem_takeWhile_imp hmem
    cases hne

/-! ## Tokens -/

/-- The forms of tokens. -/
inductive Regular : Lexeme → Prop
  | word {cs : List Char} : cs ≠ [] → (∀ c ∈ cs, isWordChar c = true) →
      Regular ⟨.word, cs, cs⟩
  | opening : Regular ⟨.opening, ['('], ['(']⟩
  | closing : Regular ⟨.closing, [')'], [')']⟩
  | single {cs : List Char} : '\x27' ∉ cs →
      Regular ⟨.string, cs, '\x27' :: cs ++ ['\x27']⟩
  | double {raw value : List Char} : Escaped raw value →
      Regular ⟨.string, value, '\x22' :: raw ++ ['\x22']⟩

/-- A token that goes on as long as it can is the one its text begins with. -/
theorem Regular.first?_eq {l : Lexeme} (h : l.Regular) {rest : List Char}
    (hrest : l.kind = .word → Stops isWordChar rest) :
    first? (l.raw ++ rest) = some (l, rest) := by
  cases h with
  | @word cs hne hcs =>
      match cs with
      | [] => exact absurd rfl hne
      | c :: cs =>
          have hc := hcs c List.mem_cons_self
          have hrun : ∀ d ∈ cs, isWordChar d = true :=
            fun d hd => hcs d (List.mem_cons_of_mem c hd)
          obtain ⟨-, h₁, h₂, h₃, h₄⟩ := isWordChar_eq_true hc
          rw [List.cons_append, first?, if_neg h₁, if_neg h₂, if_neg h₃,
            if_neg h₄, if_pos hc]
          simp only [takeWhile_of_stops hrun (hrest rfl),
            dropWhile_of_stops hrun (hrest rfl)]
  | opening => rfl
  | closing => rfl
  | single hcs =>
      rw [List.append_assoc, List.cons_append, List.singleton_append, first?,
        if_neg (by decide), if_neg (by decide), if_neg (by decide),
        if_pos rfl, closeSingle_append hcs]
      rfl
  | double hraw =>
      rw [List.append_assoc, List.cons_append, List.singleton_append, first?,
        if_neg (by decide), if_neg (by decide), if_pos rfl,
        hraw.closeDouble_eq, Option.map_some, List.reverse_nil,
        List.nil_append]
      simp only [hraw.unescape_eq]

theorem regular_of_first? {cs rest : List Char} {l : Lexeme}
    (h : first? cs = some (l, rest)) :
    l.Regular ∧ (l.kind = .word → Stops isWordChar rest) := by
  match cs with
  | [] => cases h
  | c :: tail =>
      rw [first?] at h
      split at h
      · next hc =>
          cases h
          subst hc
          exact ⟨.opening, fun hkind => by cases hkind⟩
      split at h
      · next hc =>
          cases h
          subst hc
          exact ⟨.closing, fun hkind => by cases hkind⟩
      split at h
      · next hc =>
          obtain ⟨⟨body, r⟩, hclose, heq⟩ := Option.map_eq_some_iff.1 h
          cases heq
          subst hc
          obtain ⟨raw, value, hraw, hbody⟩ := escaped_of_closeDouble hclose
          rw [List.reverse_nil, List.nil_append] at hbody
          subst hbody
          rw [hraw.unescape_eq]
          exact ⟨.double hraw, fun hkind => by cases hkind⟩
      split at h
      · next hc =>
          obtain ⟨⟨body, r⟩, hclose, heq⟩ := Option.map_eq_some_iff.1 h
          cases heq
          subst hc
          exact ⟨.single (not_mem_of_closeSingle hclose),
            fun hkind => by cases hkind⟩
      split at h
      · next hc =>
          cases h
          refine ⟨.word (List.cons_ne_nil _ _) ?_,
            fun _ => stops_dropWhile isWordChar tail⟩
          intro d hd
          rcases List.mem_cons.1 hd with rfl | hd
          · exact hc
          · exact List.mem_takeWhile_imp hd
      · cases h

/-- The reader takes off a text just what is regular there, and does not leave
behind what a word could take in. -/
theorem first?_eq_some_iff {cs rest : List Char} {l : Lexeme} :
    first? cs = some (l, rest) ↔
      cs = l.raw ++ rest ∧ l.Regular ∧
        (l.kind = .word → Stops isWordChar rest) := by
  constructor
  · intro h
    exact ⟨append_of_first? h, regular_of_first? h⟩
  · rintro ⟨rfl, hregular, hrest⟩
    exact hregular.first?_eq hrest

theorem Regular.stops_isGap {l : Lexeme} (h : l.Regular) (rest : List Char) :
    Stops isGap (l.raw ++ rest) := by
  cases h with
  | word hne hcs =>
      exact stops_append (fun c hc => (isWordChar_eq_true (hcs c hc)).1) hne _
  | opening | closing | single _ | double _ => exact stops_cons.2 rfl

theorem Regular.isWordChar_of_word {l : Lexeme} (h : l.Regular)
    (hkind : l.kind = .word) : ∀ c ∈ l.raw, isWordChar c = true := by
  cases h with
  | word _ hcs => exact hcs
  | opening | closing | single _ | double _ => cases hkind

/-- A word begins with a character of words, and no other token does. -/
theorem Regular.stops_isWordChar_iff {l : Lexeme} (h : l.Regular)
    (rest : List Char) : Stops isWordChar (l.raw ++ rest) ↔ l.kind ≠ .word := by
  cases h with
  | @word cs hne hcs =>
      match cs with
      | [] => exact absurd rfl hne
      | c :: cs =>
          rw [List.cons_append, stops_cons, hcs c List.mem_cons_self]
          simp
  | opening | closing | single _ | double _ =>
      exact iff_of_true (stops_cons.2 rfl) (by simp)

/-- Only a string begins with a quote. -/
theorem Regular.kind_eq_string {l : Lexeme} (h : l.Regular) {c : Char}
    {rest rest' : List Char} (hc : c = '\x22' ∨ c = '\x27')
    (heq : c :: rest' = l.raw ++ rest) : l.kind = .string := by
  cases h with
  | @word cs hne hcs =>
      match cs with
      | [] => exact absurd rfl hne
      | d :: cs =>
          obtain ⟨rfl, -⟩ := List.cons.inj heq
          have hd := isWordChar_eq_true (hcs c List.mem_cons_self)
          rcases hc with rfl | rfl
          · exact absurd rfl hd.2.2.2.1
          · exact absurd rfl hd.2.2.2.2
  | opening | closing =>
      obtain ⟨rfl, -⟩ := List.cons.inj heq
      rcases hc with hc | hc <;> cases hc
  | single _ | double _ => rfl

/-! ## Where reading stops -/

/-- A text that begins neither with a gap nor with a token: it begins with a
quote that opens no string, or with white space that is no gap. -/
inductive Stuck : List Char → Prop
  | unclosed {c : Char} {rest : List Char} : c = '\x22' ∨ c = '\x27' →
      (∀ l : Lexeme, l.Regular → l.kind = .string → ¬ l.raw <+: c :: rest) →
      Stuck (c :: rest)
  | blank {c : Char} {rest : List Char} : Text.isBlank c = true →
      isGap c = false → Stuck (c :: rest)

theorem Stuck.ne_nil {cs : List Char} (h : Stuck cs) : cs ≠ [] := by
  cases h with
  | unclosed _ _ | blank _ _ => exact List.cons_ne_nil _ _

theorem Stuck.stops_isGap {cs : List Char} (h : Stuck cs) : Stops isGap cs := by
  cases h with
  | unclosed hquote _ =>
      rcases hquote with rfl | rfl
      · exact stops_cons.2 rfl
      · exact stops_cons.2 rfl
  | blank _ hgap => exact stops_cons.2 hgap

theorem Stuck.stops_isWordChar {cs : List Char} (h : Stuck cs) :
    Stops isWordChar cs := by
  cases h with
  | unclosed hquote _ =>
      rcases hquote with rfl | rfl
      · exact stops_cons.2 rfl
      · exact stops_cons.2 rfl
  | blank hblank _ => exact stops_cons.2 (isWordChar_of_isBlank hblank)

theorem Stuck.first?_eq_none {cs : List Char} (h : Stuck cs) :
    first? cs = none := by
  rw [Option.eq_none_iff_forall_not_mem]
  rintro ⟨l, rest⟩ hfirst
  obtain ⟨happend, hregular, -⟩ := first?_eq_some_iff.1 hfirst
  cases h with
  | unclosed hquote hnone =>
      have hstring := hregular.kind_eq_string hquote happend
      exact hnone l hregular hstring ⟨rest, happend.symm⟩
  | @blank c tail hblank hgap =>
      have hword : isWordChar c = false := isWordChar_of_isBlank hblank
      -- White space is none of the characters that a token begins with.
      have hne : ∀ d, Text.isBlank d = false → c ≠ d := by
        rintro d hd rfl
        rw [hblank] at hd
        cases hd
      rw [first?, if_neg (hne _ (by decide)), if_neg (hne _ (by decide)),
        if_neg (hne _ (by decide)), if_neg (hne _ (by decide)),
        if_neg (by simp [hword])] at hfirst
      cases hfirst

/-- Behind a gap, reading stops at the end of the text or gets stuck. -/
theorem stuck_of_first?_eq_none {cs : List Char} (h : first? cs = none)
    (hgap : Stops isGap cs) (hne : cs ≠ []) : Stuck cs := by
  match cs with
  | [] => exact absurd rfl hne
  | c :: rest =>
      by_cases hquote : c = '\x22' ∨ c = '\x27'
      · refine .unclosed hquote fun l hregular hstring hbegins => ?_
        obtain ⟨tail, htail⟩ := hbegins
        have hword : l.kind = .word → Stops isWordChar tail := by
          intro hkind
          rw [hstring] at hkind
          cases hkind
        have hfirst := hregular.first?_eq hword
        rw [htail, h] at hfirst
        cases hfirst
      · rw [not_or] at hquote
        rw [first?] at h
        split at h
        · cases h
        next hopening =>
        split at h
        · cases h
        next hclosing =>
        rw [if_neg hquote.1, if_neg hquote.2] at h
        split at h
        · cases h
        next hword =>
        rw [Bool.not_eq_true] at hword
        exact .blank (isBlank_of_not_isWordChar hword hopening hclosing
          hquote.1 hquote.2) (stops_cons.1 hgap)

end Lexeme

end TableQuery

import TableQuery.Proofs.ConditionParts

/-!
# Words by number

A condition is read word by word, and the reading remembers what it has of the
predicate that is begun. The same can be said without a memory. Number the words
that are no parentheses from zero on. Then the remainder of its number modulo
four tells the role of a word, and a literal finds its field and its comparison
two and one numbers in front of it. `tokensAt` and `notesAt` say so for the word
at one index, over any table by rows alone.

The reading agrees with this at every word, because what it remembers is what
the last numbers say (`Reading.Behind`): that is kept by each step
(`Reading.Behind.step`), wherever the parentheses stand, and it settles what the
step adds (`Reading.Behind.step_snd`).
-/

namespace TableQuery

/-- What is noted of a predicate: the rows that it matches, or why there can be
none. -/
def Predicate.note (t : Table) (p : Predicate) : Note :=
  match Comparison.ofSymbol? p.comparison with
  | none => .flawed p (.unknownComparison p.comparison)
  | some _ =>
    if t.hasField p.field then .matched p (t.rowsWhere (p.holds t))
    else .flawed p (.unknownField ⟨p.field⟩)

theorem Predicate.note_eq {t : Table} (ht : t.Even) (p : Predicate) :
    p.note t =
      match p.rows t with
      | .ok rows => .matched p rows
      | .error flaw => .flawed p flaw := by
  have hmatching := p.matching_eq ht
  rw [note]
  cases hc : Comparison.ofSymbol? p.comparison with
  | none => simp only [rows, hc]
  | some c =>
      cases hcolumn : t.column? p.field with
      | none =>
          have hfield : t.hasField p.field = false := by
            rw [Table.hasField, hcolumn]
            rfl
          simp only [rows, hc, Table.column, hcolumn, hfield,
            Bool.false_eq_true, if_false]
      | some cells =>
          have hfield : t.hasField p.field = true := by
            rw [Table.hasField, hcolumn]
            rfl
          simp only [matching, rows, hc, Table.column, hcolumn] at hmatching
          simp only [rows, hc, Table.column, hcolumn, hfield, if_true,
            hmatching]

namespace Condition

/-! ## One word by its number -/

/-- How many plain words stand in front of an index: the number of the word
there, if it is a plain one. -/
def number (words : List String) (i : Nat) : Nat :=
  (plainWords (words.take i)).length

/-- The predicate whose literal has a number. -/
def predicateAt (words : List String) (n : Nat) : Predicate where
  field := (plainWords words).getD (n - 2) ""
  comparison := (plainWords words).getD (n - 1) ""
  literal := (plainWords words).getD n ""

/-- The tokens that the word at an index stands for. -/
def tokensAt (t : Table) (words : List String) (i : Nat) :
    List SetExpression.Token :=
  match words[i]? with
  | none => []
  | some word =>
    match parenthesis? word with
    | some token => [token]
    | none =>
      let n := number words i
      if n % 4 = 2 then [.set (t.rowsWhere ((predicateAt words n).holds t))]
      else if n % 4 = 3 then
        ((connective? word).map SetExpression.Token.connective).toList
      else []

/-- The notes on the word at an index. -/
def notesAt (t : Table) (words : List String) (i : Nat) : List Note :=
  match words[i]? with
  | none => []
  | some word =>
    match parenthesis? word with
    | some _ => []
    | none =>
      let n := number words i
      if n % 4 = 2 then [(predicateAt words n).note t]
      else if n % 4 = 3 ∧ connective? word = none then [.ignored word]
      else []

theorem plainWords_append (ws vs : List String) :
    plainWords (ws ++ vs) = plainWords ws ++ plainWords vs :=
  List.filter_append ws vs

theorem getElem?_middle (before : List String) (word : String)
    (behind : List String) :
    (before ++ word :: behind)[before.length]? = some word := by
  rw [List.getElem?_append_right (Nat.le_refl _), Nat.sub_self]
  rfl

theorem number_middle (before more : List String) :
    number (before ++ more) before.length = (plainWords before).length := by
  rw [number, List.take_left]

/-! ## What the reading remembers -/

/-- A reading stands behind plain words: it has of the last group of four what
is there of it. -/
def Reading.Behind (plain : List String) : Reading → Prop
  | .field => plain.length % 4 = 0
  | .comparison f => ∃ groups, groups.length % 4 = 0 ∧ plain = groups ++ [f]
  | .literal f c =>
    ∃ groups, groups.length % 4 = 0 ∧ plain = groups ++ [f, c]
  | .connective => plain.length % 4 = 3

variable {t : Table} {r : Reading}

theorem Reading.Behind.step {before : List String}
    (h : r.Behind (plainWords before)) (word : String) :
    (r.step t word).1.Behind (plainWords (before ++ [word])) := by
  rw [plainWords_append]
  cases hword : parenthesis? word with
  | some token =>
      rw [step_of_parenthesis hword, plainWords_of_parenthesis hword]
      exact (List.append_nil (plainWords before)).symm ▸ h
  | none =>
      rw [plainWords_of_plain hword]
      show (r.step t word).1.Behind (plainWords before ++ [word])
      match r with
      | .field =>
          simp only [Reading.step, hword]
          exact ⟨plainWords before, h, rfl⟩
      | .comparison f =>
          obtain ⟨groups, hgroups, hplain⟩ := h
          simp only [Reading.step, hword]
          exact ⟨groups, hgroups, by rw [hplain, List.append_assoc]; rfl⟩
      | .literal f c =>
          obtain ⟨groups, hgroups, hplain⟩ := h
          have hlength : (plainWords before ++ [word]).length % 4 = 3 := by
            rw [hplain]
            simp only [List.length_append, List.length_cons, List.length_nil]
            omega
          simp only [Reading.step, hword]
          cases Predicate.rows t ⟨f, c, word⟩ with
          | ok rows => exact hlength
          | error flaw => exact hlength
      | .connective =>
          have hlength : (plainWords before ++ [word]).length % 4 = 0 := by
            have hthree : (plainWords before).length % 4 = 3 := h
            rw [List.length_append, List.length_singleton]
            omega
          simp only [Reading.step, hword]
          cases connective? word with
          | some connective => exact hlength
          | none => exact hlength

/-- The words of a group are found by number from its literal on. -/
theorem predicateAt_middle {before : List String} {groups : List String}
    {f c word : String} (hplain : plainWords before = groups ++ [f, c])
    (hword : parenthesis? word = none) (behind : List String) :
    predicateAt (before ++ word :: behind) (groups.length + 2) =
      ⟨f, c, word⟩ := by
  have hwords : plainWords (before ++ word :: behind) =
      groups ++ f :: c :: word :: plainWords behind := by
    rw [plainWords_append, plainWords_of_plain hword, hplain,
      List.append_assoc]
    rfl
  rw [predicateAt, hwords]
  simp [List.getD_eq_getElem?_getD]

/-- What a step adds is what its word stands for by its number. -/
theorem Reading.Behind.step_snd (ht : t.Even) {before : List String}
    (h : r.Behind (plainWords before)) (word : String)
    (behind : List String) :
    (r.step t word).2 =
      (tokensAt t (before ++ word :: behind) before.length,
        notesAt t (before ++ word :: behind) before.length) := by
  rw [tokensAt, notesAt, getElem?_middle]
  cases hword : parenthesis? word with
  | some token => simp only [step_of_parenthesis hword, hword]
  | none =>
      simp only [hword, number_middle]
      match r with
      | .field =>
          have hlength : (plainWords before).length % 4 = 0 := h
          simp [Reading.step, hword, hlength]
      | .comparison f =>
          obtain ⟨groups, hgroups, hplain⟩ := h
          have hlength : (plainWords before).length % 4 = 1 := by
            rw [hplain, List.length_append, List.length_singleton]
            omega
          simp [Reading.step, hword, hlength]
      | .literal f c =>
          obtain ⟨groups, hgroups, hplain⟩ := h
          have hnumber : (plainWords before).length = groups.length + 2 := by
            rw [hplain, List.length_append]
            rfl
          have hlength : (groups.length + 2) % 4 = 2 := by omega
          rw [hnumber, if_pos hlength, if_pos hlength,
            predicateAt_middle hplain hword, ← Predicate.matching_eq ht,
            Predicate.note_eq ht, Predicate.matching]
          simp only [Reading.step, hword]
          cases Predicate.rows t ⟨f, c, word⟩ with
          | ok rows => rfl
          | error flaw => rfl
      | .connective =>
          have hlength : (plainWords before).length % 4 = 3 := h
          simp only [Reading.step, hword, hlength]
          cases connective? word with
          | some connective => rfl
          | none => rfl

/-! ## All words -/

theorem Reading.Behind.run_eq (ht : t.Even) {before : List String}
    (h : r.Behind (plainWords before)) (words : List String) :
    r.run t words =
      ((List.range' before.length words.length).flatMap
          (tokensAt t (before ++ words)),
        (List.range' before.length words.length).flatMap
          (notesAt t (before ++ words))) := by
  induction words generalizing r before with
  | nil => rfl
  | cons word words ih =>
      have hsplit : before ++ word :: words = before ++ [word] ++ words := by
        rw [List.append_assoc]
        rfl
      have hrest := ih (h.step (t := t) word)
      rw [← hsplit, List.length_append, List.length_singleton] at hrest
      have hstep := h.step_snd ht word words
      rw [Reading.run, List.length_cons, List.range'_succ, List.flatMap_cons,
        List.flatMap_cons]
      simp only [hrest, hstep]

theorem interpret_eq (ht : t.Even) (words : List String) :
    interpret t words =
      ((List.range words.length).flatMap (tokensAt t words),
        (List.range words.length).flatMap (notesAt t words)) := by
  have hbehind : Reading.field.Behind (plainWords []) := rfl
  rw [interpret, hbehind.run_eq ht, List.range_eq_range']
  rfl

theorem after_eq_field {words : List String}
    (h : (plainWords words).length % 4 = 0) :
    Reading.field.after t words = .field := by
  have hrole : (Reading.field.after t words).role.toConnective % 4 = 3 := by
    have hcount := toConnective_after (t := t) (r := .field) words
    have hfield : Reading.field.role.toConnective = 3 := rfl
    omega
  cases hr : Reading.field.after t words with
  | field => rfl
  | comparison _ | literal _ _ | connective => rw [hr] at hrole; cases hrole

/-- Behind whole groups of four, a condition is read as if it began there. -/
theorem interpret_append {words : List String}
    (h : (plainWords words).length % 4 = 0) (more : List String) :
    interpret t (words ++ more) =
      ((interpret t words).1 ++ (interpret t more).1,
        (interpret t words).2 ++ (interpret t more).2) := by
  rw [interpret, run_append, after_eq_field h]
  rfl

/-! ## Notes behind others -/

/-- A condition being read: the place, and the tokens and the notes so far. -/
structure Progress where
  reading : Reading := .field
  tokens : List SetExpression.Token := []
  notes : List Note

/-- Reads one word. -/
def Progress.add (t : Table) (s : Progress) (word : String) : Progress :=
  let (after, tokens, notes) := s.reading.step t word
  ⟨after, s.tokens ++ tokens, s.notes ++ notes⟩

/-- The set expression that words make over a table, and the notes on them
behind those that there are. -/
def annotate (t : Table) (notes : List Note) (words : List String) :
    List SetExpression.Token × List Note :=
  let s := words.foldl (Progress.add t) { notes }
  (s.tokens, s.notes)

theorem foldl_add (s : Progress) (words : List String) :
    words.foldl (Progress.add t) s =
      ⟨s.reading.after t words, s.tokens ++ (s.reading.run t words).1,
        s.notes ++ (s.reading.run t words).2⟩ := by
  induction words generalizing s with
  | nil =>
      simp only [Reading.run, List.append_nil]
      rfl
  | cons word words ih =>
      rw [List.foldl_cons, ih]
      simp only [Progress.add, Reading.run, after_cons, List.append_assoc]

theorem annotate_eq (notes : List Note) (words : List String) :
    annotate t notes words =
      ((interpret t words).1, notes ++ (interpret t words).2) := by
  rw [annotate, foldl_add]
  rfl

/-- A note of matched rows is made where these rows are the set. -/
theorem tokensAt_of_matched {words : List String} {i : Nat} {p : Predicate}
    {rows : IndexSet} (h : .matched p rows ∈ notesAt t words i) :
    tokensAt t words i = [.set rows] := by
  rw [notesAt] at h
  rw [tokensAt]
  cases hword : words[i]? with
  | none => rw [hword] at h; cases h
  | some word =>
      cases hparenthesis : parenthesis? word with
      | some token => simp only [hword, hparenthesis] at h; cases h
      | none =>
          simp only [hword, hparenthesis] at h ⊢
          split at h
          · next hnumber =>
              have hnote := List.mem_singleton.1 h
              rw [if_pos hnumber]
              unfold Predicate.note at hnote
              split at hnote
              · cases hnote
              split at hnote
              · injection hnote with _ hrows
                rw [hrows]
              · cases hnote
          split at h
          · cases List.mem_singleton.1 h
          · cases h

/-- Index sets are in ascending order before they are shown. -/
theorem renderIndices_toList (separator : String) (s : IndexSet) :
    Note.renderIndices separator s.toList =
      (Note.indexSeparator separator).intercalate (s.toList.map toString) := by
  have hsorted : s.toList.Pairwise
      fun i j => decide (i ≤ j) = true :=
    s.ascending.imp fun h => decide_eq_true (Int.le_of_lt h)
  rw [Note.renderIndices, List.mergeSort_of_pairwise hsorted]

/-- Over a loaded table the words of a condition stand for what their numbers
say, one after another. The notes come behind those made before. Where whole
groups of four are read, what follows is read on its own. A note that a
predicate matches rows lists the members of the set in its place, in ascending
order. -/
theorem words_are_read_by_number {files : Path → Entry}
    {path : Path} {separator : String} {t : Table}
    (hload : Table.load files path separator = .ok t) (words : List String) :
    interpret t words =
      ((List.range words.length).flatMap (tokensAt t words),
        (List.range words.length).flatMap (notesAt t words)) ∧
    (∀ notes, annotate t notes words =
      ((interpret t words).1, notes ++ (interpret t words).2)) ∧
    (∀ more, (plainWords words).length % 4 = 0 →
      interpret t (words ++ more) =
        ((interpret t words).1 ++ (interpret t more).1,
          (interpret t words).2 ++ (interpret t more).2)) ∧
    ∀ i p rows, .matched p rows ∈ notesAt t words i →
      tokensAt t words i = [.set rows] ∧
      ∀ indexSeparator, (Note.matched p rows).render indexSeparator =
        "'" ++ p.text ++ "' matches rows: " ++
          (Note.indexSeparator indexSeparator).intercalate
            (rows.toList.map toString) := by
  refine ⟨interpret_eq (Table.even_of_load hload) words,
    fun notes => annotate_eq notes words,
    fun more hwhole => interpret_append hwhole more,
    fun i p rows hmatched => ⟨tokensAt_of_matched hmatched, ?_⟩⟩
  intro indexSeparator
  rw [Note.render, renderIndices_toList]

/-- Two groups of words. A parenthesis stands inside the first one, whose last
word is no connective, and the second one asks for a field that is not there. -/
def groupedWords : List String :=
  ["a", "(", "-ge", "2", "xor", ")", "z", "=", "1", "OR"]

theorem groupedWords_are_read_by_number :
    Table.load (fun _ => .file sampleFile) (.ofString "A") " " =
      .ok sampleTable ∧
    interpret sampleTable groupedWords =
      ([.opening, .set (.ofList [2, 3]), .closing, .set .empty,
          .connective .or],
        [.matched ⟨"a", "-ge", "2"⟩ (.ofList [2, 3]), .ignored "xor",
          .flawed ⟨"z", "=", "1"⟩ (.unknownField ⟨"z"⟩)]) ∧
    (plainWords groupedWords).length % 4 = 0 ∧
    interpret sampleTable (groupedWords ++ ["b", "=", "5"]) =
      ((interpret sampleTable groupedWords).1 ++ [.set (.ofList [2])],
        (interpret sampleTable groupedWords).2 ++
          [.matched ⟨"b", "=", "5"⟩ (.ofList [2])]) ∧
    (Note.matched ⟨"a", "-ge", "2"⟩ (.ofList [2, 3])).render "," =
      "'a -ge 2' matches rows: 2,3" := by
  have hload : Table.load (fun _ => .file sampleFile) (.ofString "A") " " =
      .ok sampleTable := rfl
  have hwhole : (plainWords groupedWords).length % 4 = 0 := rfl
  obtain ⟨hinterpret, -, happend, hnotes⟩ :=
    words_are_read_by_number hload groupedWords
  have hmatched : .matched ⟨"a", "-ge", "2"⟩ (.ofList [2, 3]) ∈
      notesAt sampleTable groupedWords 3 := List.mem_singleton.2 rfl
  refine ⟨hload, hinterpret.trans rfl, hwhole, ?_, ?_⟩
  · exact happend ["b", "=", "5"] hwhole
  · exact (hnotes 3 _ _ hmatched).2 ","

end Condition

end TableQuery

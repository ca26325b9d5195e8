import Mathlib.Data.List.Induction
import TableQuery.Query.Basic

/-!
# The words of the clauses

A query is read word by word, and every keyword changes the clause that the
words behind it go to. The same can be said without a reader. Behind some words
the clause of their last keyword is open (`openClause?`), and the words of a
clause are the plain ones that it is open in front of (`wordsOf`), wherever they
stand. Of the fields all these words count, of the table the last one, of the
condition all, as they are (`content`).

If a keyword stands first then this is all that reading does (`ofWords_eq`), so
that two lists of words with the same words for each clause make the same query
or are refused for the same reason. What does not touch the words of a clause
makes no difference: `Rearranged` lists what can be done to whole passages of a
query, each a keyword and the plain words behind it.
-/

namespace TableQuery.Query

/-- A word that opens no clause, in whatever letter case. -/
def IsPlain (word : String) : Prop :=
  ∀ keyword ∈ ["select", "from", "where"], Text.folded word ≠ keyword.toList

/-- The clause that is open behind some words: the one that the last keyword
among them opens. -/
def openClause? (words : List String) : Option Clause :=
  (words.filterMap Clause.ofWord?).getLast?

/-- The words of a clause: those that are no keywords and have a keyword of the
clause as the last one in front of them. -/
def wordsOf (clause : Clause) (words : List String) : List String :=
  (words.zipIdx.filter fun entry =>
    Clause.ofWord? entry.1 = none ∧
      openClause? (words.take entry.2) = some clause).map (·.1)

/-- No word stands in front of the first keyword. -/
def Opened (words : List String) : Prop :=
  ∀ first ∈ words.head?, Clause.ofWord? first ≠ none

instance (words : List String) : Decidable (Opened words) :=
  inferInstanceAs (Decidable (∀ first ∈ words.head?, Clause.ofWord? first ≠ none))

/-- What the words of the clauses say. -/
def content (words : List String) : Query where
  fields := (wordsOf .fields words).flatMap fieldNames
  table := (wordsOf .table words).getLast?.getD ""
  condition := wordsOf .condition words

/-- Two lists of words have the same words for each clause; for the table only
the last one counts. -/
structure SameClauses (words words' : List String) : Prop where
  fields : wordsOf .fields words = wordsOf .fields words'
  table : (wordsOf .table words).getLast? = (wordsOf .table words').getLast?
  condition : wordsOf .condition words = wordsOf .condition words'

theorem ofWord?_eq_none_iff {word : String} :
    Clause.ofWord? word = none ↔ IsPlain word := by
  simp only [Clause.ofWord?, IsPlain, List.forall_mem_cons]
  split
  · next h => exact iff_of_false nofun fun hplain => hplain.1 h
  split
  · next h => exact iff_of_false nofun fun hplain => hplain.2.1 h
  split
  · next h => exact iff_of_false nofun fun hplain => hplain.2.2.1 h
  · next h₁ h₂ h₃ => exact iff_of_true rfl ⟨h₁, h₂, h₃, nofun⟩

/-! ## One word more -/

section

variable {words : List String} {word : String} {clause : Clause}

theorem openClause?_keyword (h : Clause.ofWord? word = some clause) :
    openClause? (words ++ [word]) = some clause := by
  rw [openClause?, List.filterMap_append, List.filterMap_cons_some h]
  exact List.getLast?_concat

theorem openClause?_append_plain {more : List String}
    (h : ∀ word ∈ more, Clause.ofWord? word = none) :
    openClause? (words ++ more) = openClause? words := by
  rw [openClause?, List.filterMap_append, List.filterMap_eq_nil_iff.2 h,
    List.append_nil, openClause?]

theorem wordsOf_concat (clause : Clause) (words : List String) (word : String) :
    wordsOf clause (words ++ [word]) =
      wordsOf clause words ++
        if Clause.ofWord? word = none ∧ openClause? words = some clause then
          [word]
        else [] := by
  have hbefore : ∀ entry ∈ words.zipIdx,
      (words ++ [word]).take entry.2 = words.take entry.2 := by
    intro entry hentry
    have hlt := List.snd_lt_of_mem_zipIdx hentry
    exact List.take_append_of_le_length (by omega)
  rw [wordsOf, List.zipIdx_append, List.filter_append, List.map_append, wordsOf]
  congr 1
  · congr 1
    exact List.filter_congr fun entry hentry => by rw [hbefore entry hentry]
  · rw [List.zipIdx_singleton, List.filter_cons, Nat.zero_add, List.take_left,
      List.filter_nil]
    simp only [decide_eq_true_eq]
    split
    · rfl
    · rfl

theorem wordsOf_keyword (h : Clause.ofWord? word ≠ none) :
    wordsOf clause (words ++ [word]) = wordsOf clause words := by
  rw [wordsOf_concat, if_neg fun hplain => h hplain.1, List.append_nil]

theorem wordsOf_plain (h : Clause.ofWord? word = none) :
    wordsOf clause (words ++ [word]) =
      wordsOf clause words ++
        if openClause? words = some clause then [word] else [] := by
  simp only [wordsOf_concat, h, true_and]

/-! ## Reading -/

theorem Opened.of_append {more : List String} (h : Opened (words ++ more)) :
    Opened words := by
  cases words with
  | nil => intro first hfirst; cases hfirst
  | cons first rest => exact h

/-- A word behind the first one finds a clause open. -/
theorem Opened.exists_openClause? (h : Opened (words ++ [word]))
    (hplain : Clause.ofWord? word = none) :
    ∃ clause, openClause? words = some clause := by
  cases words with
  | nil => exact absurd hplain (h word rfl)
  | cons first rest =>
      obtain ⟨clause, hclause⟩ := Option.ne_none_iff_exists'.1 (h first rfl)
      rw [openClause?, List.filterMap_cons_some hclause, List.getLast?_cons]
      exact ⟨_, rfl⟩

theorem content_keyword (h : Clause.ofWord? word ≠ none) :
    content (words ++ [word]) = content words := by
  simp only [content, wordsOf_keyword h]

theorem add_content (h : Opened (words ++ [word])) :
    Draft.add ⟨openClause? words, content words⟩ word =
      .ok ⟨openClause? (words ++ [word]), content (words ++ [word])⟩ := by
  cases hword : Clause.ofWord? word with
  | some clause =>
      rw [openClause?_keyword hword, content_keyword (by simp [hword])]
      simp only [Draft.add, hword]
  | none =>
      obtain ⟨clause, hopen⟩ := h.exists_openClause? hword
      rw [openClause?_append_plain (List.forall_mem_singleton.2 hword), hopen]
      simp only [Draft.add, hword, content, wordsOf_plain hword, hopen]
      cases clause with
      | fields => simp
      | table => simp
      | condition => simp

/-- Reading leaves what the words of the clauses say. -/
theorem foldlM_add (h : Opened words) :
    words.foldlM Draft.add {} = .ok ⟨openClause? words, content words⟩ := by
  -- The last word goes to the clause that the words in front of it leave open.
  induction words using List.reverseRecOn with
  | nil => rfl
  | append_singleton words word ih =>
      rw [List.foldlM_append, ih h.of_append]
      show [word].foldlM Draft.add ⟨openClause? words, content words⟩ = _
      rw [List.foldlM_cons, add_content h]
      rfl

theorem finish_eq_ok_iff {d : Draft} {q : Query} :
    d.finish = .ok q ↔ d.query = q ∧ q.fields ≠ [] ∧ q.table ≠ "" := by
  rw [Draft.finish]
  split
  · next hnone =>
      refine iff_of_false nofun ?_
      rintro ⟨rfl, hfields, -⟩
      exact hfields (List.isEmpty_iff.1 hnone)
  · next hsome =>
      split
      · next hempty =>
          refine iff_of_false nofun ?_
          rintro ⟨rfl, -, htable⟩
          exact htable (String.isEmpty_iff.1 hempty)
      · next hne =>
          rw [Except.ok.injEq]
          refine ⟨?_, And.left⟩
          rintro rfl
          exact ⟨rfl, mt List.isEmpty_iff.2 hsome, mt String.isEmpty_iff.2 hne⟩

theorem ofWords_eq (h : Opened words) :
    ofWords words = Draft.finish { query := content words } := by
  rw [ofWords, foldlM_add h]
  rfl

end

theorem SameClauses.content_eq {words words' : List String}
    (h : SameClauses words words') : content words = content words' := by
  rw [content, content, h.fields, h.table, h.condition]

theorem SameClauses.ofWords_eq {words words' : List String}
    (hsame : SameClauses words words') (h : Opened words) (h' : Opened words') :
    ofWords words = ofWords words' := by
  rw [Query.ofWords_eq h, Query.ofWords_eq h', hsame.content_eq]

/-! ## Passages -/

/-- A keyword and the plain words behind it, up to the next keyword. -/
structure Passage where
  keyword : String
  clause : Clause
  words : List String
  opens : Clause.ofWord? keyword = some clause
  plain : ∀ word ∈ words, Clause.ofWord? word = none

namespace Passage

def text (p : Passage) : List String := p.keyword :: p.words

/-- The words of a clause in some passages. -/
def wordsIn (clause : Clause) (ps : List Passage) : List String :=
  (ps.filter (·.clause = clause)).flatMap (·.words)

theorem wordsIn_append (clause : Clause) (ps qs : List Passage) :
    wordsIn clause (ps ++ qs) = wordsIn clause ps ++ wordsIn clause qs := by
  rw [wordsIn, List.filter_append, List.flatMap_append, wordsIn, wordsIn]

theorem wordsIn_cons (clause : Clause) (p : Passage)
    (ps : List Passage) :
    wordsIn clause (p :: ps) =
      (if p.clause = clause then p.words else []) ++ wordsIn clause ps := by
  rw [wordsIn, List.filter_cons, wordsIn]
  simp only [decide_eq_true_eq]
  split
  · rfl
  · rfl

end Passage

theorem wordsOf_append_plain (clause : Clause) {words more : List String}
    (h : ∀ word ∈ more, Clause.ofWord? word = none) :
    wordsOf clause (words ++ more) =
      wordsOf clause words ++
        if openClause? words = some clause then more else [] := by
  induction more using List.reverseRecOn with
  | nil => simp
  | append_singleton more word ih =>
      obtain ⟨hmore, hword⟩ := List.forall_mem_append.1 h
      rw [← List.append_assoc, wordsOf_plain (hword word List.mem_cons_self),
        openClause?_append_plain hmore, ih hmore]
      split
      · rw [List.append_assoc]
      · rw [List.append_nil]

theorem wordsOf_append_text (clause : Clause) (words : List String)
    (p : Passage) :
    wordsOf clause (words ++ p.text) =
      wordsOf clause words ++ if p.clause = clause then p.words else [] := by
  rw [Passage.text, List.append_cons, wordsOf_append_plain clause p.plain,
    wordsOf_keyword (by simp [p.opens]), openClause?_keyword p.opens]
  simp only [Option.some.injEq]

theorem wordsOf_flatMap_text (clause : Clause) (ps : List Passage) :
    wordsOf clause (ps.flatMap Passage.text) = Passage.wordsIn clause ps := by
  induction ps using List.reverseRecOn with
  | nil => rfl
  | append_singleton ps p ih =>
      rw [List.flatMap_append, List.flatMap_singleton, wordsOf_append_text, ih,
        Passage.wordsIn_append, Passage.wordsIn_cons]
      exact congrArg _ (List.append_nil _).symm

theorem opened_flatMap_text (ps : List Passage) :
    Opened (ps.flatMap Passage.text) := by
  cases ps with
  | nil => intro first hfirst; cases hfirst
  | cons p ps =>
      intro first hfirst
      cases hfirst
      rw [p.opens]
      exact Option.some_ne_none _

theorem ofWords_passages (p q r : Passage) (hp : p.clause = .fields)
    (hq : q.clause = .table) (hr : r.clause = .condition) :
    ofWords (p.text ++ (q.text ++ r.text)) =
      Draft.finish { query :=
        ⟨p.words.flatMap fieldNames, q.words.getLast?.getD "", r.words⟩ } := by
  have htext : p.text ++ (q.text ++ r.text) = [p, q, r].flatMap Passage.text := by
    simp
  have hcontent : content ([p, q, r].flatMap Passage.text) =
      ⟨p.words.flatMap fieldNames, q.words.getLast?.getD "", r.words⟩ := by
    simp only [content, wordsOf_flatMap_text]
    simp [Passage.wordsIn, hp, hq, hr]
  rw [htext, ofWords_eq (opened_flatMap_text [p, q, r]), hcontent]

/-- A query with one passage for each clause, the keywords in small letters. -/
theorem ofWords_inOrder {fields condition : List String} {table : String}
    (hfields : ∀ word ∈ fields, Clause.ofWord? word = none)
    (htable : Clause.ofWord? table = none)
    (hcondition : ∀ word ∈ condition, Clause.ofWord? word = none) :
    ofWords ("select" :: fields ++ "from" :: table :: "where" :: condition) =
      Draft.finish { query := ⟨fields.flatMap fieldNames, table, condition⟩ } :=
  ofWords_passages ⟨"select", .fields, fields, rfl, hfields⟩
    ⟨"from", .table, [table], rfl, List.forall_mem_singleton.2 htable⟩
    ⟨"where", .condition, condition, rfl, hcondition⟩ rfl rfl rfl

/-- What can be done to the passages of a query. -/
inductive Rearranged : List Passage → List Passage → Prop
  /-- Passages of different clauses change places; those of one clause stay in
  their order. -/
  | reordered {ps qs : List Passage} :
      (∀ clause, ps.filter (·.clause = clause) = qs.filter (·.clause = clause)) →
      Rearranged ps qs
  /-- A passage is split, its clause opened once more in between. -/
  | split {p q r : Passage} (before after : List Passage) :
      q.clause = p.clause → r.clause = p.clause → q.words ++ r.words = p.words →
      Rearranged (before ++ p :: after) (before ++ q :: r :: after)
  /-- A passage without words is put in. -/
  | empty {p : Passage} (before after : List Passage) : p.words = [] →
      Rearranged (before ++ after) (before ++ p :: after)
  /-- A keyword is spelled in another way. -/
  | respelled {p q : Passage} (before after : List Passage) :
      q.clause = p.clause → q.words = p.words →
      Rearranged (before ++ p :: after) (before ++ q :: after)
  | symm {ps qs : List Passage} : Rearranged ps qs → Rearranged qs ps
  | trans {ps qs rs : List Passage} : Rearranged ps qs → Rearranged qs rs →
      Rearranged ps rs

theorem Rearranged.wordsIn_eq {ps qs : List Passage} (h : Rearranged ps qs)
    (clause : Clause) :
    Passage.wordsIn clause ps = Passage.wordsIn clause qs := by
  induction h with
  | reordered horder => rw [Passage.wordsIn, horder clause, Passage.wordsIn]
  | split before after hq hr hwords =>
      simp only [Passage.wordsIn_append, Passage.wordsIn_cons, hq, hr, ← hwords]
      split
      · simp only [List.append_assoc]
      · simp only [List.nil_append]
  | empty before after hwords =>
      simp only [Passage.wordsIn_append, Passage.wordsIn_cons, hwords, ite_self,
        List.nil_append]
  | respelled before after hq hwords =>
      simp only [Passage.wordsIn_append, Passage.wordsIn_cons, hq, hwords]
  | symm _ ih => exact ih.symm
  | trans _ _ ih ih' => exact ih.trans ih'

theorem Rearranged.sameClauses {ps qs : List Passage} (h : Rearranged ps qs) :
    SameClauses (ps.flatMap Passage.text) (qs.flatMap Passage.text) := by
  constructor
  all_goals simp only [wordsOf_flatMap_text, h.wordsIn_eq]

/-- Behind a first keyword the words of the clauses settle what is read. So it
makes no difference how two lists of words come by the same ones, and none what
is done to whole passages. -/
theorem clause_words_decide_query :
    (∀ {words : List String}, Opened words →
      ofWords words = Draft.finish { query := content words }) ∧
    (∀ {words words' : List String}, Opened words → Opened words' →
      SameClauses words words' → ofWords words = ofWords words') ∧
    ∀ {ps qs : List Passage}, Rearranged ps qs →
      ofWords (ps.flatMap Passage.text) = ofWords (qs.flatMap Passage.text) := by
  refine ⟨ofWords_eq, fun h h' hsame => hsame.ofWords_eq h h', fun {ps qs} h => ?_⟩
  exact h.sameClauses.ofWords_eq (opened_flatMap_text ps) (opened_flatMap_text qs)

/-- A query with its clauses one behind the other. -/
def gatheredWords : List String :=
  ["select", "a", "b,c", "from", "T", "where", "x", "=", "1"]

/-- The same query with the condition first and in two pieces, a table that does
not count, a clause without words and other spellings of the keywords. -/
def scatteredWords : List String :=
  ["WHERE", "x", "from", "S", "T", "Select", "a", "from", "where", "=", "1",
    "SELECT", "b,c"]

/-- The passage of the fields of `gatheredWords`. -/
def fieldsPassage : Passage := ⟨"select", .fields, ["a", "b,c"], rfl, by decide⟩

/-- The passage of its table. -/
def tablePassage : Passage := ⟨"from", .table, ["T"], rfl, by decide⟩

theorem scattered_clauses_make_same_query :
    (Opened gatheredWords ∧ Opened scatteredWords ∧
      SameClauses gatheredWords scatteredWords) ∧
    ofWords gatheredWords =
      .ok ⟨["a", "b", "c"], "T", ["x", "=", "1"]⟩ ∧
    ofWords gatheredWords = ofWords scatteredWords ∧
    Rearranged [fieldsPassage, tablePassage] [tablePassage, fieldsPassage] ∧
    ofWords ["select", "a", "b,c", "from", "T"] =
      ofWords ["from", "T", "select", "a", "b,c"] := by
  have hgathered : Opened gatheredWords := by decide
  have hscattered : Opened scatteredWords := by decide
  have hsame : SameClauses gatheredWords scatteredWords := ⟨rfl, rfl, rfl⟩
  have hturned :
      Rearranged [fieldsPassage, tablePassage] [tablePassage, fieldsPassage] := by
    refine .reordered fun clause => ?_
    cases clause with
    | fields | table | condition => rfl
  obtain ⟨hread, hlaw, hpassages⟩ := clause_words_decide_query
  exact ⟨⟨hgathered, hscattered, hsame⟩, (hread hgathered).trans rfl,
    hlaw hgathered hscattered hsame, hturned, hpassages hturned⟩

end TableQuery.Query

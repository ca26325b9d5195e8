import TableQuery.Proofs.ClauseWords
import TableQuery.Proofs.FileLines

/-!
# Queries written back

Which queries are there to be read? Of a field nothing is left but what stands
between separators, and no keyword gets past the reader into the table or the
condition, so every query that is read is `Sound`. A field may be a keyword all
the same, as it may stand in a word with others. Written by itself it would open
a clause; with a comma behind it does not, and the comma is no part of any
field. So `toWords` writes the fields as one word with a comma behind each, and
reading gives back every sound query that is so written (`ofWords_toWords`).
-/

namespace TableQuery.Query

/-- A name that a word with several names can hold: there is something of it,
and no separator in it. -/
structure IsFieldName (name : String) : Prop where
  ne_empty : name ≠ ""
  unbroken : ∀ c ∈ name.toList, c ≠ ',' ∧ Text.isBlank c = false

/-- What holds of every query that is read. -/
structure Sound (q : Query) : Prop where
  fields_ne_nil : q.fields ≠ []
  isFieldName : ∀ name ∈ q.fields, IsFieldName name
  table_ne_empty : q.table ≠ ""
  isPlain_table : IsPlain q.table
  isPlain_condition : ∀ word ∈ q.condition, IsPlain word

/-- Names in one word, a comma between two and one more behind the last. -/
def fieldsWord (names : List String) : String :=
  ",".intercalate names ++ ","

/-- A query as words. -/
def toWords (q : Query) : List String :=
  ["select", fieldsWord q.fields, "from", q.table, "where"] ++ q.condition

/-! ## Names in a word -/

theorem isFieldSeparator_eq_false {c : Char} :
    isFieldSeparator c = false ↔ c ≠ ',' ∧ Text.isBlank c = false := by
  rw [isFieldSeparator, Bool.or_eq_false_iff, beq_eq_false_iff_ne]

theorem fieldNames_append_separator {c : Char} (h : isFieldSeparator c = true)
    (cs ds : List Char) :
    fieldNames (.ofList (cs ++ c :: ds)) =
      fieldNames (.ofList cs) ++ fieldNames (.ofList ds) := by
  simp only [fieldNames, String.toList_ofList]
  rw [List.splitOnP_append_cons cs ds h, List.filter_append, List.map_append]

theorem fieldNames_unbroken {cs : List Char}
    (h : ∀ c ∈ cs, isFieldSeparator c = false) :
    fieldNames (.ofList cs) = if cs = [] then [] else [.ofList cs] := by
  rw [fieldNames, String.toList_ofList, List.splitOnP_eq_singleton h]
  cases cs with
  | nil => rfl
  | cons c cs => rfl

theorem isFieldName_ofList {cs : List Char} (hne : cs ≠ [])
    (h : ∀ c ∈ cs, isFieldSeparator c = false) : IsFieldName (.ofList cs) where
  ne_empty hempty := hne (by rw [← String.toList_ofList (l := cs), hempty]; rfl)
  unbroken c hc := by
    rw [String.toList_ofList] at hc
    exact isFieldSeparator_eq_false.1 (h c hc)

theorem isFieldName_of_mem_unbroken {piece : List Char} {name : String}
    (hpiece : ∀ c ∈ piece, isFieldSeparator c = false)
    (h : name ∈ fieldNames (.ofList piece)) : IsFieldName name := by
  rw [fieldNames_unbroken hpiece] at h
  split at h
  · cases h
  · next hne =>
      rw [List.mem_singleton.1 h]
      exact isFieldName_ofList hne hpiece

theorem isFieldName_of_mem {word name : String} (h : name ∈ fieldNames word) :
    IsFieldName name := by
  obtain ⟨cs, rfl⟩ : ∃ cs, String.ofList cs = word := ⟨_, String.ofList_toList⟩
  induction cs using Text.pieceInduction isFieldSeparator with
  | last piece hpiece => exact isFieldName_of_mem_unbroken hpiece h
  | more piece c rest hpiece hc ih =>
      rw [fieldNames_append_separator hc, List.mem_append] at h
      rcases h with h | h
      · exact isFieldName_of_mem_unbroken hpiece h
      · exact ih h

theorem IsFieldName.fieldNames_append {name : String} (h : IsFieldName name)
    (rest : String) :
    fieldNames (name ++ "," ++ rest) = name :: fieldNames rest := by
  have hpiece : ∀ c ∈ name.toList, isFieldSeparator c = false := fun c hc =>
    isFieldSeparator_eq_false.2 (h.unbroken c hc)
  have hne : name.toList ≠ [] := mt String.toList_eq_nil_iff.1 h.ne_empty
  have hword : name ++ "," ++ rest = .ofList (name.toList ++ ',' :: rest.toList) := by
    rw [← String.toList_inj]
    simp
  rw [hword, fieldNames_append_separator rfl, fieldNames_unbroken hpiece,
    if_neg hne, String.ofList_toList, String.ofList_toList]
  rfl

theorem fieldNames_fieldsWord {names : List String}
    (h : ∀ name ∈ names, IsFieldName name) : fieldNames (fieldsWord names) = names := by
  match names with
  | [] => rfl
  | [name] =>
      have hname := (h name List.mem_cons_self).fieldNames_append ""
      rw [String.append_empty] at hname
      exact hname
  | name :: next :: rest =>
      have hrest := fieldNames_fieldsWord fun n hn => h n (List.mem_cons_of_mem name hn)
      rw [fieldsWord, String.intercalate_cons_cons, String.append_assoc,
        (h name List.mem_cons_self).fieldNames_append]
      exact congrArg (name :: ·) hrest

/-- The comma keeps the word from being a keyword. -/
theorem isPlain_fieldsWord (names : List String) : IsPlain (fieldsWord names) := by
  have hcomma : ',' ∈ Text.folded (fieldsWord names) := by
    refine List.mem_map.2 ⟨',', ?_, rfl⟩
    rw [fieldsWord, String.toList_append]
    exact List.mem_append_right _ (by decide)
  have hkeywords : ∀ keyword ∈ ["select", "from", "where"], ',' ∉ keyword.toList := by
    decide
  intro keyword hkeyword heq
  exact hkeywords keyword hkeyword (heq ▸ hcomma)

/-! ## What is read -/

theorem opened_of_ofWords {words : List String} {q : Query}
    (h : ofWords words = .ok q) : Opened words := by
  intro first hfirst hplain
  cases words with
  | nil => cases hfirst
  | cons word rest =>
      cases hfirst
      have hadd : Draft.add {} first = .error (.strayWord first) := by
        simp only [Draft.add, hplain]
      rw [ofWords, List.foldlM_cons, hadd] at h
      cases h

theorem isPlain_of_mem_wordsOf {clause : Clause} {words : List String}
    {word : String} (h : word ∈ wordsOf clause words) : IsPlain word := by
  obtain ⟨entry, hentry, rfl⟩ := List.mem_map.1 h
  have hcond := (List.mem_filter.1 hentry).2
  rw [decide_eq_true_eq] at hcond
  exact ofWord?_eq_none_iff.1 hcond.1

theorem sound_of_ofWords {words : List String} {q : Query}
    (h : ofWords words = .ok q) : q.Sound := by
  rw [ofWords_eq (opened_of_ofWords h), finish_eq_ok_iff] at h
  obtain ⟨rfl, hfields, htable⟩ := h
  refine ⟨hfields, fun name hname => ?_, htable, ?_, fun word hword => ?_⟩
  · obtain ⟨word, -, hmem⟩ := List.mem_flatMap.1 hname
    exact isFieldName_of_mem hmem
  · cases hlast : (wordsOf .table words).getLast? with
    | none => exact absurd (by rw [content, hlast]; rfl) htable
    | some table =>
        have hmem := List.mem_of_getLast? hlast
        rw [content, hlast]
        exact isPlain_of_mem_wordsOf hmem
  · exact isPlain_of_mem_wordsOf hword

theorem Sound.ofWords_toWords {q : Query} (h : q.Sound) :
    ofWords q.toWords = .ok q := by
  have hread := ofWords_inOrder
    (List.forall_mem_singleton.2 (ofWord?_eq_none_iff.2 (isPlain_fieldsWord q.fields)))
    (ofWord?_eq_none_iff.2 h.isPlain_table)
    fun word hword => ofWord?_eq_none_iff.2 (h.isPlain_condition word hword)
  rw [List.flatMap_singleton, fieldNames_fieldsWord h.isFieldName] at hread
  exact hread.trans (finish_eq_ok_iff.2 ⟨rfl, h.fields_ne_nil, h.table_ne_empty⟩)

/-- A query that is read can be written back as words, and these are read as
the query again. -/
theorem read_query_is_written_back {words : List String} {q : Query}
    (h : ofWords words = .ok q) : q.Sound ∧ ofWords q.toWords = .ok q := by
  have hsound := sound_of_ofWords h
  exact ⟨hsound, hsound.ofWords_toWords⟩

/-- Words with keywords among the fields, two tables of which the last counts,
and an empty word in the condition. -/
def keywordFields : List String :=
  ["from", "S", "Select", "a,FROM", "where,", "from", "T", "WHERE", "", "=", "x y"]

theorem keyword_fields_are_written_back :
    ofWords keywordFields =
      .ok ⟨["a", "FROM", "where"], "T", ["", "=", "x y"]⟩ ∧
    ofWords ["select", "a,FROM,where,", "from", "T", "where", "", "=", "x y"] =
      .ok ⟨["a", "FROM", "where"], "T", ["", "=", "x y"]⟩ := by
  have hread : ofWords keywordFields =
      .ok ⟨["a", "FROM", "where"], "T", ["", "=", "x y"]⟩ := rfl
  exact ⟨hread, (read_query_is_written_back hread).2⟩

end TableQuery.Query

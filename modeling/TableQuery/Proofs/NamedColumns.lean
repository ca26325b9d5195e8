import TableQuery.Proofs.NumberedWords
import TableQuery.Proofs.SelectedRows

/-!
# A query sees only the columns it names

The fields that a query shows stand in it, and so do the fields that its
condition asks for: the words with a number divisible by four. What other
columns a table has, and in which order, makes no difference. Here this is a
statement about two tables that are equally long and have the same column, or
none, for each of these fields (`Query.SeesSame`): a query is refused over both
for the same reason, or selects the same rows from both and shows the same
lines.

No induction is needed. What the words of a condition stand for is known word by
word (`Condition.interpret_eq`), and there a table occurs at a literal only,
where it is asked for the column of the field two words before.
-/

namespace TableQuery

/-- Two tables in which a query finds the same: as many rows, and for each field
that it shows or asks for the same column, or none in either. -/
structure Query.SeesSame (q : Query) (t u : Table) : Prop where
  rowCount_eq : t.rowCount = u.rowCount
  shown : ∀ name ∈ q.fields, t.column? name = u.column? name
  asked : ∀ n name, n % 4 = 0 →
    (Condition.plainWords q.condition)[n]? = some name →
    t.column? name = u.column? name

section

variable {t u : Table}

theorem Table.rowsWhere_congr (hcount : t.rowCount = u.rowCount)
    (p : Nat → Bool) : t.rowsWhere p = u.rowsWhere p := by
  apply IndexSet.ext_mem
  intro i
  rw [mem_rowsWhere, mem_rowsWhere, hcount]

theorem Table.entry?_congr {name : String}
    (h : t.column? name = u.column? name) (row : Nat) :
    t.entry? name row = u.entry? name row := by
  unfold entry?
  rw [h]

theorem Predicate.holds_congr {p : Predicate}
    (h : t.column? p.field = u.column? p.field) : p.holds t = p.holds u := by
  funext row
  rw [holds, holds, Table.entry?_congr h]

namespace Condition

theorem number_lt_of_plain {words : List String} {i : Nat} {word : String}
    (hword : words[i]? = some word) (hplain : parenthesis? word = none) :
    number words i < (plainWords words).length := by
  obtain ⟨hlt, rfl⟩ := List.getElem?_eq_some_iff.1 hword
  have hsplit : words = words.take i ++ words[i] :: words.drop (i + 1) := by
    rw [List.getElem_cons_drop, List.take_append_drop]
  have hwords : plainWords words = plainWords (words.take i) ++
      words[i] :: plainWords (words.drop (i + 1)) := by
    conv_lhs => rw [hsplit, plainWords_append, plainWords_of_plain hplain]
  rw [number, hwords, List.length_append, List.length_cons]
  omega

/-- The field of a literal is the word two numbers before it. -/
theorem column?_predicateAt {q : Query} (h : q.SeesSame t u) {i : Nat}
    {word : String} (hword : q.condition[i]? = some word)
    (hplain : parenthesis? word = none) (hnumber : number q.condition i % 4 = 2) :
    t.column? (predicateAt q.condition (number q.condition i)).field =
      u.column? (predicateAt q.condition (number q.condition i)).field := by
  have hlt := number_lt_of_plain hword hplain
  have hfield : number q.condition i - 2 <
      (plainWords q.condition).length := by omega
  apply h.asked (number q.condition i - 2) _ (by omega)
  rw [predicateAt, List.getD_eq_getElem?_getD,
    List.getElem?_eq_getElem hfield]
  rfl

theorem tokensAt_congr {q : Query} (h : q.SeesSame t u) (i : Nat) :
    tokensAt t q.condition i = tokensAt u q.condition i := by
  rw [tokensAt, tokensAt]
  cases hword : q.condition[i]? with
  | none => rfl
  | some word =>
      cases hplain : parenthesis? word with
      | some token => simp only [hplain]
      | none =>
          simp only [hplain]
          split
          · next hnumber =>
              have hcolumn := column?_predicateAt h hword hplain hnumber
              rw [Predicate.holds_congr hcolumn,
                Table.rowsWhere_congr h.rowCount_eq]
          · rfl

theorem tokens_congr {q : Query} (h : q.SeesSame t u) (ht : t.Even)
    (hu : u.Even) :
    Reading.field.tokens t q.condition = Reading.field.tokens u q.condition := by
  have htokens : ∀ {t : Table}, t.Even → Reading.field.tokens t q.condition =
      (List.range q.condition.length).flatMap (tokensAt t q.condition) :=
    fun ht => congrArg Prod.fst (interpret_eq ht q.condition)
  rw [htokens ht, htokens hu, funext (tokensAt_congr h)]

end Condition

namespace Selection

/-- The outcome is the same wherever the query says that the table is. -/
theorem map_rows_ofTable_congr {q : Query} (h : q.SeesSame t u) (ht : t.Even)
    (hu : u.Even) (path : String) :
    (ofTable { q with table := path } u).map (·.rows) =
      (ofTable q t).map (·.rows) := by
  rw [map_rows_ofTable, map_rows_ofTable, h.rowCount_eq,
    Condition.tokens_congr h ht hu]

theorem shownRow_congr {q : Query} {s s' : Selection}
    (h : q.SeesSame s.table s'.table) (hs : s.query.fields = q.fields)
    (hs' : s'.query.fields = q.fields) (separator : String) (row : Int) :
    s'.shownRow separator row = s.shownRow separator row := by
  rw [shownRow, shownRow, hs, hs']
  congr 1
  refine List.map_congr_left fun name hname => ?_
  rw [Table.shown, Table.shown, Table.entry?_congr (h.shown name hname)]

/-- Two selections show the same lines if they have the same rows and each line
is the same in both. -/
theorem lines_congr {s s' : Selection} (hs : s.Showable) (hs' : s'.Showable)
    (hrows : s'.rows = s.rows) {separator : String}
    (hline : ∀ row, s'.shownRow separator row = s.shownRow separator row)
    (header : Bool) :
    (s.rows.toList = [] ∧
        s.lines separator header = .error (.noRows s.query.table) ∧
        s'.lines separator header = .error (.noRows s'.query.table)) ∨
      ∃ lines, s.lines separator header = .ok lines ∧
        s'.lines separator header = .ok lines := by
  by_cases hnil : s.rows.toList = []
  · exact .inl ⟨hnil, lines_of_no_rows hnil separator header,
      lines_of_no_rows (by rw [hrows, hnil]) separator header⟩
  · refine .inr ⟨_, hs.lines_eq hnil separator header, ?_⟩
    rw [hs'.lines_eq (by rw [hrows]; exact hnil), hrows, funext hline]

/-- Selections that come to the same rows are refused for one reason, if at all. -/
theorem ofTable_cases {q q' : Query}
    (h : (ofTable q' u).map (·.rows) = (ofTable q t).map (·.rows)) :
    (∃ e, ofTable q t = .error e ∧ ofTable q' u = .error e) ∨
      ∃ s s', ofTable q t = .ok s ∧ ofTable q' u = .ok s' ∧
        s'.rows = s.rows := by
  cases hs : ofTable q t with
  | error e =>
      rw [hs] at h
      cases hs' : ofTable q' u with
      | error e' => rw [hs'] at h; cases h; exact .inl ⟨e, rfl, rfl⟩
      | ok s' => rw [hs'] at h; cases h
  | ok s =>
      rw [hs] at h
      cases hs' : ofTable q' u with
      | error e' => rw [hs'] at h; cases h
      | ok s' => rw [hs'] at h; exact .inr ⟨s, s', rfl, rfl, Except.ok.inj h⟩

/-- Over two loaded tables, in two places perhaps, that are equally long and have
the same columns under the names that a query shows or asks for, the query is
refused over both for one reason, or it selects the same rows from both and shows
the same lines, whatever goes between cells and with the header or without. Where
no row is selected there are no lines over either. -/
theorem query_sees_named_columns {files files' : Path → Entry}
    {separator separator' path : String} {t u : Table} (query : Query)
    (hload : Table.load files (Path.ofString query.table) separator = .ok t)
    (hload' : Table.load files' (Path.ofString path) separator' = .ok u)
    (h : query.SeesSame t u) :
    (∃ e, ofQuery files separator query = .error (.condition e) ∧
      ofQuery files' separator' { query with table := path } =
        .error (.condition e)) ∨
    ∃ s s', ofQuery files separator query = .ok s ∧
      ofQuery files' separator' { query with table := path } = .ok s' ∧
      s'.rows = s.rows ∧
      ∀ outputSeparator header,
        (s.rows.toList = [] ∧
          s.lines outputSeparator header = .error (.noRows query.table) ∧
          s'.lines outputSeparator header = .error (.noRows path)) ∨
        ∃ lines, s.lines outputSeparator header = .ok lines ∧
          s'.lines outputSeparator header = .ok lines := by
  have ht := Table.even_of_load hload
  have hu := Table.even_of_load hload'
  have hof : ofQuery files separator query =
      (ofTable query t).mapError .condition := ofQuery_of_load hload
  have hof' : ofQuery files' separator' { query with table := path } =
      (ofTable { query with table := path } u).mapError .condition :=
    ofQuery_of_load hload'
  rw [hof, hof']
  rcases ofTable_cases (map_rows_ofTable_congr h ht hu path) with
    ⟨e, he, he'⟩ | ⟨s, s', hs, hs', hrows⟩
  · exact .inl ⟨e, by rw [he]; rfl, by rw [he']; rfl⟩
  · have hshow := showable_of_ofTable ht hs
    have hshow' := showable_of_ofTable hu hs'
    refine .inr ⟨s, s', by rw [hs]; rfl, by rw [hs']; rfl, hrows, ?_⟩
    obtain ⟨hquery, rfl⟩ := ofTable_eq_ok hs
    obtain ⟨hquery', rfl⟩ := ofTable_eq_ok hs'
    have hline := shownRow_congr h (by rw [hquery]) (by rw [hquery'])
    intro outputSeparator header
    have hlines := lines_congr hshow hshow' hrows (hline outputSeparator) header
    rwa [hquery, hquery'] at hlines

/-- Two columns of the sample table in the other order, with one between them
that the sample table does not have. -/
def swappedFile : List UInt8 :=
  "c,x,a\n7,,1\n8,0,2\n9,,3\n".toList.map fun c => c.toNat.toUInt8

/-- The table of `swappedFile`. -/
def swappedTable : Table :=
  .ofRows (.ofString "B") ["c", "x", "a"]
    [["7", "", "1"], ["8", "0", "2"], ["9", "", "3"]]

/-- It shows a field and asks for one that neither table has, and its condition
has a parenthesis inside a predicate and breaks off. -/
def namingQuery : Query where
  fields := ["c", "z"]
  table := "A"
  condition := ["a", "(", "-ge", "2", ")", "xor", "y"]

theorem namingQuery_sees_same :
    namingQuery.SeesSame Condition.sampleTable swappedTable where
  rowCount_eq := rfl
  shown name hname := by
    rcases List.mem_cons.1 hname with rfl | hname
    · rfl
    · rw [List.mem_singleton.1 hname]
      rfl
  asked n name hn hname := by
    have hplain : Condition.plainWords namingQuery.condition =
        ["a", "-ge", "2", "xor", "y"] := rfl
    rw [hplain] at hname
    match n with
    | 0 | 4 => cases hname; rfl
    | 1 | 2 | 3 => cases hn
    | n + 5 => cases hname

theorem namingQuery_shows_same_lines :
    Table.load (fun _ => .file Condition.sampleFile) (.ofString "A") " " =
      .ok Condition.sampleTable ∧
    Table.load (fun _ => .file swappedFile) (.ofString "B") "," =
      .ok swappedTable ∧
    namingQuery.SeesSame Condition.sampleTable swappedTable ∧
    ∃ s s', ofQuery (fun _ => .file Condition.sampleFile) " " namingQuery =
        .ok s ∧
      ofQuery (fun _ => .file swappedFile) "," { namingQuery with table := "B" } =
        .ok s' ∧
      s'.rows = s.rows ∧ s.rows.toList = [2, 3] ∧
      s'.lines "|" true = .ok ["c|", "8|", "9|"] := by
  have hload : Table.load (fun _ => .file Condition.sampleFile)
      (Path.ofString namingQuery.table) " " = .ok Condition.sampleTable := rfl
  have hload' : Table.load (fun _ => .file swappedFile) (.ofString "B") "," =
      .ok swappedTable := rfl
  obtain ⟨r, hr, hrows, hlines⟩ : ∃ r,
      ofQuery (fun _ => .file Condition.sampleFile) " " namingQuery = .ok r ∧
      r.rows.toList = [2, 3] ∧ r.lines "|" true = .ok ["c|", "8|", "9|"] :=
    ⟨_, rfl, rfl, rfl⟩
  refine ⟨hload, hload', namingQuery_sees_same, ?_⟩
  rcases query_sees_named_columns namingQuery hload hload'
      namingQuery_sees_same with ⟨e, he, -⟩ | ⟨s, s', hs, hs', hsame, hshow⟩
  · rw [hr] at he
    cases he
  · obtain rfl : r = s := by
      rw [hr] at hs
      exact Except.ok.inj hs
    refine ⟨r, s', hr, hs', hsame, hrows, ?_⟩
    rcases hshow "|" true with ⟨hnil, -, -⟩ | ⟨lines, h, h'⟩
    · rw [hrows] at hnil
      cases hnil
    · rw [h', ← h, hlines]

end Selection

end

end TableQuery

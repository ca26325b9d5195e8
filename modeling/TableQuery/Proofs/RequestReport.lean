import TableQuery.Proofs.ClauseWords
import TableQuery.Proofs.FileLines
import TableQuery.Proofs.LongNames
import TableQuery.Proofs.SelectedRows
import TableQuery.Proofs.SetRefusal
import TableQuery.Report

/-!
# Which requests are reported on

A request can go wrong at each of its stages, and most ways to go wrong end in
a report. The query may be unreadable, there may be no table, the condition may
be refused: `Report.ofError` has a text for each of these. That a selection
cannot be shown, for want of a cell, does not happen at all
(`Selection.Showable`).

Three ways are left. A cell may be longer than cells may be: `Request.CellsFit`
says that the table asked for has no such cell, and is no stronger than it has
to be (`Request.select_eq_cells_error_iff`). The system may fail to look the
table up, which is not the same as finding none (`Request.LookupFails`). And the
complaint about a condition may have to show a row number with too many digits,
which takes as many rows as that (`Request.Endless`).
-/

namespace TableQuery

/-! ## Lines of a file -/

namespace Table

theorem fileLines_eq_ok {path : Path} {entry : Entry} {lines : List (List Char)}
    (h : fileLines path entry = .ok lines) :
    ∃ bytes text, entry = .file bytes ∧ Text.Utf8.decode bytes = .ok text ∧
      lines = Text.inkedLines text := by
  cases entry with
  | fault error => cases h
  | other => cases h
  | locked error => cases h
  | file bytes =>
      cases hdecode : Text.Utf8.decode bytes with
      | error fault => rw [fileLines, hdecode] at h; cases h
      | ok text =>
          rw [fileLines_of_decode hdecode] at h
          cases h
          exact ⟨bytes, text, rfl, hdecode, rfl⟩

theorem isLineEnd_of_fileLines {path : Path} {entry : Entry}
    {lines : List (List Char)} (h : fileLines path entry = .ok lines) :
    ∀ line ∈ lines, ∀ c ∈ line, Cells.Reading.isLineEnd c = false := by
  obtain ⟨_, _, -, -, rfl⟩ := fileLines_eq_ok h
  exact fun line => isLineEnd_of_mem_inkedLines

theorem exists_ofLines_iff (path : Path) (separator : String)
    {lines : List (List Char)}
    (hlines : ∀ line ∈ lines, ∀ c ∈ line, Cells.Reading.isLineEnd c = false) :
    (∃ t, ofLines path separator lines = .ok t) ↔
      ∀ line ∈ lines, Cells.Fits separator line := by
  constructor
  · rintro ⟨t, ht⟩ line hline
    rw [← Cells.split_eq_ok_iff (hlines line hline)]
    obtain ⟨row, hrow⟩ := List.mem_iff_getElem?.1 hline
    match lines with
    | [] => cases hline
    | first :: rest =>
        obtain ⟨_, -, hcells⟩ :=
          (madeFrom_of_ofLines ht).entry?_eq first rfl
        obtain ⟨cells, hsplit, -⟩ := hcells row line hrow
        exact ⟨cells, hsplit⟩
  · exact exists_ofLines path hlines

/-- Why there are no lines: there is no file, or what is there is no text, or
the look-up fails. -/
theorem fileLines_eq_error {path : Path} {entry : Entry} {e : LoadError}
    (h : fileLines path entry = .error e) :
    e = .notFound path ∨ (∃ error, e = .unreadable path error) ∨
      ∃ error, e = .lookup error ∧ entry = .fault error ∧
        error.isAbsence = false := by
  cases entry with
  | fault error =>
      rw [fileLines, Except.error.injEq] at h
      split at h
      · exact .inl h.symm
      · next hnot =>
          exact .inr (.inr ⟨error, h.symm, rfl, eq_false_of_ne_true hnot⟩)
  | other =>
      cases h
      exact .inl rfl
  | locked error =>
      cases h
      exact .inr (.inl ⟨_, rfl⟩)
  | file bytes =>
      rw [fileLines] at h
      cases hdecode : Text.Utf8.decode bytes with
      | error fault =>
          rw [hdecode] at h
          cases h
          exact .inr (.inl ⟨_, rfl⟩)
      | ok text =>
          rw [hdecode] at h
          cases h

theorem fileLines_ne_cells {path : Path} {entry : Entry} {e : Cells.Error} :
    fileLines path entry ≠ .error (.cells e) := by
  intro h
  rcases fileLines_eq_error h with h | ⟨_, h⟩ | ⟨_, h, -⟩
  · cases h
  · cases h
  · cases h

theorem fileLines_eq_lookup_error_iff {path : Path} {entry : Entry}
    {e : SystemError} :
    fileLines path entry = .error (.lookup e) ↔
      entry = .fault e ∧ e.isAbsence = false := by
  constructor
  · intro h
    rcases fileLines_eq_error h with h | ⟨_, h⟩ | ⟨error, h, hentry⟩
    · cases h
    · cases h
    · cases h
      exact hentry
  · rintro ⟨rfl, hnot⟩
    rw [fileLines, hnot]
    rfl

theorem load_of_no_lines {files : Path → Entry} {path : Path}
    {separator : String} {e : LoadError}
    (h : fileLines path (files path) = .error e) :
    load files path separator = .error e := by
  rw [load, h]
  rfl

/-- Loading fails at the look-up exactly if the look-up fails, for another
reason than that there is nothing at the path. -/
theorem load_eq_lookup_error_iff {files : Path → Entry} {path : Path}
    {separator : String} {e : SystemError} :
    load files path separator = .error (.lookup e) ↔
      files path = .fault e ∧ e.isAbsence = false := by
  rw [← @fileLines_eq_lookup_error_iff path]
  cases hlines : fileLines path (files path) with
  | error e' =>
      rw [load_of_no_lines hlines]
      simp only [Except.error.injEq]
  | ok lines =>
      rw [load_of_fileLines hlines]
      cases ofLines path separator lines <;> simp [Except.mapError]

/-- Loading fails at a cell if the file has lines, and one that does not fit. -/
theorem load_eq_cells_error_iff {files : Path → Entry}
    {path : Path} {separator : String} :
    (∃ e, load files path separator = .error (.cells e)) ↔
      ∃ lines, fileLines path (files path) = .ok lines ∧
        ¬ ∀ line ∈ lines, Cells.Fits separator line := by
  cases hlines : fileLines path (files path) with
  | error e =>
      constructor
      · rintro ⟨e', he'⟩
        rw [load_of_no_lines hlines] at he'
        cases he'
        exact absurd hlines fileLines_ne_cells
      · rintro ⟨lines, h, -⟩
        cases h
  | ok lines =>
      rw [load_of_fileLines hlines]
      have hiff := exists_ofLines_iff path separator
        (isLineEnd_of_fileLines hlines)
      constructor
      · rintro ⟨e, he⟩
        refine ⟨lines, rfl, ?_⟩
        rw [← hiff]
        rintro ⟨t, ht⟩
        rw [ht] at he
        cases he
      · rintro ⟨_, h, hnot⟩
        cases h
        rw [← hiff] at hnot
        cases hof : ofLines path separator lines with
        | ok t => exact absurd ⟨t, hof⟩ hnot
        | error e => exact ⟨e, rfl⟩

end Table

/-! ## What a request selects -/

namespace Request

/-- The table file that a request comes to, if any, has no cell that is longer
than cells may be. -/
def CellsFit (files : Path → Entry) (separator : String)
    (r : Request) : Prop :=
  ∀ query lines, r.read = .ok query →
    Table.fileLines (Path.ofString query.table)
      (files (Path.ofString query.table)) = .ok lines →
    ∀ line ∈ lines, Cells.Fits separator line

theorem select_of_read {r : Request} {query : Query} (h : r.read = .ok query)
    (files : Path → Entry) (separator : String) :
    r.select files separator =
      (Selection.ofQuery files separator query).mapError .selection := by
  rw [select, h]
  rfl

theorem exists_ofQuery_of_select {files : Path → Entry}
    {separator : String} {r : Request} {s : Selection}
    (h : r.select files separator = .ok s) :
    ∃ query, r.read = .ok query ∧
      Selection.ofQuery files separator query = .ok s := by
  cases hread : r.read with
  | error e =>
      rw [select, hread] at h
      cases h
  | ok query =>
      rw [select_of_read hread] at h
      cases hof : Selection.ofQuery files separator query with
      | error e => rw [hof] at h; cases h
      | ok selection =>
          rw [hof] at h
          cases h
          exact ⟨query, rfl, hof⟩

theorem showable_of_select {files : Path → Entry}
    {separator : String} {r : Request} {s : Selection}
    (h : r.select files separator = .ok s) : s.Showable := by
  obtain ⟨query, -, hof⟩ := exists_ofQuery_of_select h
  exact Selection.showable_of_ofQuery hof

/-- Loading is the one stage of a request that fails in the way of loading. -/
theorem select_eq_load_error_iff {files : Path → Entry}
    {separator : String} {r : Request} {e : LoadError} :
    r.select files separator = .error (.selection (.load e)) ↔
      ∃ query, r.read = .ok query ∧
        Table.load files (Path.ofString query.table) separator = .error e := by
  cases hread : r.read with
  | error e' => simp [select, hread, Except.mapError, bind, Except.bind]
  | ok query =>
      rw [select_of_read hread]
      cases hload : Table.load files (Path.ofString query.table) separator with
      | error e' =>
          have hof : Selection.ofQuery files separator query =
              .error (.load e') := by
            rw [Selection.ofQuery, hload]
            rfl
          simp [hof, hload, Except.mapError]
      | ok t =>
          rw [Selection.ofQuery_of_load hload]
          cases hof : Selection.ofTable query t with
          | error e' => simp [hload, Except.mapError]
          | ok s => simp [hload, Except.mapError]

theorem select_eq_cells_error_iff {files : Path → Entry}
    {separator : String} {r : Request} :
    (∃ e, r.select files separator =
        .error (.selection (.load (.cells e)))) ↔
      ¬ r.CellsFit files separator := by
  simp only [select_eq_load_error_iff]
  constructor
  · rintro ⟨e, query, hread, he⟩ hfit
    obtain ⟨lines, hlines, hnot⟩ := Table.load_eq_cells_error_iff.1 ⟨e, he⟩
    exact hnot (hfit query lines hread hlines)
  · intro hnot
    simp only [CellsFit, not_forall] at hnot
    obtain ⟨query, lines, hread, hlines, hnot⟩ := hnot
    obtain ⟨e, he⟩ := Table.load_eq_cells_error_iff.2
      ⟨lines, hlines, by simpa only [not_forall] using hnot⟩
    exact ⟨e, query, hread, he⟩

/-- The look-up of the table file fails, for another reason than that there is
nothing at its path. -/
def LookupFails (files : Path → Entry) (r : Request) (e : SystemError) : Prop :=
  ∃ query, r.read = .ok query ∧
    files (Path.ofString query.table) = .fault e ∧ e.isAbsence = false

theorem select_eq_lookup_error_iff {files : Path → Entry} {separator : String}
    {r : Request} {e : SystemError} :
    r.select files separator = .error (.selection (.load (.lookup e))) ↔
      r.LookupFails files e := by
  simp only [select_eq_load_error_iff, Table.load_eq_lookup_error_iff]
  rfl

/-- The look-up of a name that is too long fails, whatever files there are. -/
theorem lookupFails_of_long_name (t : FileTree) {r : Request} {query : Query}
    (hread : r.read = .ok query) (hname : Path.IsName query.table)
    (hlong : FileTree.maxNameLength < query.table.utf8ByteSize) :
    r.LookupFails t.read (.nameTooLong query.table) :=
  ⟨query, hread, t.read_of_long_name hname hlong, rfl⟩

/-- The table has so many rows that not all their numbers can be written. -/
def Endless (files : Path → Entry) (separator : String) (r : Request) : Prop :=
  ∃ query t, r.read = .ok query ∧
    Table.load files (Path.ofString query.table) separator = .ok t ∧
    Numeral.leastTooLong ≤ t.rowCount

theorem select_eq_condition_error {files : Path → Entry} {separator : String}
    {r : Request} {e : SetExpression.Error}
    (h : r.select files separator = .error (.selection (.condition e))) :
    ∃ query t, r.read = .ok query ∧
      Table.load files (Path.ofString query.table) separator = .ok t ∧
      SetExpression.evaluate
        (Condition.Reading.field.tokens t query.condition) = .error e := by
  cases hread : r.read with
  | error e' =>
      rw [select, hread] at h
      cases h
  | ok query =>
      rw [select_of_read hread] at h
      cases hload : Table.load files (Path.ofString query.table) separator with
      | error e' =>
          rw [Selection.ofQuery, hload] at h
          cases h
      | ok t =>
          refine ⟨query, t, rfl, hload, ?_⟩
          rw [← Selection.ofQuery_eq_error_iff query hload]
          cases hof : Selection.ofQuery files separator query with
          | ok s => rw [hof] at h; cases h
          | error e' =>
              rw [hof] at h
              cases h
              rfl

/-- A refused condition is complained about unless the table is endless. The
sets of a condition are rows of its table. -/
theorem exists_complaint_of_select {files : Path → Entry} {separator : String}
    {r : Request} {e : SetExpression.Error}
    (h : r.select files separator = .error (.selection (.condition e)))
    (hrows : ¬ r.Endless files separator) : ∃ text, e.complaint = .ok text := by
  obtain ⟨query, t, hread, hload, he⟩ := select_eq_condition_error h
  refine SetExpression.exists_complaint_of_evaluate he fun u hu i hi => ?_
  obtain ⟨p, rfl⟩ := Condition.exists_matching_of_mem_tokens hu
  rw [Predicate.matching_eq (Table.even_of_load hload), Table.mem_rowsWhere] at hi
  have hcount : t.rowCount < Numeral.leastTooLong :=
    Nat.lt_of_not_le fun hle => hrows ⟨query, t, hread, hload, hle⟩
  omega

/-- The ways in which a request goes without a report although no cell is too
long. -/
inductive Unreported (files : Path → Entry) (separator : String) (r : Request) :
    Abort → Prop
  | lookup {e : SystemError} :
      r.LookupFails files e → Unreported files separator r (.lookup e)
  | endless :
      r.Endless files separator → Unreported files separator r (.digits {})

end Request

namespace Report

/-- The lines that show a selection, under the header where it is wanted. -/
def shown (settings : Settings) (s : Selection) : String :=
  unlines (((if settings.header then [0] else []) ++ s.rows.toList).map
    (s.shownRow settings.outputSeparator))

/-- What is said of a request that selects nothing. -/
theorem ofError_of_select {files : Path → Entry} {separator : String}
    {r : Request} {e : RequestError} (h : r.CellsFit files separator)
    (hselect : r.select files separator = .error e) :
    (∃ errors, ofError e = .ok { status := failed, errors }) ∨
    ∃ abort, ofError e = .error abort ∧ r.Unreported files separator abort := by
  match e with
  | .query e => exact .inl ⟨_, rfl⟩
  | .selection (.load (.notFound path)) => exact .inl ⟨_, rfl⟩
  | .selection (.load (.unreadable path error)) => exact .inl ⟨_, rfl⟩
  | .selection (.load (.lookup e)) =>
      exact .inr ⟨.lookup e, rfl,
        .lookup (Request.select_eq_lookup_error_iff.1 hselect)⟩
  | .selection (.load (.cells e)) =>
      exact absurd h (Request.select_eq_cells_error_iff.1 ⟨e, hselect⟩)
  | .selection (.condition e) =>
      cases hcomplaint : e.complaint with
      | ok text =>
          refine .inl ⟨(ofComplaint text).errors, ?_⟩
          rw [ofError, hcomplaint]
          rfl
      | error digits =>
          refine .inr ⟨.digits {}, ?_, .endless ?_⟩
          · rw [ofError, hcomplaint]
            rfl
          · -- If all numbers of rows could be written there were a complaint.
            by_contra hendless
            obtain ⟨text, htext⟩ :=
              Request.exists_complaint_of_select hselect hendless
            rw [hcomplaint] at htext
            cases htext

theorem ofSelection_of_rows {s : Selection} (hs : s.Showable)
    (hne : s.rows.toList ≠ []) (settings : Settings) :
    ∃ errors, ofSelection settings s =
      .ok { status := rowsPrinted, output := shown settings s, errors } := by
  rw [ofSelection]
  simp only [hs.lines_eq hne]
  exact ⟨_, rfl⟩

theorem ofSelection_of_no_rows {s : Selection} (hnil : s.rows.toList = [])
    (settings : Settings) :
    ∃ errors, ofSelection settings s = .ok { status := noRows, errors } := by
  rw [ofSelection]
  simp only [Selection.lines_of_no_rows hnil]
  exact ⟨_, rfl⟩

theorem status_ofSelection_of_rows {s : Selection} (hs : s.Showable)
    (hne : s.rows.toList ≠ []) (settings : Settings) :
    ∃ report, ofSelection settings s = .ok report ∧ report.status = 0 := by
  obtain ⟨errors, hreport⟩ := ofSelection_of_rows hs hne settings
  exact ⟨_, hreport, rfl⟩

theorem status_ofSelection_of_no_rows {s : Selection}
    (hnil : s.rows.toList = []) (settings : Settings) :
    ∃ report, ofSelection settings s = .ok report ∧ report.status = 100 := by
  obtain ⟨errors, hreport⟩ := ofSelection_of_no_rows hnil settings
  exact ⟨_, hreport, rfl⟩

/-- Where no cell is too long there is a report, whatever the request and the
settings are, unless the table cannot be looked up or is endless. The status of
a report tells whether rows were selected, none were, or something was wrong. -/
theorem request_has_report_unless_lookup_fails (files : Path → Entry)
    (settings : Settings) (request : Request)
    (h : request.CellsFit files settings.cellSeparator) :
    (∃ report, ofRequest files settings request = .ok report ∧
      (¬ ∃ e, request.LookupFails files e) ∧
      (report.status = 0 ∧ (∃ s,
          request.select files settings.cellSeparator = .ok s ∧
          s.rows.toList ≠ []) ∨
        report.status = 100 ∧ (∃ s,
          request.select files settings.cellSeparator = .ok s ∧
          s.rows.toList = []) ∨
        report.status = 255 ∧ ∃ e,
          request.select files settings.cellSeparator = .error e)) ∨
    ∃ abort, ofRequest files settings request = .error abort ∧
      request.Unreported files settings.cellSeparator abort := by
  rw [ofRequest]
  cases hselect : request.select files settings.cellSeparator with
  | error e =>
      rcases ofError_of_select h hselect with ⟨errors, hreport⟩ | hunreported
      · refine .inl ⟨_, hreport, ?_, .inr (.inr ⟨rfl, e, rfl⟩)⟩
        rintro ⟨e', he'⟩
        rw [← Request.select_eq_lookup_error_iff, hselect] at he'
        cases he'
        cases hreport
      · exact .inr hunreported
  | ok s =>
      have hfound : ¬ ∃ e, request.LookupFails files e := by
        rintro ⟨e, he⟩
        rw [← Request.select_eq_lookup_error_iff, hselect] at he
        cases he
      by_cases hnil : s.rows.toList = []
      · obtain ⟨report, hreport, hstatus⟩ :=
          status_ofSelection_of_no_rows hnil settings
        exact .inl ⟨report, hreport, hfound, .inr (.inl ⟨hstatus, s, rfl, hnil⟩)⟩
      · obtain ⟨report, hreport, hstatus⟩ :=
          status_ofSelection_of_rows (Request.showable_of_select hselect)
            hnil settings
        exact .inl ⟨report, hreport, hfound, .inl ⟨hstatus, s, rfl, hnil⟩⟩

/-- A file of two fields and one row, whose first cell is quoted. -/
def quotedFile : List UInt8 :=
  "a,b\n\"x,y\",2\n".toList.map fun c => c.toNat.toUInt8

/-- The lines of `quotedFile`. -/
def quotedLines : List (List Char) :=
  [['a', ',', 'b'], ['\x22', 'x', ',', 'y', '\x22', ',', '2']]

/-- Cells between commas, and the header in front of the rows. -/
def commaSettings : Settings where
  cellSeparator := ","
  header := true

/-- A request for the one row of `quotedFile`. -/
def quotedRequest : Request :=
  .words ["select", "a", "from", "T", "where", "b", "=", "2"]

theorem quotedFile_is_reported_on :
    quotedRequest.CellsFit (fun _ => .file quotedFile)
      commaSettings.cellSeparator ∧
    ∃ report, ofRequest (fun _ => .file quotedFile) commaSettings
        quotedRequest = .ok report ∧
      report.status = 0 := by
  have hfits : quotedRequest.CellsFit (fun _ => .file quotedFile)
      commaSettings.cellSeparator := by
    intro query lines _ hlines line hline
    have hfile : Table.fileLines (Path.ofString query.table)
        (.file quotedFile) = .ok quotedLines := rfl
    rw [hfile] at hlines
    cases hlines
    apply Cells.fits_of_length_le
    revert line
    decide
  obtain ⟨s, hs, hrows⟩ : ∃ s, quotedRequest.select
      (fun _ => .file quotedFile) commaSettings.cellSeparator = .ok s ∧
      s.rows.toList = [1] := ⟨_, rfl, rfl⟩
  refine ⟨hfits, ?_⟩
  rcases request_has_report_unless_lookup_fails
    (fun _ => .file quotedFile) commaSettings quotedRequest hfits with
    ⟨report, hreport, -, hstatus⟩ | ⟨abort, habort, -⟩
  · refine ⟨report, hreport, ?_⟩
    rcases hstatus with ⟨h, -⟩ | ⟨-, s', hs', hnil⟩ | ⟨-, e, he⟩
    · exact h
    · rw [hs] at hs'
      cases hs'
      rw [hrows] at hnil
      cases hnil
    · rw [hs] at he
      cases he
  · obtain ⟨errors, hreport⟩ := ofSelection_of_rows
      (Request.showable_of_select hs) (by simp [hrows]) commaSettings
    rw [ofRequest, hs] at habort
    rw [show ofSelection commaSettings s = .error abort from habort] at hreport
    cases hreport

/-- A request that names a table by a word that is no keyword. -/
theorem read_words_of_table {table : String}
    (hplain : Query.Clause.ofWord? table = none) (hne : table ≠ "") :
    (Request.words ["select", "a", "from", table]).read =
      .ok ⟨["a"], table, []⟩ := by
  have hadd : Query.Draft.add ⟨some .table, ⟨["a"], "", []⟩⟩ table =
      .ok ⟨some .table, ⟨["a"], table, []⟩⟩ := by
    rw [Query.Draft.add, hplain]
  show (Query.Draft.add ⟨some .table, ⟨["a"], "", []⟩⟩ table >>= pure) >>=
    Query.Draft.finish = _
  rw [hadd]
  have hfields : (["a"] : List String) ≠ [] := List.cons_ne_nil _ _
  exact Query.finish_eq_ok_iff (d := ⟨some .table, ⟨["a"], table, []⟩⟩).2
    ⟨rfl, hfields, hne⟩

/-- A name of so many letters. -/
def letters (n : Nat) : String :=
  String.ofList (List.replicate n 'a')

theorem eq_of_mem_letters {n : Nat} {c : Char} (h : c ∈ (letters n).toList) :
    c = 'a' := by
  rw [letters, String.toList_ofList] at h
  exact (List.mem_replicate.1 h).2

theorem length_folded_letters (n : Nat) :
    (Text.folded (letters n)).length = n := by
  rw [Text.folded, letters, List.length_map, String.toList_ofList,
    List.length_replicate]

/-- A name with one letter more than the name of a file may have. -/
def longName : String :=
  letters 256

/-- A request for a table of that name. -/
def longRequest : Request :=
  .words ["select", "a", "from", longName]

theorem utf8ByteSize_longName : longName.utf8ByteSize = 256 := by
  decide +kernel

theorem longName_ne {name : String} (h : name.utf8ByteSize < 256) :
    longName ≠ name := by
  rintro rfl
  rw [utf8ByteSize_longName] at h
  cases Nat.lt_irrefl _ h

theorem isName_longName : Path.IsName longName where
  slash h := by cases eq_of_mem_letters h
  null h := by cases eq_of_mem_letters h
  empty := longName_ne (by decide)
  point := longName_ne (by decide)
  back := longName_ne (by decide)

theorem ofWord?_longName : Query.Clause.ofWord? longName = none := by
  have hne : ∀ word : List Char, word.length < 256 →
      Text.folded longName ≠ word := by
    rintro _ hlt rfl
    rw [longName, length_folded_letters] at hlt
    cases Nat.lt_irrefl _ hlt
  rw [Query.Clause.ofWord?]
  simp only [if_neg (hne "select".toList (by decide)),
    if_neg (hne "from".toList (by decide)), if_neg (hne "where".toList (by decide))]

theorem read_longRequest :
    longRequest.read = .ok ⟨["a"], longName, []⟩ :=
  read_words_of_table ofWord?_longName (longName_ne (by decide))

/-- There are no files at all, and yet this table is not reported missing. -/
theorem long_name_has_no_report :
    longRequest.CellsFit ({} : FileTree).read " " ∧
    ofRequest ({} : FileTree).read {} longRequest =
      .error (.lookup (.nameTooLong longName)) := by
  have hlong : FileTree.maxNameLength < longName.utf8ByteSize := by
    rw [utf8ByteSize_longName]
    decide
  refine ⟨fun query lines hquery hlines => ?_, ?_⟩
  · rw [read_longRequest] at hquery
    cases hquery
    rw [FileTree.read_of_long_name {} isName_longName hlong] at hlines
    cases hlines
  · have hlookup := Request.lookupFails_of_long_name {} read_longRequest
      isName_longName hlong
    rw [ofRequest, Request.select_eq_lookup_error_iff.2 hlookup]
    rfl

end Report

end TableQuery

import TableQuery.Proofs.RequestReport

/-!
# Settings that only concern presentation

Of the settings one says how a table is read. The others say how the answer is
written, and this file says that they do no more than that: whether rows are
selected, none is, something is wrong or there is no report at all is settled
before any of them is looked at (`ofRequest_outcome`). Notes go to the error
output. On the output there are lines when rows were selected and nothing at all
otherwise, so a header is printed in front of rows or not at all.

That the output cannot break off behind its first line is `Selection.Showable`
again: every line is known to be there before one is printed.
-/

namespace TableQuery

namespace Table

/-- In row zero a field shows its name. -/
theorem shown_zero_of_load {files : Path → Entry} {path : Path}
    {separator : String} {t : Table} (h : load files path separator = .ok t)
    (name : String) :
    t.shown name 0 = if t.hasField name then name else "" := by
  cases hname : t.hasField name with
  | false => exact shown_of_not_hasField hname 0
  | true =>
      obtain ⟨cells, hcells⟩ := Option.isSome_iff_exists.1 hname
      obtain ⟨lines, -, hlines⟩ := load_eq_ok h
      rcases ofLines_eq_ok hlines with
        ⟨-, rfl⟩ | ⟨_, _, header, rows, -, -, -, rfl⟩
      · cases hcells
      · obtain ⟨-, rfl⟩ := lookup_map_mk hcells
        rw [shown, entry?, hcells]
        rfl

end Table

namespace Selection

/-- The names of the query's fields, with nothing for a field that the table
lacks. -/
def headerLine (s : Selection) (separator : String) : String :=
  separator.intercalate
    (s.query.fields.map fun name => if s.table.hasField name then name else "")

theorem shownRow_zero {files : Path → Entry}
    {separator : String} {query : Query} {s : Selection}
    (h : ofQuery files separator query = .ok s) (outputSeparator : String) :
    s.shownRow outputSeparator 0 = s.headerLine outputSeparator := by
  obtain ⟨t, hload, hof⟩ := load_of_ofQuery h
  obtain ⟨-, rfl⟩ := ofTable_eq_ok hof
  rw [shownRow, headerLine]
  congr 1
  refine List.map_congr_left fun name _ => ?_
  exact Table.shown_zero_of_load hload name

end Selection

namespace Report

theorem unlines_append (lines more : List String) :
    unlines (lines ++ more) = unlines lines ++ unlines more := by
  induction lines with
  | nil => simp [unlines]
  | cons line lines ih =>
      simp only [unlines, List.cons_append, List.map_cons, String.join_cons,
        String.append_assoc] at ih ⊢
      rw [ih]

theorem unlines_ne_empty {lines : List String} (h : lines ≠ []) :
    unlines lines ≠ "" := by
  cases lines with
  | nil => exact absurd rfl h
  | cons line lines =>
      intro hnil
      rw [unlines, List.map_cons, String.join_cons] at hnil
      simp at hnil

/-- A header comes in front of the rows and changes nothing behind it. -/
theorem shown_of_header {settings other : Settings}
    (hseparator : other.outputSeparator = settings.outputSeparator)
    (hheader : settings.header = true) (hnone : other.header = false)
    (s : Selection) :
    shown settings s =
      unlines [s.shownRow settings.outputSeparator 0] ++ shown other s := by
  rw [shown, shown, hheader, hnone, hseparator, if_pos rfl, List.map_append,
    unlines_append]
  rfl

theorem shown_ne_empty {s : Selection} (h : s.rows.toList ≠ [])
    (settings : Settings) : shown settings s ≠ "" := by
  apply unlines_ne_empty
  simp [h]

/-- What a request comes to, whatever the settings of its presentation. -/
theorem ofRequest_outcome (files : Path → Entry) {separator : String}
    {request : Request} (h : request.CellsFit files separator) :
    (∃ status, status ≠ 0 ∧ ∀ settings : Settings,
        settings.cellSeparator = separator → ∃ errors,
        ofRequest files settings request = .ok { status, errors }) ∨
    (∃ s, request.select files separator = .ok s ∧ s.rows.toList ≠ [] ∧
      ∀ settings : Settings, settings.cellSeparator = separator → ∃ errors,
        ofRequest files settings request =
          .ok { status := 0, output := shown settings s, errors }) ∨
    ∃ abort, request.Unreported files separator abort ∧
      ∀ settings : Settings, settings.cellSeparator = separator →
        ofRequest files settings request = .error abort := by
  cases hselect : request.select files separator with
  | error e =>
      rcases ofError_of_select h hselect with hreport | ⟨abort, habort, hwhy⟩
      · refine .inl ⟨failed, by decide, fun settings hseparator => ?_⟩
        rw [ofRequest, hseparator, hselect]
        exact hreport
      · refine .inr (.inr ⟨abort, hwhy, fun settings hseparator => ?_⟩)
        rw [ofRequest, hseparator, hselect]
        exact habort
  | ok s =>
      by_cases hnil : s.rows.toList = []
      · refine .inl ⟨noRows, by decide, fun settings hseparator => ?_⟩
        rw [ofRequest, hseparator, hselect]
        exact ofSelection_of_no_rows hnil settings
      · refine .inr (.inl ⟨s, rfl, hnil, fun settings hseparator => ?_⟩)
        rw [ofRequest, hseparator, hselect]
        exact ofSelection_of_rows (Request.showable_of_select hselect) hnil
          settings

/-- Reports on one request, with cells separated in one way, have one status,
and something is printed exactly if rows were. Where the output is separated in
one way too it is the same, up to a header, which is one line in front of the
rows, and is not printed without them. Or there is neither report, for one
reason, and nothing is printed at all. -/
theorem presentation_keeps_answer (files : Path → Entry)
    (request : Request) (settings other : Settings)
    (hseparator : other.cellSeparator = settings.cellSeparator)
    (h : request.CellsFit files settings.cellSeparator) :
    (∃ report report', ofRequest files settings request = .ok report ∧
      ofRequest files other request = .ok report' ∧
      report'.status = report.status ∧
      (report.output ≠ "" ↔ report.status = 0) ∧
      (other.outputSeparator = settings.outputSeparator →
        (other.header = settings.header → report'.output = report.output) ∧
        (settings.header = true → other.header = false →
          (report.status = 0 ∧ ∃ s,
            request.select files settings.cellSeparator = .ok s ∧
            report.output =
              unlines [s.headerLine settings.outputSeparator] ++
                report'.output) ∨
          report.status ≠ 0 ∧ report.output = ""))) ∨
    ∃ abort, ofRequest files settings request = .error abort ∧
      ofRequest files other request = .error abort ∧
      request.Unreported files settings.cellSeparator abort := by
  rcases ofRequest_outcome files h with
    ⟨status, hstatus, hreports⟩ | ⟨s, hselect, hne, hreports⟩ |
      ⟨abort, hwhy, haborts⟩
  · obtain ⟨errors, hreport⟩ := hreports settings rfl
    obtain ⟨errors', hreport'⟩ := hreports other hseparator
    refine .inl
      ⟨_, _, hreport, hreport', rfl, ?_, fun _ => ⟨fun _ => rfl, ?_⟩⟩
    · exact ⟨fun hout => absurd rfl hout, fun hzero => absurd hzero hstatus⟩
    · intro _ _
      exact .inr ⟨hstatus, rfl⟩
  · obtain ⟨errors, hreport⟩ := hreports settings rfl
    obtain ⟨errors', hreport'⟩ := hreports other hseparator
    refine .inl ⟨_, _, hreport, hreport', rfl, ?_, fun hout => ⟨?_, ?_⟩⟩
    · exact ⟨fun _ => rfl, fun _ => shown_ne_empty hne settings⟩
    · intro hheader
      show shown other s = shown settings s
      rw [shown, shown, hout, hheader]
    · intro hheader hnone
      obtain ⟨query, -, hof⟩ := Request.exists_ofQuery_of_select hselect
      refine .inl ⟨rfl, s, hselect, ?_⟩
      rw [← Selection.shownRow_zero hof]
      exact shown_of_header hout hheader hnone s
  · exact .inr
      ⟨abort, haborts settings rfl, haborts other hseparator, hwhy⟩

/-- Notes and a header. -/
def wordySettings : Settings where
  indexSeparator := ","
  header := true
  verbose := true

/-- A request for two rows, one of whose fields the table lacks. -/
def wordyRequest : Request :=
  .words ["select", "c,z", "from", "A", "where", "a", "-ge", "2"]

theorem wordy_answer_has_same_rows :
    wordyRequest.CellsFit (fun _ => .file Condition.sampleFile) " " ∧
    ∃ report report',
      ofRequest (fun _ => .file Condition.sampleFile) wordySettings
        wordyRequest = .ok report ∧
      ofRequest (fun _ => .file Condition.sampleFile) {} wordyRequest =
        .ok report' ∧
      report.status = 0 ∧ report'.status = 0 ∧
      report.output = "c\t\n" ++ report'.output := by
  have hfits : wordyRequest.CellsFit (fun _ => .file Condition.sampleFile)
      wordySettings.cellSeparator := by
    intro query lines _ _ line _ c hc hne
    cases hc
    exact absurd rfl hne
  obtain ⟨s, hs, hline⟩ : ∃ s, wordyRequest.select
      (fun _ => .file Condition.sampleFile) " " = .ok s ∧
      unlines [s.headerLine "\t"] = "c\t\n" := ⟨_, rfl, rfl⟩
  obtain ⟨r, hr, hok⟩ : ∃ r, ofRequest (fun _ => .file Condition.sampleFile)
      wordySettings wordyRequest = .ok r ∧ r.status = 0 := ⟨_, rfl, rfl⟩
  rcases presentation_keeps_answer (fun _ => .file Condition.sampleFile)
      wordyRequest wordySettings {} rfl hfits with
    ⟨report, report', hreport, hreport', hstatus, hprinted, houtput⟩ |
      ⟨abort, habort, -, -⟩
  · have hzero : report.status = 0 := by
      rw [hr] at hreport
      cases hreport
      exact hok
    refine ⟨hfits, report, report', hreport, hreport', hzero,
      hstatus.trans hzero, ?_⟩
    rcases (houtput rfl).2 rfl rfl with ⟨-, r, hr, hout⟩ | ⟨hnot, -⟩
    · rw [show wordySettings.cellSeparator = " " from rfl, hs] at hr
      cases hr
      rw [hout, ← hline]
      rfl
    · exact absurd hzero hnot
  · rw [hr] at habort
    cases habort

end Report

end TableQuery

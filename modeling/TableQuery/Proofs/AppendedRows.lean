import TableQuery.Proofs.RowByRow
import TableQuery.Proofs.WrittenTable

/-!
# Rows appended to a table

A file of a header and rows may be cut between two rows, and each part put
under the header again. Querying the whole file is then querying the two parts
and counting on: the rows selected from the first part come first, and those
from the second part follow with higher numbers. Whether the query is refused
is the same for all three.

The whole table contains both parts, each under a numbering of its own
(`Appended`), and a query sees one row at a time, so both selections can be read
off the selection from the whole table. Put together again they are all of it,
because a selection has no numbers but those of rows.
-/

namespace TableQuery

namespace Table

/-- A table whose rows are those of two others, one behind the other. -/
structure Appended (t t₁ t₂ : Table) : Prop where
  rowCount_eq : t.rowCount = t₁.rowCount + t₂.rowCount
  front : t₁.RowsLike t id
  back : t₂.RowsLike t (t₁.rowCount + ·)

theorem entry?_ofRows_of_not_mem {path : Path} {header : List String}
    {rows : List (List String)} {name : String} (h : name ∉ header)
    (row : Nat) : Table.entry? (ofRows path header rows) name row = none := by
  have hcolumn : (ofRows path header rows).column? name = none := by
    rw [column?, ofRows, List.lookup_eq_none_iff]
    intro column hcolumn
    obtain ⟨n, hn, rfl⟩ := List.mem_map.1 hcolumn
    rw [bne_iff_ne]
    intro heq
    exact h (heq ▸ List.mem_eraseDups.1 hn)
  rw [Table.entry?, hcolumn, Option.bind_none]

/-- Under one header rows are alike if they have the same cells. -/
theorem rowsLike_ofRows (path : Path) (header : List String)
    {rows more : List (List String)} {send : Nat → Nat}
    (h : ∀ row < rows.length, 1 ≤ send (row + 1) ∧
      more[send (row + 1) - 1]? = rows[row]?) :
    (ofRows path header rows).RowsLike (ofRows path header more) send where
  within row h₁ h₂ := by
    obtain ⟨row, rfl⟩ : ∃ n, row = n + 1 := ⟨row - 1, by omega⟩
    have hrow : row < rows.length := h₂
    obtain ⟨hsend, hcells⟩ := h row hrow
    rw [List.getElem?_eq_getElem hrow] at hcells
    obtain ⟨hlt, -⟩ := List.getElem?_eq_some_iff.1 hcells
    refine ⟨hsend, ?_⟩
    show send (row + 1) ≤ more.length
    omega
  entry?_eq name row h₁ h₂ := by
    obtain ⟨row, rfl⟩ : ∃ n, row = n + 1 := ⟨row - 1, by omega⟩
    obtain ⟨hsend, hcells⟩ := h row h₂
    by_cases hname : name ∈ header
    · rw [entry?_ofRows hname, entry?_ofRows hname, List.getElem?_cons_succ,
        ← hcells]
      generalize send (row + 1) = sent at hsend
      obtain ⟨sent, rfl⟩ : ∃ n, sent = n + 1 := ⟨sent - 1, by omega⟩
      rw [List.getElem?_cons_succ, Nat.add_sub_cancel]
    · rw [entry?_ofRows_of_not_mem hname, entry?_ofRows_of_not_mem hname]

theorem appended_ofRows (path : Path) (header : List String)
    (rows₁ rows₂ : List (List String)) :
    (ofRows path header (rows₁ ++ rows₂)).Appended
      (ofRows path header rows₁) (ofRows path header rows₂) where
  rowCount_eq := List.length_append
  front := by
    apply rowsLike_ofRows
    intro row hrow
    exact ⟨Nat.succ_pos row, List.getElem?_append_left hrow⟩
  back := by
    apply rowsLike_ofRows
    intro row hrow
    have hcount : (ofRows path header rows₁).rowCount = rows₁.length := rfl
    rw [hcount]
    refine ⟨by omega, ?_⟩
    rw [List.getElem?_append_right (by omega)]
    congr 1
    omega

section

variable {t t₁ t₂ : Table}

theorem RowsLike.shown_eq {send : Nat → Nat} (h : t₁.RowsLike t send)
    (name : String) {row : Nat} (h₁ : 1 ≤ row) (h₂ : row ≤ t₁.rowCount) :
    t₁.shown name row = t.shown name (send row) := by
  rw [shown, shown, h.entry?_eq name row h₁ h₂]

/-- Counting to the end of the second part is counting to the end of the first
one, and on. -/
theorem Appended.toList_rowsWhere (h : t.Appended t₁ t₂) (p : Nat → Bool) :
    (t.rowsWhere p).toList =
      (t₁.rowsWhere p).toList ++
        (t₂.rowsWhere fun row => p (t₁.rowCount + row)).toList.map
          (· + (t₁.rowCount : Int)) := by
  have hrange : List.range' 1 t.rowCount =
      List.range' 1 t₁.rowCount ++
        (List.range' 1 t₂.rowCount).map (t₁.rowCount + ·) := by
    rw [h.rowCount_eq, ← List.range'_append_1, List.map_add_range']
    congr 2
    omega
  simp only [rowsWhere, hrange, List.filter_append, List.filter_map,
    List.map_append, List.map_map]
  congr 1
  refine List.map_congr_left fun row _ => ?_
  simp only [Function.comp_apply, Int.ofNat_eq_natCast]
  omega

end

end Table

namespace Selection

/-- The lines of the selected rows without a header. Where no row is selected
there are none. -/
def rowLines (s : Selection) (separator : String) :
    Except ShowError (List String) :=
  match s.lines separator false with
  | .error (.noRows _) => .ok []
  | outcome => outcome

theorem Showable.rowLines_eq {s : Selection} (hs : s.Showable)
    (separator : String) :
    s.rowLines separator =
      .ok (s.rows.toList.map (s.shownRow separator)) := by
  by_cases hnil : s.rows.toList = []
  · rw [rowLines, lines_of_no_rows hnil, hnil]
    rfl
  · rw [rowLines, hs.lines_eq hnil]
    rfl

theorem Showable.rows_eq {s : Selection} (hs : s.Showable) :
    s.rows = s.table.selectedBack id s.rows := by
  apply IndexSet.ext_mem
  intro i
  rw [Table.mem_selectedBack]
  constructor
  · intro hi
    have hwithin := hs.within i hi
    refine ⟨hwithin, ?_⟩
    rw [id_eq, Int.toNat_of_nonneg (by omega)]
    exact hi
  · rintro ⟨hwithin, hi⟩
    rwa [id_eq, Int.toNat_of_nonneg (by omega)] at hi

section

variable {t t₁ t₂ : Table} {query : Query}

theorem refuses_iff_ofTable {files : Path → Entry}
    {separator : String}
    (hload : Table.load files (Path.ofString query.table) separator = .ok t) :
    Refuses files separator query ↔ ¬ ∃ s, ofTable query t = .ok s := by
  rw [Refuses, ofQuery_of_load hload]
  cases ofTable query t with
  | ok s => simp [Except.mapError]
  | error e => simp [Except.mapError]

/-- A selection from the whole table parts into those from its two parts. -/
theorem toList_rows_of_appended (h : t.Appended t₁ t₂) (ht : t.Even)
    (ht₁ : t₁.Even) (ht₂ : t₂.Even) {s s₁ s₂ : Selection}
    (hs : ofTable query t = .ok s) (hs₁ : ofTable query t₁ = .ok s₁)
    (hs₂ : ofTable query t₂ = .ok s₂) :
    s.rows.toList =
      s₁.rows.toList ++ s₂.rows.toList.map (· + (t₁.rowCount : Int)) := by
  have hrows := (showable_of_ofTable ht hs).rows_eq
  rw [(ofTable_eq_ok hs).2] at hrows
  rw [hrows, rows_of_rowsLike h.front ht₁ ht hs₁ hs,
    rows_of_rowsLike h.back ht₂ ht hs₂ hs, Table.selectedBack,
    h.toList_rowsWhere]
  rfl

theorem shownRow_of_rowsLike {send : Nat → Nat} {s s₁ : Selection}
    (h : s₁.table.RowsLike s.table send) (hquery : s₁.query = s.query)
    (separator : String) {row : Int}
    (hrow : 1 ≤ row ∧ row ≤ s₁.table.rowCount) :
    s.shownRow separator (send row.toNat) = s₁.shownRow separator row := by
  rw [shownRow, shownRow, hquery, Int.toNat_natCast]
  congr 1
  refine List.map_congr_left fun name _ => ?_
  exact (h.shown_eq name (by omega) (by omega)).symm

theorem shown_of_appended (h : t.Appended t₁ t₂) (ht : t.Even)
    (ht₁ : t₁.Even) (ht₂ : t₂.Even) {s s₁ s₂ : Selection}
    (hs : ofTable query t = .ok s) (hs₁ : ofTable query t₁ = .ok s₁)
    (hs₂ : ofTable query t₂ = .ok s₂) (separator : String) :
    s.rows.toList.map (s.shownRow separator) =
      s₁.rows.toList.map (s₁.shownRow separator) ++
        s₂.rows.toList.map (s₂.shownRow separator) := by
  have hshow₁ := showable_of_ofTable ht₁ hs₁
  have hshow₂ := showable_of_ofTable ht₂ hs₂
  rw [toList_rows_of_appended h ht ht₁ ht₂ hs hs₁ hs₂, List.map_append,
    List.map_map]
  obtain ⟨hq, rfl⟩ := ofTable_eq_ok hs
  obtain ⟨hq₁, rfl⟩ := ofTable_eq_ok hs₁
  obtain ⟨hq₂, rfl⟩ := ofTable_eq_ok hs₂
  congr 1
  · refine List.map_congr_left fun row hrow => ?_
    have hwithin := hshow₁.within row hrow
    have heq := shownRow_of_rowsLike h.front (hq₁.trans hq.symm) separator
      hwithin
    rwa [id_eq, Int.toNat_of_nonneg (by omega)] at heq
  · refine List.map_congr_left fun row hrow => ?_
    have hwithin := hshow₂.within row hrow
    have heq := shownRow_of_rowsLike h.back (hq₂.trans hq.symm) separator
      hwithin
    rw [← heq, Function.comp_apply]
    congr 1
    omega

/-- Over loaded tables: a query is refused over the whole table and both parts,
or it selects from each, and from the whole what it selects from the parts. -/
theorem ofQuery_of_appended {files files₁ files₂ : Path → Entry}
    {separator : String}
    (hload : Table.load files (Path.ofString query.table) separator = .ok t)
    (hload₁ : Table.load files₁ (Path.ofString query.table) separator = .ok t₁)
    (hload₂ : Table.load files₂ (Path.ofString query.table) separator = .ok t₂)
    (h : t.Appended t₁ t₂) :
    (Refuses files separator query ∧ Refuses files₁ separator query ∧
      Refuses files₂ separator query) ∨
    ∃ s s₁ s₂, ofQuery files separator query = .ok s ∧
      ofQuery files₁ separator query = .ok s₁ ∧
      ofQuery files₂ separator query = .ok s₂ ∧
      s.rows.toList =
        s₁.rows.toList ++ s₂.rows.toList.map (· + (t₁.rowCount : Int)) ∧
      ∀ outputSeparator, ∃ shown₁ shown₂,
        s₁.rowLines outputSeparator = .ok shown₁ ∧
        s₂.rowLines outputSeparator = .ok shown₂ ∧
        s.rowLines outputSeparator = .ok (shown₁ ++ shown₂) := by
  have ht := Table.even_of_load hload
  have ht₁ := Table.even_of_load hload₁
  have ht₂ := Table.even_of_load hload₂
  have hiff₁ := exists_ofTable_of_rowsLike h.front ht₁ ht query
  have hiff₂ := exists_ofTable_of_rowsLike h.back ht₂ ht query
  rw [refuses_iff_ofTable hload, refuses_iff_ofTable hload₁,
    refuses_iff_ofTable hload₂, hiff₁, hiff₂, ofQuery_of_load hload,
    ofQuery_of_load hload₁, ofQuery_of_load hload₂]
  by_cases hselects : ∃ s, ofTable query t = .ok s
  · right
    obtain ⟨s, hs⟩ := hselects
    obtain ⟨s₁, hs₁⟩ := hiff₁.2 ⟨s, hs⟩
    obtain ⟨s₂, hs₂⟩ := hiff₂.2 ⟨s, hs⟩
    refine ⟨s, s₁, s₂, by rw [hs]; rfl, by rw [hs₁]; rfl, by rw [hs₂]; rfl,
      toList_rows_of_appended h ht ht₁ ht₂ hs hs₁ hs₂, ?_⟩
    intro outputSeparator
    refine ⟨_, _, (showable_of_ofTable ht₁ hs₁).rowLines_eq outputSeparator,
      (showable_of_ofTable ht₂ hs₂).rowLines_eq outputSeparator, ?_⟩
    rw [(showable_of_ofTable ht hs).rowLines_eq,
      shown_of_appended h ht ht₁ ht₂ hs hs₁ hs₂]
  · exact .inl ⟨hselects, hselects, hselects⟩

end

/-- A query of a file that has the lines of rows appended to those of others is
refused if it is refused over either part, each under the same header, and then
over both parts. Otherwise it selects from the file what it selects from the
first part, and behind that what it selects from the second part, with the
numbers counted on; and the lines that show the rows follow one another in the
same way. -/
theorem appended_rows_select_in_parts
    (files files₁ files₂ : Path → Entry) (separator : String)
    (query : Query) {header : List Char} {lines₁ lines₂ : List (List Char)}
    (hbreak : ∀ line ∈ header :: (lines₁ ++ lines₂), ∀ c ∈ line,
      Text.isLineBreak c = false)
    (hink : ∀ line ∈ header :: (lines₁ ++ lines₂),
      Text.isAllBlank line = false)
    (hcells : ∀ line ∈ header :: (lines₁ ++ lines₂),
      ∃ cells, Cells.split separator line = .ok cells)
    (hfile : files (Path.ofString query.table) =
      .file (Text.Utf8.encode (Text.filed (header :: (lines₁ ++ lines₂)))))
    (hfile₁ : files₁ (Path.ofString query.table) =
      .file (Text.Utf8.encode (Text.filed (header :: lines₁))))
    (hfile₂ : files₂ (Path.ofString query.table) =
      .file (Text.Utf8.encode (Text.filed (header :: lines₂)))) :
    (Refuses files separator query ∧ Refuses files₁ separator query ∧
      Refuses files₂ separator query) ∨
    ∃ s s₁ s₂, ofQuery files separator query = .ok s ∧
      ofQuery files₁ separator query = .ok s₁ ∧
      ofQuery files₂ separator query = .ok s₂ ∧
      s.rows.toList =
        s₁.rows.toList ++ s₂.rows.toList.map (· + (lines₁.length : Int)) ∧
      ∀ outputSeparator, ∃ shown₁ shown₂,
        s₁.rowLines outputSeparator = .ok shown₁ ∧
        s₂.rowLines outputSeparator = .ok shown₂ ∧
        s.rowLines outputSeparator = .ok (shown₁ ++ shown₂) := by
  obtain ⟨hheaderBreak, hbreak⟩ := List.forall_mem_cons.1 hbreak
  obtain ⟨hheaderInk, hink⟩ := List.forall_mem_cons.1 hink
  obtain ⟨⟨names, hnames⟩, hcells⟩ := List.forall_mem_cons.1 hcells
  obtain ⟨hbreak₁, hbreak₂⟩ := List.forall_mem_append.1 hbreak
  obtain ⟨hink₁, hink₂⟩ := List.forall_mem_append.1 hink
  obtain ⟨hcells₁, hcells₂⟩ := List.forall_mem_append.1 hcells
  obtain ⟨rows₁, hrows₁⟩ := exists_mapM_eq_ok hcells₁
  obtain ⟨rows₂, hrows₂⟩ := exists_mapM_eq_ok hcells₂
  rw [mapM_eq_ok_iff] at hrows₁ hrows₂
  have hrows : (lines₁ ++ lines₂).map (Cells.split separator) =
      (rows₁ ++ rows₂).map .ok := by
    rw [List.map_append, List.map_append, hrows₁, hrows₂]
  have hload := Table.load_filed
    (Text.inkedLines_filed (List.forall_mem_cons.2 ⟨hheaderBreak, hbreak⟩)
      (List.forall_mem_cons.2 ⟨hheaderInk, hink⟩)) hfile hnames hrows
  have hload₁ := Table.load_filed
    (Text.inkedLines_filed (List.forall_mem_cons.2 ⟨hheaderBreak, hbreak₁⟩)
      (List.forall_mem_cons.2 ⟨hheaderInk, hink₁⟩)) hfile₁ hnames hrows₁
  have hload₂ := Table.load_filed
    (Text.inkedLines_filed (List.forall_mem_cons.2 ⟨hheaderBreak, hbreak₂⟩)
      (List.forall_mem_cons.2 ⟨hheaderInk, hink₂⟩)) hfile₂ hnames hrows₂
  have hcount : lines₁.length = rows₁.length := by
    have hlength := congrArg List.length hrows₁
    rwa [List.length_map, List.length_map] at hlength
  rw [hcount]
  exact ofQuery_of_appended hload hload₁ hload₂
    (Table.appended_ofRows (Path.ofString query.table) names rows₁ rows₂)

/-- A header, as a line. -/
def stackHeader : List Char := ['a', ' ', 'b']

def stackLines₁ : List (List Char) := [['1', ' ', '4'], ['2', ' ', '5']]

def stackLines₂ : List (List Char) := [['3', ' ', '4'], ['1']]

/-- A file of the header and some rows. -/
def stackFile (lines : List (List Char)) : List UInt8 :=
  Text.Utf8.encode (Text.filed (stackHeader :: lines))

def stackQuery : Query where
  fields := ["b", "a"]
  table := "A"
  condition := ["a", "=", "1", "or", "(", "b", "-eq", "4", ")"]

theorem stackedRows_select_in_parts :
    ∃ s s₁ s₂,
      ofQuery (fun _ => .file (stackFile (stackLines₁ ++ stackLines₂))) " "
        stackQuery = .ok s ∧
      ofQuery (fun _ => .file (stackFile stackLines₁)) " " stackQuery =
        .ok s₁ ∧
      ofQuery (fun _ => .file (stackFile stackLines₂)) " " stackQuery =
        .ok s₂ ∧
      s₁.rows.toList = [1] ∧ s₂.rows.toList = [1, 2] ∧
      s.rows.toList = [1, 3, 4] ∧
      s.rowLines "|" = .ok ["4|1", "4|3", "|1"] := by
  obtain ⟨r₁, hr₁, hrows₁, hlines₁⟩ : ∃ s,
      ofQuery (fun _ => .file (stackFile stackLines₁)) " " stackQuery = .ok s ∧
      s.rows.toList = [1] ∧ s.rowLines "|" = .ok ["4|1"] := ⟨_, rfl, rfl, rfl⟩
  obtain ⟨r₂, hr₂, hrows₂, hlines₂⟩ : ∃ s,
      ofQuery (fun _ => .file (stackFile stackLines₂)) " " stackQuery = .ok s ∧
      s.rows.toList = [1, 2] ∧ s.rowLines "|" = .ok ["4|3", "|1"] :=
    ⟨_, rfl, rfl, rfl⟩
  have hall : ((stackHeader :: (stackLines₁ ++ stackLines₂)).all fun line =>
      line.all (!Text.isLineBreak ·)) = true := by decide
  have hbreak : ∀ line ∈ stackHeader :: (stackLines₁ ++ stackLines₂),
      ∀ c ∈ line, Text.isLineBreak c = false := by
    simpa only [List.all_eq_true, Bool.not_eq_true'] using hall
  rcases appended_rows_select_in_parts
      (fun _ => .file (stackFile (stackLines₁ ++ stackLines₂)))
      (fun _ => .file (stackFile stackLines₁))
      (fun _ => .file (stackFile stackLines₂)) " "
      stackQuery hbreak (by decide) (fun _ _ => ⟨_, rfl⟩) rfl rfl rfl with
    ⟨-, ⟨e, he⟩, -⟩ | ⟨s, s₁, s₂, hs, hs₁, hs₂, hrows, hshown⟩
  · rw [hr₁] at he
    cases he
  · rw [hr₁] at hs₁
    rw [hr₂] at hs₂
    cases hs₁
    cases hs₂
    obtain ⟨shown₁, shown₂, hshown₁, hshown₂, hshown⟩ := hshown "|"
    rw [hlines₁] at hshown₁
    rw [hlines₂] at hshown₂
    cases hshown₁
    cases hshown₂
    rw [hrows₁, hrows₂] at hrows
    exact ⟨s, r₁, r₂, hs, hr₁, hr₂, hrows₁, hrows₂, hrows, hshown⟩

end Selection

end TableQuery

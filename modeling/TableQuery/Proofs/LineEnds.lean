import TableQuery.Proofs.EncodedText
import TableQuery.Proofs.FileLines

/-!
# Line ends and blank lines

A line may end with a line feed, with a carriage return or with both, the last
one may not end at all, and lines of white space may stand anywhere. `SetOut`
says that a text is some lines set out in such a way, each choice made for one
line alone. Whatever the choices are, the lines that are read from the text are
the lines that are not blank (`SetOut.inkedLines_eq`), so the table is the same.

It may happen that the carriage return of one line and the line feed of an empty
line behind it are taken for one end when carriage returns are made line feeds.
All that is lost by this is the empty line, and it would be left out anyway. So
an end is nothing but a break or two (`inkedLines_append_end`), and there are no
neighbours to look at.
-/

namespace TableQuery

namespace Text

/-- The ways to end a line. -/
inductive LineEnd where
  | feed
  | carriageReturn
  | returnAndFeed
  deriving DecidableEq, Repr

def LineEnd.chars : LineEnd → List Char
  | .feed => ['\n']
  | .carriageReturn => ['\r']
  | .returnAndFeed => ['\r', '\n']

/-- Lines set out in a text: each is followed by an end, the last one perhaps
not, and blank lines stand in front of them, between them and behind them. -/
inductive SetOut : List (List Char) → List Char → Prop
  | ended (line : List Char) (ending : LineEnd) {lines : List (List Char)}
      {text : List Char} : SetOut lines text →
      SetOut (line :: lines) (line ++ ending.chars ++ text)
  | last (line : List Char) : SetOut [line] line
  | blank (line : List Char) (ending : LineEnd) {lines : List (List Char)}
      {text : List Char} : isAllBlank line = true → SetOut lines text →
      SetOut lines (line ++ ending.chars ++ text)
  | rest (line : List Char) : isAllBlank line = true → SetOut [] line

theorem inkedLines_append_end (cs : List Char) (ending : LineEnd)
    (ds : List Char) :
    inkedLines (cs ++ ending.chars ++ ds) = inkedLines cs ++ inkedLines ds := by
  rw [List.append_assoc]
  cases ending with
  | feed | carriageReturn => exact inkedLines_append_break (by decide) cs ds
  | returnAndFeed =>
      show inkedLines (cs ++ '\r' :: '\n' :: ds) = _
      rw [inkedLines_append_break (by decide), inkedLines_cons_break (by decide)]

/-- The lines that are read are those that were set out, the blank ones left
out. -/
theorem SetOut.inkedLines_eq {lines : List (List Char)} {text : List Char}
    (h : SetOut lines text)
    (hbreak : ∀ line ∈ lines, ∀ c ∈ line, isLineBreak c = false) :
    inkedLines text = lines.filter (!isAllBlank ·) := by
  have hline : ∀ {line : List Char}, (∀ c ∈ line, isLineBreak c = false) →
      inkedLines line = [line].filter (!isAllBlank ·) := by
    intro line hline
    rw [inkedLines_of_no_break hline, List.filter_cons, List.filter_nil]
    cases isAllBlank line <;> rfl
  induction h with
  | @ended line ending lines text _ ih =>
      obtain ⟨hfirst, hlines⟩ := List.forall_mem_cons.1 hbreak
      rw [inkedLines_append_end, hline hfirst, ih hlines, ← List.filter_append,
        List.singleton_append]
  | last line => exact hline (hbreak line (List.mem_singleton_self line))
  | blank line ending hblank _ ih =>
      rw [inkedLines_append_end, inkedLines_of_isAllBlank hblank, ih hbreak,
        List.nil_append]
  | rest line hblank => exact inkedLines_of_isAllBlank hblank

end Text

namespace Table

open Text (SetOut)

/-- There is a file at a path, and it holds a text. -/
def HoldsText (files : Path → Entry) (path : Path)
    (text : List Char) : Prop :=
  ∃ bytes, files path = .file bytes ∧ Text.Utf8.decode bytes = .ok text

theorem load_of_setOut {files : Path → Entry} {path : Path}
    (separator : String) {lines : List (List Char)} {text : List Char}
    (hbreak : ∀ line ∈ lines, ∀ c ∈ line, Text.isLineBreak c = false)
    (h : SetOut lines text) (hfile : HoldsText files path text) :
    load files path separator =
      (ofLines path separator (lines.filter (!Text.isAllBlank ·))).mapError
        .cells := by
  obtain ⟨bytes, hbytes, hdecode⟩ := hfile
  rw [load_of_decode hbytes hdecode, Text.inkedLines_unified,
    h.inkedLines_eq hbreak]

/-- Two files in which the same lines are set out, each with ends and blank lines
of its own, come to the same table, or to the same complaint about a cell. It is
what the lines that are not blank come to. -/
theorem line_ends_make_no_difference
    {files files' : Path → Entry} {path : Path}
    (separator : String) {lines : List (List Char)} {text text' : List Char}
    (hbreak : ∀ line ∈ lines, ∀ c ∈ line, Text.isLineBreak c = false)
    (h : SetOut lines text) (h' : SetOut lines text')
    (hfile : HoldsText files path text) (hfile' : HoldsText files' path text') :
    load files' path separator = load files path separator ∧
      load files path separator =
        (ofLines path separator (lines.filter (!Text.isAllBlank ·))).mapError
          .cells := by
  have hload := load_of_setOut separator hbreak h hfile
  have hload' := load_of_setOut separator hbreak h' hfile'
  exact ⟨by rw [hload', hload], hload⟩

/-- A header and two rows. -/
def endedLines : List (List Char) :=
  [['a', ' ', 'b'], ['1', ' ', '2'], ['3']]

/-- The lines with a line feed behind each. -/
def plainText : List Char :=
  "a b\n1 2\n3\n".toList

/-- The lines with three kinds of ends. A blank line is in front of the header,
an empty one puts a line feed behind the carriage return of the header, and the
last line does not end. -/
def mixedText : List Char :=
  "\t\r\na b\r\n1 2\r\n \r3".toList

theorem setOut_plainText : SetOut endedLines plainText :=
  .ended ['a', ' ', 'b'] .feed (.ended ['1', ' ', '2'] .feed
    (.ended ['3'] .feed (.rest [] rfl)))

theorem setOut_mixedText : SetOut endedLines mixedText :=
  .blank ['\t'] .returnAndFeed rfl
    (.ended ['a', ' ', 'b'] .carriageReturn (.blank [] .feed rfl
      (.ended ['1', ' ', '2'] .returnAndFeed
        (.blank [' '] .carriageReturn rfl (.last ['3'])))))

theorem mixedText_is_loaded_alike :
    (∀ line ∈ endedLines, ∀ c ∈ line, Text.isLineBreak c = false) ∧
    SetOut endedLines plainText ∧ SetOut endedLines mixedText ∧
    HoldsText (fun _ => .file (Text.Utf8.encode plainText)) (.ofString "T")
      plainText ∧
    HoldsText (fun _ => .file (Text.Utf8.encode mixedText)) (.ofString "T")
      mixedText ∧
    load (fun _ => .file (Text.Utf8.encode mixedText)) (.ofString "T") " " =
      .ok (.ofRows (.ofString "T") ["a", "b"] [["1", "2"], ["3"]]) := by
  have hall : (endedLines.all fun line =>
      line.all (!Text.isLineBreak ·)) = true := rfl
  have hbreak : ∀ line ∈ endedLines, ∀ c ∈ line,
      Text.isLineBreak c = false := by
    simpa only [List.all_eq_true, Bool.not_eq_true'] using hall
  have hplain : HoldsText (fun _ => .file (Text.Utf8.encode plainText))
      (.ofString "T") plainText :=
    ⟨_, rfl, Text.Utf8.decode_encode _⟩
  have hmixed : HoldsText (fun _ => .file (Text.Utf8.encode mixedText))
      (.ofString "T") mixedText :=
    ⟨_, rfl, Text.Utf8.decode_encode _⟩
  refine ⟨hbreak, setOut_plainText, setOut_mixedText, hplain, hmixed, ?_⟩
  rw [(line_ends_make_no_difference " " hbreak setOut_plainText
    setOut_mixedText hplain hmixed).1]
  rfl

end Table

end TableQuery

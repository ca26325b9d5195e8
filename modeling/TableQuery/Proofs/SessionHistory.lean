import TableQuery.Proofs.CursorReuse
import TableQuery.Session

/-!
# What a session remembers

A session carries more from step to step than it has to: the cursor has been
through all the query texts before, and may stand in the middle of one that
could not be read. Only three things ever show. The files are what the writings
and removals so far have left, each separator is the last one given, and the
selections are the ones that were answered, in their order; every other step
leaves these alone.

So an execution answers what a session just begun would answer with these files
and separators (`step_execute_renewed`), and since a selection is never changed
or dropped, showing it by its number is the same at any later time.
-/

namespace TableQuery

namespace Request

theorem readWith_fst (c : Cursor) (r : Request) :
    (r.readWith c).1 = r.read := by
  cases r with
  | words ws => rfl
  | text t => exact Query.readText_eq c t
  | query q => rfl

/-- What a request selects does not depend on the cursor it is read with. -/
theorem selectWith_fst (files : Path → Entry)
    (separator : String) (c : Cursor) (r : Request) :
    (r.selectWith files separator c).1 = r.select files separator := by
  rw [select, ← readWith_fst c r]
  rfl

end Request

namespace Session

/-! ## What steps leave behind -/

/-- The session that steps leave behind. -/
def after (s : Session) (steps : List Step) : Session :=
  steps.foldl (fun s step => (s.step step).2) s

/-- What a step makes of files. -/
def Step.onFiles (step : Step) (files : FileTree) : FileTree :=
  match step with
  | .write path bytes => files.write path bytes
  | .remove path => files.remove path
  | .separators _ _ | .execute _ | .display _ _ _ => files

/-- The separator of cells that a step gives. -/
def Step.cellSeparator? : Step → Option String
  | .separators cell _ => cell
  | .write _ _ | .remove _ | .execute _ | .display _ _ _ => none

/-- The separator of row numbers that a step gives. -/
def Step.indexSeparator? : Step → Option String
  | .separators _ index => index
  | .write _ _ | .remove _ | .execute _ | .display _ _ _ => none

/-- The selection that an answer brings. -/
def selectionIn? : Except Error Answer → Option Selection
  | .ok (.selection selection _) => some selection
  | _ => none

/-- A session just begun, with the files that steps leave and, of the
separators, the last ones that they give. -/
def renewed (s : Session) (steps : List Step) : Session where
  files := steps.foldl (fun files step => step.onFiles files) s.files
  cellSeparator :=
    (steps.filterMap Step.cellSeparator?).getLastD s.cellSeparator
  indexSeparator :=
    (steps.filterMap Step.indexSeparator?).getLastD s.indexSeparator

theorem step_execute (s : Session) (request : Request) :
    s.step (.execute request) =
      match request.selectWith s.files.read s.cellSeparator s.cursor with
      | (.error e, cursor) => (.error (.request e), { s with cursor })
      | (.ok selection, cursor) =>
        (.ok (.selection selection
            (selection.notes.map (·.render s.indexSeparator))),
          { s with cursor, selections := s.selections ++ [selection] }) :=
  rfl

/-- A step changes the files and the separators by itself, and keeps the
selections, behind which comes the one it answers. -/
theorem step_snd (s : Session) (step : Step) :
    (s.step step).2.files = step.onFiles s.files ∧
    (s.step step).2.cellSeparator =
      step.cellSeparator?.getD s.cellSeparator ∧
    (s.step step).2.indexSeparator =
      step.indexSeparator?.getD s.indexSeparator ∧
    (s.step step).2.selections =
      s.selections ++ (selectionIn? (s.step step).1).toList := by
  have hnone : s.selections = s.selections ++ [] :=
    (List.append_nil _).symm
  -- Only an execution that succeeds makes a selection; showing one makes none.
  cases step with
  | write path bytes => exact ⟨rfl, rfl, rfl, hnone⟩
  | remove path => exact ⟨rfl, rfl, rfl, hnone⟩
  | separators cell index => exact ⟨rfl, rfl, rfl, hnone⟩
  | execute request =>
      rw [step_execute]
      obtain ⟨outcome, cursor⟩ :=
        request.selectWith s.files.read s.cellSeparator s.cursor
      cases outcome with
      | error e => exact ⟨rfl, rfl, rfl, hnone⟩
      | ok selection => exact ⟨rfl, rfl, rfl, rfl⟩
  | display number separator header =>
      simp only [Session.step]
      cases s.selection? number with
      | none => exact ⟨rfl, rfl, rfl, hnone⟩
      | some selection =>
          refine ⟨rfl, rfl, rfl, ?_⟩
          dsimp only
          cases selection.lines separator header with
          | error e => exact hnone
          | ok lines => exact hnone

theorem after_cons (s : Session) (step : Step) (steps : List Step) :
    s.after (step :: steps) = (s.step step).2.after steps :=
  rfl

theorem run_cons (s : Session) (step : Step) (steps : List Step) :
    s.run (step :: steps) = (s.step step).1 :: (s.step step).2.run steps :=
  rfl

theorem run_append (s : Session) (steps more : List Step) :
    s.run (steps ++ more) = s.run steps ++ (s.after steps).run more := by
  induction steps generalizing s with
  | nil => rfl
  | cons step steps ih =>
      rw [List.cons_append, run_cons, run_cons, ih, after_cons,
        List.cons_append]

theorem length_run (s : Session) (steps : List Step) :
    (s.run steps).length = steps.length := by
  induction steps generalizing s with
  | nil => rfl
  | cons step steps ih => rw [run_cons, List.length_cons, ih, List.length_cons]

/-! ## Files and separators -/

theorem getLastD_filterMap_cons {α β : Type} (f : α → Option β) (x : α)
    (xs : List α) (b : β) :
    ((x :: xs).filterMap f).getLastD b =
      (xs.filterMap f).getLastD ((f x).getD b) := by
  rw [List.filterMap_cons]
  cases f x with
  | none => rfl
  | some c => exact List.getLastD_cons

theorem renewed_cons (s : Session) (step : Step) (steps : List Step) :
    s.renewed (step :: steps) = (s.step step).2.renewed steps := by
  obtain ⟨hfiles, hcell, hindex, -⟩ := step_snd s step
  unfold renewed
  rw [hfiles, hcell, hindex, List.foldl_cons, getLastD_filterMap_cons,
    getLastD_filterMap_cons]

/-- The files and separators after steps are those of the renewed session. -/
theorem after_eq_renewed (s : Session) (steps : List Step) :
    (s.after steps).files = (s.renewed steps).files ∧
    (s.after steps).cellSeparator = (s.renewed steps).cellSeparator ∧
    (s.after steps).indexSeparator = (s.renewed steps).indexSeparator := by
  induction steps generalizing s with
  | nil => exact ⟨rfl, rfl, rfl⟩
  | cons step steps ih =>
      rw [after_cons, renewed_cons]
      exact ih (s.step step).2

theorem step_execute_fst (s : Session) (request : Request) :
    (s.step (.execute request)).1 =
      ((request.select s.files.read s.cellSeparator).map fun selection =>
        Answer.selection selection
          (selection.notes.map (·.render s.indexSeparator))).mapError
        .request := by
  rw [step_execute, ← Request.selectWith_fst _ _ s.cursor]
  obtain ⟨outcome, cursor⟩ :=
    request.selectWith s.files.read s.cellSeparator s.cursor
  cases outcome with
  | error e => rfl
  | ok selection => rfl

theorem step_execute_renewed (s : Session) (steps : List Step)
    (request : Request) :
    ((s.after steps).step (.execute request)).1 =
      ((s.renewed steps).step (.execute request)).1 := by
  obtain ⟨hfiles, hcell, hindex⟩ := after_eq_renewed s steps
  rw [step_execute_fst, step_execute_fst, hfiles, hcell, hindex]

/-! ## Selections -/

theorem selections_after (s : Session) (steps : List Step) :
    (s.after steps).selections =
      s.selections ++ (s.run steps).filterMap selectionIn? := by
  induction steps generalizing s with
  | nil => exact (List.append_nil _).symm
  | cons step steps ih =>
      obtain ⟨-, -, -, hselections⟩ := step_snd s step
      rw [after_cons, ih, hselections, run_cons, List.filterMap_cons,
        List.append_assoc]
      cases selectionIn? (s.step step).1 <;> rfl

/-- The number of the selection that is made next after steps. -/
def nextNumber (s : Session) (steps : List Step) : Nat :=
  s.selections.length + ((s.run steps).filterMap selectionIn?).length

theorem selections_after_execute (s : Session) (history later : List Step)
    {request : Request} {selection : Selection} {notes : List String}
    (h : ((s.after history).step (.execute request)).1 =
      .ok (.selection selection notes)) :
    (s.after (history ++ .execute request :: later)).selections =
      (s.selections ++ (s.run history).filterMap selectionIn?) ++
        selection :: (((s.after history).step (.execute request)).2.run
          later).filterMap selectionIn? := by
  rw [selections_after, run_append, run_cons, h, List.filterMap_append,
    List.filterMap_cons, List.append_assoc]
  rfl

theorem selection?_after_execute (s : Session) (history later : List Step)
    {request : Request} {selection : Selection} {notes : List String}
    (h : ((s.after history).step (.execute request)).1 =
      .ok (.selection selection notes)) :
    (s.after (history ++ .execute request :: later)).selection?
      (some (s.nextNumber history)) = some selection := by
  show (s.after (history ++ .execute request :: later)).selections[
    s.nextNumber history]? = some selection
  have hnumber : s.nextNumber history =
      (s.selections ++ (s.run history).filterMap selectionIn?).length :=
    List.length_append.symm
  rw [selections_after_execute s history later h, hnumber,
    List.getElem?_append_right (Nat.le_refl _), Nat.sub_self,
    List.getElem?_cons_zero]

theorem selection?_last_after_execute (s : Session) (history : List Step)
    {request : Request} {selection : Selection} {notes : List String}
    (h : ((s.after history).step (.execute request)).1 =
      .ok (.selection selection notes)) :
    (s.after (history ++ [.execute request])).selection? none =
      some selection := by
  show (s.after (history ++ [.execute request])).selections.getLast? =
    some selection
  rw [selections_after_execute s history [] h]
  exact List.getLast?_concat

/-- What is answered when a selection is shown. -/
def shown (selection : Selection) (separator : String) (header : Bool) :
    Except Error Answer :=
  ((selection.lines separator header).map .lines).mapError .display

theorem getLast?_run_display {s : Session} {steps : List Step}
    {number : Option Int} {selection : Selection}
    (h : (s.after steps).selection? number = some selection)
    (separator : String) (header : Bool) :
    (s.run (steps ++ [.display number separator header])).getLast? =
      some (shown selection separator header) := by
  rw [run_append, run_cons, Session.step, h]
  exact List.getLast?_concat

/-- Whatever a session has been through, an execution answers what a session
just begun answers with the files and separators of the moment. If that is a
selection, then showing it right away, as the last one made, and showing it by
its number after any further steps both answer the lines of that selection. -/
theorem history_does_not_leak (s : Session) (history later : List Step)
    (request : Request) :
    (s.run (history ++ .execute request :: later))[history.length]? =
      some ((s.renewed history).step (.execute request)).1 ∧
    ∀ selection notes,
      ((s.renewed history).step (.execute request)).1 =
        .ok (.selection selection notes) →
      ∀ separator header,
        (s.run (history ++ [.execute request] ++
          [.display none separator header])).getLast? =
            some (shown selection separator header) ∧
        (s.run (history ++ .execute request :: later ++
          [.display (some (s.nextNumber history)) separator
            header])).getLast? =
            some (shown selection separator header) := by
  rw [← step_execute_renewed]
  refine ⟨?_, fun selection notes h separator header => ⟨?_, ?_⟩⟩
  · rw [run_append, run_cons, ← length_run s history,
      List.getElem?_append_right (Nat.le_refl _), Nat.sub_self,
      List.getElem?_cons_zero]
  · exact getLast?_run_display (selection?_last_after_execute s history h)
      separator header
  · exact getLast?_run_display (selection?_after_execute s history later h)
      separator header

/-- A session whose table changes behind a query that ends in a string nothing
closes. -/
def sampleHistory : List Step :=
  [.write (.ofString "A") ("a b\n1 2\n".toList.map fun c => c.toNat.toUInt8),
    .execute (.text "select a from A where b = \x22"),
    .write (.ofString "A") ("a;b\n3;4\n".toList.map fun c => c.toNat.toUInt8),
    .separators (some ";") none]

/-- The table goes, the separators change and a query is refused. -/
def sampleSequel : List Step :=
  [.remove (.ofString "A"), .separators (some ",") (some ":"),
    .execute (.words ["select"]), .display none "\t" true]

/-- The query of the session, as it is written. -/
def sampleText : String := "select a from A where b = 4"

theorem sampleHistory_does_not_leak :
    ∃ selection notes,
      ((({} : Session).renewed sampleHistory).step
          (.execute (.text sampleText))).1 =
        .ok (.selection selection notes) ∧
      (({} : Session).run (sampleHistory ++ .execute (.text sampleText) ::
          sampleSequel ++ [.display (some 0) "\t" true])).getLast? =
        some (.ok (.lines ["a", "3"])) := by
  have hnumber : ({} : Session).nextNumber sampleHistory = 0 := by
    decide +kernel
  have hread : (Query.ofText sampleText).toOption =
      some ⟨["a"], "A", ["b", "=", "4"]⟩ := by decide +kernel
  have hquery : (Request.text sampleText).read =
      .ok ⟨["a"], "A", ["b", "=", "4"]⟩ := by
    rw [Request.read]
    cases h : Query.ofText sampleText with
    | error e => rw [h] at hread; cases hread
    | ok query => rw [h] at hread; cases hread; rfl
  obtain ⟨selection, notes, hselection, hshown⟩ : ∃ selection notes,
      ((({} : Session).renewed sampleHistory).step
        (.execute (.text sampleText))).1 = .ok (.selection selection notes) ∧
      shown selection "\t" true = .ok (.lines ["a", "3"]) := by
    rw [step_execute_fst, Request.select, hquery]
    exact ⟨_, _, rfl, rfl⟩
  refine ⟨selection, notes, hselection, ?_⟩
  obtain ⟨-, hlater⟩ := (history_does_not_leak {} sampleHistory sampleSequel
    (.text sampleText)).2 selection notes hselection "\t" true
  rw [hnumber, hshown] at hlater
  exact hlater

end Session

end TableQuery

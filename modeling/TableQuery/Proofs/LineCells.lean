import TableQuery.Cells.Split

/-!
# The cells of a line, and their limit

A line of a table file holds no line end, and without line ends most of the
reader of quoted cells is idle: no record ends early and none breaks off. What
is left is a choice per character, to go on, to close the open cell or to add
to it. `Place.move` is that choice and `lineCells` the cells that come of it.
Neither knows of a limit on the length of a cell.

The limit comes in once, in `quotedCells_eq`: a line has its cells if none of
them is too long, and if one is there is no other error. So a line that `Fits`
is always split, however it is separated, and a line that does not is refused
for that reason.
-/

namespace TableQuery.Cells

/-! ## Reading without a limit -/

/-- What a character does to the open cell. -/
inductive Move where
  | enter (place : Place)
  | close
  | add (place : Place)

/-- What a character that ends no line does. -/
def Place.move (separator : Char) (place : Place) (c : Char) : Move :=
  match place with
  | .recordStart | .cellStart =>
    if c = '\x22' then .enter .quoted
    else if c = separator then .close
    else .add .plain
  | .plain | .recordEnd => if c = separator then .close else .add .plain
  | .quoted => if c = '\x22' then .enter .quoteSeen else .add .quoted
  | .quoteSeen =>
    if c = '\x22' then .add .quoted
    else if c = separator then .close
    else .add .plain

/-- The cells from a place on. The first one begins with the given characters,
the last one first. -/
def cellsFrom (separator : Char) (place : Place) (begun : List Char) :
    List Char → List (List Char)
  | [] => if place = .recordStart then [] else [begun.reverse]
  | c :: cs =>
    match place.move separator c with
    | .enter place => cellsFrom separator place begun cs
    | .close => begun.reverse :: cellsFrom separator .cellStart [] cs
    | .add place => cellsFrom separator place (c :: begun) cs

/-- The cells of a line without line ends, however long. -/
def lineCells (separator : Char) (line : List Char) : List (List Char) :=
  cellsFrom separator .recordStart [] line

/-- A move goes on inside the record. -/
def Move.Inside : Move → Prop
  | .enter place => place ≠ .recordStart ∧ place ≠ .recordEnd
  | .close => True
  | .add place => place ≠ .recordStart ∧ place ≠ .recordEnd

theorem Place.move_inside (separator : Char) (place : Place) (c : Char) :
    (place.move separator c).Inside := by
  unfold Place.move
  cases place <;> dsimp only <;> (repeat' split) <;> simp [Move.Inside]

/-- The open cell only grows. -/
theorem exists_long_cell (separator : Char) {place : Place}
    (hplace : place ≠ .recordStart) (begun cs : List Char) :
    ∃ cell ∈ cellsFrom separator place begun cs,
      begun.length ≤ cell.length := by
  induction cs generalizing place begun with
  | nil =>
      refine ⟨begun.reverse, ?_, Nat.le_of_eq List.length_reverse.symm⟩
      rw [cellsFrom, if_neg hplace]
      exact List.mem_singleton_self _
  | cons c cs ih =>
      have hinside := place.move_inside separator c
      rw [cellsFrom]
      cases hmove : place.move separator c with
      | enter next =>
          rw [hmove] at hinside
          exact ih hinside.1 begun
      | close =>
          exact ⟨begun.reverse, List.mem_cons_self,
            Nat.le_of_eq List.length_reverse.symm⟩
      | add next =>
          rw [hmove] at hinside
          obtain ⟨cell, hcell, hlength⟩ := ih hinside.1 (c :: begun)
          rw [List.length_cons] at hlength
          exact ⟨cell, hcell, by omega⟩

/-- No cell is longer than what it is read from. -/
theorem length_le_of_mem_cellsFrom {separator : Char} {place : Place}
    {begun cs cell : List Char}
    (h : cell ∈ cellsFrom separator place begun cs) :
    cell.length ≤ begun.length + cs.length := by
  induction cs generalizing place begun with
  | nil =>
      rw [cellsFrom] at h
      split at h
      · cases h
      · rw [List.mem_singleton.1 h, List.length_reverse]
        omega
  | cons c cs ih =>
      rw [List.length_cons]
      rw [cellsFrom] at h
      cases hmove : place.move separator c with
      | enter next =>
          rw [hmove] at h
          have := ih h
          omega
      | close =>
          rw [hmove] at h
          rcases List.mem_cons.1 h with rfl | h
          · rw [List.length_reverse]
            omega
          · have hle := ih h
            rw [List.length_nil] at hle
            omega
      | add next =>
          rw [hmove] at h
          have hle := ih h
          rw [List.length_cons] at hle
          omega

/-! ## The reader follows -/

/-- What a move makes of a reading. -/
def Reading.follow (r : Reading) (c : Char) : Move → Except Error Reading
  | .enter place => .ok { r with place }
  | .close => .ok (r.endCell .cellStart)
  | .add place => r.add place c

theorem Reading.step_eq_follow {separator c : Char} {r : Reading}
    (hplace : r.place ≠ .recordEnd) (hc : isLineEnd c = false) :
    r.step separator c = r.follow c (r.place.move separator c) := by
  unfold Reading.step Place.move
  cases hr : r.place with
  | recordEnd => exact absurd hr hplace
  | recordStart | cellStart =>
      simp only [hc, startCell, Bool.false_eq_true, if_false]
      split
      · rfl
      · split <;> rfl
  | plain =>
      simp only [hc, Bool.false_eq_true, if_false]
      split <;> rfl
  | quoted =>
      dsimp only
      split <;> rfl
  | quoteSeen =>
      simp only [hc, Bool.false_eq_true, if_false]
      split
      · rfl
      · split <;> rfl

/-- The open cell and the room that is left make up the limit, and the record
has not ended. -/
structure Reading.Sound (r : Reading) : Prop where
  room : r.room + r.cell.length = maxCellLength
  inside : r.place ≠ .recordEnd

theorem Reading.Sound.atTextEnd {r : Reading} (h : r.Sound) (separator : Char) :
    r.atTextEnd = r.cells.reverse ++ cellsFrom separator r.place r.cell [] := by
  rw [cellsFrom]
  unfold Reading.atTextEnd Reading.atLineEnd
  cases hr : r.place with
  | recordEnd => exact absurd hr h.inside
  | recordStart => simp
  | cellStart | plain | quoted | quoteSeen => simp [endCell]

/-- A reading gives the cells before it and those from it on, unless one of
these is too long. -/
theorem Reading.Sound.run_eq {separator : Char} {r : Reading} (h : r.Sound)
    {cs : List Char} (hcs : ∀ c ∈ cs, isLineEnd c = false) :
    r.run separator cs =
      if ∀ cell ∈ cellsFrom separator r.place r.cell cs,
          cell.length ≤ maxCellLength then
        .ok (r.cells.reverse ++ cellsFrom separator r.place r.cell cs)
      else .error .cellTooLong := by
  induction cs generalizing r with
  | nil =>
      have hroom := h.room
      have hall : ∀ cell ∈ cellsFrom separator r.place r.cell [],
          cell.length ≤ maxCellLength := by
        intro cell hcell
        rw [cellsFrom] at hcell
        split at hcell
        · cases hcell
        · rw [List.mem_singleton.1 hcell, List.length_reverse]
          omega
      rw [if_pos hall, run, h.atTextEnd separator]
  | cons c cs ih =>
      have hc := hcs c List.mem_cons_self
      have hrest := fun d hd => hcs d (List.mem_cons_of_mem c hd)
      have hfeed : c ≠ '\n' := by
        rintro rfl
        cases hc
      have hroom := h.room
      have hinside := r.place.move_inside separator c
      rw [run, step_eq_follow h.inside hc, cellsFrom]
      cases hmove : r.place.move separator c with
      | enter place =>
          rw [hmove] at hinside
          have hnext : Sound { r with place } := ⟨hroom, hinside.2⟩
          simp only [follow, if_neg hfeed]
          exact ih hnext hrest
      | close =>
          have hnext : Sound (r.endCell .cellStart) :=
            ⟨rfl, by simp [endCell]⟩
          have hlength : r.cell.reverse.length ≤ maxCellLength := by
            rw [List.length_reverse]
            omega
          simp only [follow, if_neg hfeed]
          rw [ih hnext hrest]
          simp only [endCell, List.forall_mem_cons, hlength, true_and,
            List.reverse_cons, List.append_assoc, List.singleton_append]
      | add place =>
          rw [hmove] at hinside
          simp only [follow, add]
          cases hr : r.room with
          | zero =>
              -- The cell is full, so that it is too long whatever follows.
              obtain ⟨cell, hcell, hlength⟩ :=
                exists_long_cell separator hinside.1 (c :: r.cell) cs
              rw [List.length_cons] at hlength
              rw [if_neg fun hall => by
                have := hall cell hcell
                omega]
          | succ room =>
              have hlength : room + (c :: r.cell).length = maxCellLength := by
                rw [List.length_cons]
                omega
              have hnext : Sound { r with place, room, cell := c :: r.cell } :=
                ⟨hlength, hinside.2⟩
              simp only [if_neg hfeed]
              exact ih hnext hrest

/-- A line without line ends has its cells, unless one of them is too long. -/
theorem quotedCells_eq {separator : Char} {line : List Char}
    (hline : ∀ c ∈ line, Reading.isLineEnd c = false) :
    quotedCells separator line =
      if ∀ cell ∈ lineCells separator line, cell.length ≤ maxCellLength then
        .ok (lineCells separator line)
      else .error .cellTooLong := by
  have hstart : Reading.Sound {} := ⟨rfl, by decide⟩
  exact hstart.run_eq hline

/-! ## Splitting -/

/-- No cell of a line is longer than it may be. Only a separator that allows
for quotes has a limit, which is any single character but the space. -/
def Fits (separator : String) (line : List Char) : Prop :=
  ∀ c, separator.toList = [c] → c ≠ ' ' →
    ∀ cell ∈ lineCells c line, cell.length ≤ maxCellLength

theorem fits_of_length_le (separator : String) {line : List Char}
    (h : line.length ≤ maxCellLength) : Fits separator line := by
  intro c _ _ cell hcell
  have hle := length_le_of_mem_cellsFrom hcell
  rw [List.length_nil] at hle
  omega

theorem split_quoted {separator : String} {c : Char}
    (h : separator.toList = [c]) (hc : c ≠ ' ') (line : List Char) :
    split separator line =
      (quotedCells c line).map (·.map String.ofList) := by
  unfold split
  rw [h]
  split
  · next heq => cases heq
  · next heq => cases heq; exact absurd rfl hc
  · next heq => cases heq; rfl
  · next hne => exact absurd rfl (hne c)

theorem split_unquoted {separator : String}
    (h : ∀ c, separator.toList = [c] → c = ' ') (line : List Char) :
    ∃ cells, split separator line = .ok cells := by
  unfold split
  split
  · exact ⟨_, rfl⟩
  · exact ⟨_, rfl⟩
  · next c hne heq => exact absurd (h c heq) hne
  · exact ⟨_, rfl⟩

/-- A line without line ends is split exactly if its cells fit. -/
theorem split_eq_ok_iff {separator : String} {line : List Char}
    (hline : ∀ c ∈ line, Reading.isLineEnd c = false) :
    (∃ cells, split separator line = .ok cells) ↔ Fits separator line := by
  by_cases hquoted : ∃ c, separator.toList = [c] ∧ c ≠ ' '
  · obtain ⟨c, hseparator, hc⟩ := hquoted
    have hfits : Fits separator line ↔
        ∀ cell ∈ lineCells c line, cell.length ≤ maxCellLength := by
      constructor
      · intro h
        exact h c hseparator hc
      · intro h d hd _
        rw [hseparator] at hd
        injection hd with hd
        exact hd ▸ h
    rw [hfits, split_quoted hseparator hc, quotedCells_eq hline]
    split
    · next hall => exact ⟨fun _ => hall, fun _ => ⟨_, rfl⟩⟩
    · next hall =>
        constructor
        · rintro ⟨cells, hcells⟩
          cases hcells
        · intro h
          exact absurd h hall
  · have hunquoted : ∀ c, separator.toList = [c] → c = ' ' := by
      intro c hseparator
      by_cases hc : c = ' '
      · exact hc
      · exact absurd ⟨c, hseparator, hc⟩ hquoted
    constructor
    · intro _ c hseparator hc
      exact absurd (hunquoted c hseparator) hc
    · intro _
      exact split_unquoted hunquoted line

end TableQuery.Cells

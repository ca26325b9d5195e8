/-!
# Index sets

A finite set of whole numbers, kept as the ascending list of its members, so
that two sets with the same members are the same set and printing needs no
sorting. Row numbers are such indices; so is anything else a set expression is
given to join.

Union and intersection walk along both lists at once. What holds of them is said
by membership (`mem_union`, `mem_inter`); that the walks stay ascending goes
into the type.
-/

namespace TableQuery

/-- A finite set of whole numbers. -/
structure IndexSet where
  /-- The members in ascending order. -/
  toList : List Int
  ascending : toList.Pairwise (· < ·)
  deriving DecidableEq

namespace IndexSet

/-! ## Walks along ascending lists -/

/-- An ascending list with one more member. -/
def insertInto (x : Int) : List Int → List Int
  | [] => [x]
  | y :: ys => if x < y then x :: y :: ys else if y < x then y :: insertInto x ys else y :: ys

/-- Walks along the second list up to the place of `x`, keeps both, and leaves
the tail of the first list to `rest`. -/
def unionFrom (x : Int) (rest : List Int → List Int) : List Int → List Int
  | [] => x :: rest []
  | y :: ys =>
    if x < y then x :: rest (y :: ys)
    else if y < x then y :: unionFrom x rest ys
    else x :: rest ys

/-- What is in either of two ascending lists. -/
def unionLists : List Int → List Int → List Int
  | [], ys => ys
  | x :: xs, ys => unionFrom x (unionLists xs) ys

/-- Walks along the second list up to the place of `x`, keeps `x` where it is
found, and leaves the tail of the first list to `rest`. -/
def interFrom (x : Int) (rest : List Int → List Int) : List Int → List Int
  | [] => []
  | y :: ys =>
    if x < y then rest (y :: ys)
    else if y < x then interFrom x rest ys
    else x :: rest ys

/-- What is in both of two ascending lists. -/
def interLists : List Int → List Int → List Int
  | [], _ => []
  | x :: xs, ys => interFrom x (interLists xs) ys

theorem mem_insertInto {v x : Int} {ys : List Int} : v ∈ insertInto x ys ↔ v = x ∨ v ∈ ys := by
  induction ys with
  | nil => simp [insertInto]
  | cons y ys ih =>
    rw [insertInto]
    split
    · exact List.mem_cons
    split
    · rw [List.mem_cons, ih, List.mem_cons, or_left_comm]
    · have hxy : x = y := by omega
      simp [hxy]

theorem pairwise_insertInto {x : Int} {ys : List Int} (h : ys.Pairwise (· < ·)) :
    (insertInto x ys).Pairwise (· < ·) := by
  induction ys with
  | nil => exact List.pairwise_singleton _ _
  | cons y ys ih =>
    obtain ⟨hy, hys⟩ := List.pairwise_cons.1 h
    rw [insertInto]
    split
    · next hxy =>
      refine List.pairwise_cons.2 ⟨fun v hv => ?_, h⟩
      rcases List.mem_cons.1 hv with rfl | hv
      · exact hxy
      · exact Int.lt_trans hxy (hy v hv)
    split
    · next hyx =>
      refine List.pairwise_cons.2 ⟨fun v hv => ?_, ih hys⟩
      rcases mem_insertInto.1 hv with rfl | hv
      · exact hyx
      · exact hy v hv
    · exact h

theorem mem_unionFrom {v x : Int} {xs : List Int} {rest : List Int → List Int}
    (hrest : ∀ zs, v ∈ rest zs ↔ v ∈ xs ∨ v ∈ zs) (ys : List Int) :
    v ∈ unionFrom x rest ys ↔ v ∈ x :: xs ∨ v ∈ ys := by
  induction ys with
  | nil => simp [unionFrom, hrest]
  | cons y ys ih =>
    rw [unionFrom]
    split
    · simp [hrest, or_assoc]
    split
    · simp [ih, or_left_comm]
    · have hxy : x = y := by omega
      subst hxy
      simp only [List.mem_cons, hrest]
      grind

theorem mem_unionLists {v : Int} {xs ys : List Int} :
    v ∈ unionLists xs ys ↔ v ∈ xs ∨ v ∈ ys := by
  induction xs generalizing ys with
  | nil => simp [unionLists]
  | cons x xs ih => exact mem_unionFrom (fun _ => ih) ys

theorem pairwise_unionLists {xs ys : List Int} (hxs : xs.Pairwise (· < ·))
    (hys : ys.Pairwise (· < ·)) : (unionLists xs ys).Pairwise (· < ·) := by
  induction xs generalizing ys with
  | nil => exact hys
  | cons x xs ih =>
    obtain ⟨hx, hxs⟩ := List.pairwise_cons.1 hxs
    rw [unionLists]
    induction ys with
    | nil =>
      refine List.pairwise_cons.2 ⟨fun v hv => ?_, ih hxs .nil⟩
      rcases mem_unionLists.1 hv with hv | hv
      · exact hx v hv
      · cases hv
    | cons y ys ihy =>
      obtain ⟨hy, hys'⟩ := List.pairwise_cons.1 hys
      rw [unionFrom]
      split
      · next hxy =>
        refine List.pairwise_cons.2 ⟨fun v hv => ?_, ih hxs hys⟩
        rcases mem_unionLists.1 hv with hv | hv
        · exact hx v hv
        · rcases List.mem_cons.1 hv with rfl | hv
          · exact hxy
          · exact Int.lt_trans hxy (hy v hv)
      split
      · next hyx =>
        refine List.pairwise_cons.2 ⟨fun v hv => ?_, ihy hys'⟩
        rcases (mem_unionFrom (fun _ => mem_unionLists) ys).1 hv with hv | hv
        · rcases List.mem_cons.1 hv with rfl | hv
          · exact hyx
          · exact Int.lt_trans hyx (hx v hv)
        · exact hy v hv
      · refine List.pairwise_cons.2 ⟨fun v hv => ?_, ih hxs hys'⟩
        rcases mem_unionLists.1 hv with hv | hv
        · exact hx v hv
        · have := hy v hv
          omega

theorem mem_interLists {v : Int} {xs ys : List Int} (hxs : xs.Pairwise (· < ·))
    (hys : ys.Pairwise (· < ·)) : v ∈ interLists xs ys ↔ v ∈ xs ∧ v ∈ ys := by
  induction xs generalizing ys with
  | nil => simp [interLists]
  | cons x xs ih =>
    obtain ⟨hx, hxs⟩ := List.pairwise_cons.1 hxs
    rw [interLists]
    induction ys with
    | nil => simp [interFrom]
    | cons y ys ihy =>
      obtain ⟨hy, hys'⟩ := List.pairwise_cons.1 hys
      rw [interFrom]
      split
      · rw [ih hxs hys]
        grind
      split
      · rw [ihy hys']
        grind
      · rw [List.mem_cons, ih hxs hys']
        grind

theorem pairwise_interLists {xs ys : List Int} (hxs : xs.Pairwise (· < ·))
    (hys : ys.Pairwise (· < ·)) : (interLists xs ys).Pairwise (· < ·) := by
  induction xs generalizing ys with
  | nil => exact .nil
  | cons x xs ih =>
    obtain ⟨hx, hxs⟩ := List.pairwise_cons.1 hxs
    rw [interLists]
    induction ys with
    | nil => exact .nil
    | cons y ys ihy =>
      have hys' := (List.pairwise_cons.1 hys).2
      rw [interFrom]
      split
      · exact ih hxs hys
      split
      · exact ihy hys'
      · refine List.pairwise_cons.2 ⟨fun v hv => ?_, ih hxs hys'⟩
        exact hx v ((mem_interLists hxs hys').1 hv).1

/-! ## The sets -/

instance : Membership Int IndexSet := ⟨fun s x => x ∈ s.toList⟩

theorem mem_def {x : Int} {s : IndexSet} : x ∈ s ↔ x ∈ s.toList := Iff.rfl

/-- Ascending lists with the same members are the same list. -/
theorem eq_of_pairwise_of_mem_iff {xs ys : List Int} (hxs : xs.Pairwise (· < ·))
    (hys : ys.Pairwise (· < ·)) (h : ∀ v, v ∈ xs ↔ v ∈ ys) : xs = ys := by
  have hperm : xs.Perm ys :=
    (List.perm_ext_iff_of_nodup (hxs.imp Int.ne_of_lt) (hys.imp Int.ne_of_lt)).2 h
  exact hperm.eq_of_pairwise (fun _ _ _ _ hab hba => absurd hab (Int.lt_asymm hba)) hxs hys

/-- Sets with the same members are the same set. -/
theorem ext_mem {s t : IndexSet} (h : ∀ x, x ∈ s ↔ x ∈ t) : s = t := by
  cases s with
  | mk xs hxs =>
    cases t with
    | mk ys hys =>
      congr
      exact eq_of_pairwise_of_mem_iff hxs hys h

/-- The empty set. -/
def empty : IndexSet := ⟨[], .nil⟩

/-- The set with one more member. -/
def insert (s : IndexSet) (x : Int) : IndexSet :=
  ⟨insertInto x s.toList, pairwise_insertInto s.ascending⟩

/-- The set of the members of a list. -/
def ofList (xs : List Int) : IndexSet :=
  xs.foldr (fun x s => s.insert x) empty

/-- The indices from one to `n`. -/
def upTo (n : Nat) : IndexSet :=
  ofList ((List.range n).map fun i : Nat => (i : Int) + 1)

/-- What is in either set. -/
def union (s t : IndexSet) : IndexSet :=
  ⟨unionLists s.toList t.toList, pairwise_unionLists s.ascending t.ascending⟩

/-- What is in both sets. -/
def inter (s t : IndexSet) : IndexSet :=
  ⟨interLists s.toList t.toList, pairwise_interLists s.ascending t.ascending⟩

@[simp] theorem not_mem_empty {x : Int} : x ∉ empty := by simp [mem_def, empty]

@[simp] theorem mem_insert {v x : Int} {s : IndexSet} : v ∈ s.insert x ↔ v = x ∨ v ∈ s :=
  mem_insertInto

@[simp] theorem mem_ofList {x : Int} {xs : List Int} : x ∈ ofList xs ↔ x ∈ xs := by
  induction xs with
  | nil => simp [ofList]
  | cons y ys ih =>
    rw [ofList, List.foldr_cons, ← ofList, mem_insert, ih, List.mem_cons]

@[simp] theorem mem_union {x : Int} {s t : IndexSet} : x ∈ s.union t ↔ x ∈ s ∨ x ∈ t :=
  mem_unionLists

@[simp] theorem mem_inter {x : Int} {s t : IndexSet} : x ∈ s.inter t ↔ x ∈ s ∧ x ∈ t :=
  mem_interLists s.ascending t.ascending

theorem union_empty (s : IndexSet) : s.union empty = s :=
  ext_mem fun x => by simp

theorem inter_empty (s : IndexSet) : s.inter empty = empty :=
  ext_mem fun x => by simp

@[simp] theorem mem_upTo {x : Int} {n : Nat} : x ∈ upTo n ↔ 1 ≤ x ∧ x ≤ n := by
  simp only [upTo, mem_ofList, List.mem_map, List.mem_range]
  constructor
  · rintro ⟨i, hi, rfl⟩
    omega
  · rintro ⟨h₁, h₂⟩
    exact ⟨(x - 1).toNat, by omega, by omega⟩

end IndexSet

end TableQuery

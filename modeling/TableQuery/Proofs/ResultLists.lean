/-!
# Lists of results

A list of computations that may fail is one computation, which fails where one
of them does. This file says when it has a result, and that it then has one for
each computation, in order.
-/

namespace TableQuery

/-- A list of results is a result where all of them are. -/
theorem mapM_eq_ok_iff {α β ε : Type} {f : α → Except ε β} {xs : List α}
    {ys : List β} : xs.mapM f = .ok ys ↔ xs.map f = ys.map .ok := by
  induction xs generalizing ys with
  | nil =>
      constructor
      · intro h
        cases h
        rfl
      · intro h
        have hnil : ys = [] := List.map_eq_nil_iff.1 h.symm
        rw [hnil]
        rfl
  | cons x xs ih =>
      constructor
      · intro h
        rw [List.mapM_cons] at h
        cases hx : f x with
        | error e => rw [hx] at h; cases h
        | ok y =>
            cases hxs : xs.mapM f with
            | error e => rw [hx, hxs] at h; cases h
            | ok zs =>
                rw [hx, hxs] at h
                cases h
                rw [List.map_cons, List.map_cons, hx, ih.1 hxs]
      · intro h
        match ys with
        | [] => cases h
        | y :: ys =>
            obtain ⟨hx, hxs⟩ := List.cons.inj h
            rw [List.mapM_cons, hx, ih.2 hxs]
            rfl

theorem exists_mapM_eq_ok {α β ε : Type} {f : α → Except ε β} {xs : List α}
    (h : ∀ x ∈ xs, ∃ y, f x = .ok y) : ∃ ys, xs.mapM f = .ok ys := by
  induction xs with
  | nil => exact ⟨[], rfl⟩
  | cons x xs ih =>
      obtain ⟨y, hy⟩ := h x List.mem_cons_self
      obtain ⟨ys, hys⟩ := ih fun z hz => h z (List.mem_cons_of_mem x hz)
      refine ⟨y :: ys, ?_⟩
      rw [mapM_eq_ok_iff] at hys ⊢
      rw [List.map_cons, List.map_cons, hy, hys]

theorem exists_mapM_eq_ok_iff {α β ε : Type} {f : α → Except ε β}
    {xs : List α} :
    (∃ ys, xs.mapM f = .ok ys) ↔ ∀ x ∈ xs, ∃ y, f x = .ok y := by
  constructor
  · rintro ⟨ys, hys⟩ x hx
    have hmem : f x ∈ ys.map Except.ok :=
      mapM_eq_ok_iff.1 hys ▸ List.mem_map_of_mem hx
    obtain ⟨y, -, hy⟩ := List.mem_map.1 hmem
    exact ⟨y, hy.symm⟩
  · exact exists_mapM_eq_ok

end TableQuery

import TableQuery.File.Tree

/-!
# Names too long to look for

A path of a single name leads one step from the current folder, which is there
in every tree of files. If the name is longer than names may be, that step fails
whatever files there are, and with an error that does not say that nothing is at
the path (`FileTree.read_of_long_name`).
-/

namespace TableQuery

/-- A path of a single name. -/
structure Path.IsName (name : String) : Prop where
  slash : '/' ∉ name.toList
  null : '\x00' ∉ name.toList
  empty : name ≠ ""
  point : name ≠ "."
  back : name ≠ ".."

namespace Path

theorem toString_name (name : String) :
    (Path.mk .current [name]).toString = name := by
  simp [toString, String.intercalate_singleton]

theorem IsName.ofString_eq {name : String} (h : IsName name) :
    ofString name = ⟨.current, [name]⟩ := by
  have hsplit : name.toList.splitOn '/' = [name.toList] :=
    List.splitOn_eq_singleton h.slash
  have hstart : (name.toList.takeWhile (· == '/')).length = 0 := by
    cases hchars : name.toList with
    | nil => rfl
    | cons c cs =>
        have hc : c ≠ '/' := by
          rintro rfl
          exact h.slash (hchars ▸ List.mem_cons_self)
        rw [List.takeWhile_cons_of_neg (by simpa using hc)]
        rfl
  rw [ofString, hsplit, hstart]
  simp [h.empty, h.point]

end Path

namespace FileTree

theorem read_of_long_name (t : FileTree) {name : String} (h : Path.IsName name)
    (hlong : maxNameLength < name.utf8ByteSize) :
    t.read (.ofString name) = .fault (.nameTooLong name) := by
  have hstep : t.follow ⟨.current, [name]⟩ (some []) name =
      .error (.nameTooLong name) := by
    simp only [follow, isFolder, List.isEmpty_nil, Bool.true_or, Bool.not_true,
      Bool.false_eq_true, if_false, if_neg h.back, if_pos hlong,
      Path.toString_name]
  rw [h.ofString_eq, read, Path.toString_name, if_neg h.null]
  split
  · rfl
  · simp only [if_true, List.foldlM_cons, hstep]
    rfl

end FileTree

end TableQuery

import SchemaPlan.Proofs.Snapshot.Containment
import SchemaPlan.Snapshot.Stored

/-!
# Files of absolute paths

An absolute path has one slash in front and none at its end (`IsAbsolute.exists_stripped`), so its
file tells all of it : absolute paths have files (`exists_file`), and those with one file are equal
(`file_inj`).
-/

namespace SchemaPlan.Snapshot

variable {root path path' : String}

theorem IsAbsolute.not_mem_segments (h : IsAbsolute path) : ".." ∉ FileTree.segments path := by
  obtain ⟨names, hsegments, -, hnames⟩ := h
  rw [hsegments, List.mem_cons]
  rintro (hempty | hmem)
  · exact absurd hempty (by decide)
  · exact hnames _ hmem (by decide)

/-- An absolute path is a slash and a text that neither starts nor ends with a slash. -/
theorem IsAbsolute.exists_stripped (h : IsAbsolute path) :
    ∃ relative, path = "/" ++ relative ∧ Stripped path relative := by
  obtain ⟨names, hsegments, hne, hnames⟩ := h
  obtain ⟨relative, hpath, hpieces⟩ : ∃ relative : String, path.toList = '/' :: relative.toList ∧
      FileTree.segments relative = names := by
    rw [FileTree.segments] at hsegments
    cases hpath : path.toList with
    | nil => simp [hpath, Text.splitOn, hne.symm] at hsegments
    | cons c relative =>
      rw [hpath, Text.splitOn] at hsegments
      split at hsegments
      · next hc =>
        subst hc
        refine ⟨.ofList relative, by rw [String.toList_ofList], ?_⟩
        rw [FileTree.segments, String.toList_ofList]
        exact (List.cons.inj hsegments).2
      · split at hsegments <;> simp at hsegments
  have hnonempty : [] ∉ Text.splitOn '/' relative.toList := fun hmem =>
    hnames "" (hpieces ▸ FileTree.mem_segments_iff.2 hmem) (by decide)
  refine ⟨relative, String.toList_inj.1 (by rw [hpath, String.toList_append]; rfl),
    ⟨⟨['/'], [], by rw [hpath, List.append_nil]; rfl, by simp, by simp⟩, fun hhead => ?_,
      fun hlast => ?_⟩⟩
  · obtain ⟨rest, hrest⟩ := List.head?_eq_some_iff.1 hhead
    rw [hrest, Text.splitOn, if_pos rfl] at hnonempty
    exact hnonempty List.mem_cons_self
  · obtain ⟨front, hfront⟩ := List.getLast?_eq_some_iff.1 hlast
    rw [hfront, Text.splitOn_append_cons] at hnonempty
    exact hnonempty (List.mem_append_right _ List.mem_cons_self)

/-- An absolute path has a file. -/
theorem exists_file (h : IsAbsolute path) (root : String) : ∃ name, file root path = .ok name := by
  obtain ⟨relative, -, hstripped⟩ := h.exists_stripped
  exact ⟨_, file_eq_joined hstripped h.not_mem_segments root⟩

/-- Absolute paths with the same file are equal. -/
theorem file_inj (h : IsAbsolute path) (h' : IsAbsolute path') :
    file root path = file root path' ↔ path = path' := by
  refine ⟨fun heq => ?_, congrArg _⟩
  obtain ⟨relative, hpath, hstripped⟩ := h.exists_stripped
  obtain ⟨relative', hpath', hstripped'⟩ := h'.exists_stripped
  rw [file_eq_file_iff hstripped hstripped' h.not_mem_segments h'.not_mem_segments] at heq
  rw [hpath, hpath', heq]

end SchemaPlan.Snapshot

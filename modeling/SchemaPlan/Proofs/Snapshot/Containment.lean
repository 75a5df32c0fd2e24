import SchemaPlan.Proofs.Text.Blank
import SchemaPlan.Proofs.Text.Split
import SchemaPlan.Snapshot
import SchemaPlan.Snapshot.Containment

/-!
# Snapshots are under their directory

`Snapshot.file_contained` : a path is refused exactly if it has a `..` segment, and the file of any
other is under the directory of snapshots. The segments are looked at before `.json` is put at the
end, but no segment becomes `..` by it (`not_mem_segments_json`), and a way without `..` never leads
out of the directory it starts in (`FileTree.prefix_endOf`).
-/

namespace SchemaPlan

namespace FileTree

theorem endOf_append (directory before after : List String) :
    endOf directory (before ++ after) = endOf (endOf directory before) after := by
  induction before generalizing directory with
  | nil => rfl
  | cons segment before ih =>
    rw [List.cons_append, endOf, endOf]
    split
    · exact ih _
    · split <;> exact ih _

/-- A way without `..` does not lead out of the directory that it starts in. -/
theorem prefix_endOf {way : List String} (h : ".." ∉ way) (directory : List String) :
    directory <+: endOf directory way := by
  induction way generalizing directory with
  | nil => exact List.prefix_rfl
  | cons segment way ih =>
    rw [List.mem_cons, not_or] at h
    rw [endOf]
    split
    · exact ih h.2 directory
    · rw [goesUp, if_neg (by simpa using Ne.symm h.1)]
      exact (List.prefix_append directory [segment]).trans (ih h.2 _)

/-- The names of a path are the texts between its slashes. -/
theorem mem_segments_iff {segment path : String} :
    segment ∈ segments path ↔ segment.toList ∈ Text.splitOn '/' path.toList := by
  rw [segments, List.mem_map]
  constructor
  · rintro ⟨piece, hpiece, rfl⟩
    rwa [String.toList_ofList]
  · exact fun h => ⟨_, h, String.ofList_toList⟩

theorem segments_of_toList {path : String} {front rest : List Char}
    (h : path.toList = front ++ '/' :: rest) :
    segments path = segments (.ofList front) ++ segments (.ofList rest) := by
  rw [segments, segments, segments, h, Text.splitOn_append_cons, List.map_append,
    String.toList_ofList, String.toList_ofList]

end FileTree

namespace Snapshot

variable {root path path' relative relative' : String}

/-! ## Stripped paths -/

theorem stripped_iff :
    Stripped path relative ↔ relative.toList = Text.dropEnds (· = '/') path.toList := by
  constructor
  · rintro ⟨⟨lead, trail, hpath, hlead, htrail⟩, hhead, hlast⟩
    rw [hpath, Text.dropEnds_append_append (fun c hc => decide_eq_true (hlead c hc))
      fun c hc => decide_eq_true (htrail c hc)]
    refine (Text.dropEnds_eq_self (fun c hc => decide_eq_false ?_)
      fun c hc => decide_eq_false ?_).symm
    · rintro rfl
      exact hhead hc
    · rintro rfl
      exact hlast hc
  · intro h
    obtain ⟨lead, trail, hpath, hlead, htrail⟩ := Text.eq_append_dropEnds (· = '/') path.toList
    refine ⟨⟨lead, trail, h ▸ hpath, fun c hc => of_decide_eq_true (hlead c hc),
      fun c hc => of_decide_eq_true (htrail c hc)⟩, fun hhead => ?_, fun hlast => ?_⟩
    · rw [h] at hhead
      exact absurd (Text.head?_dropEnds hhead) (by decide)
    · rw [h] at hlast
      exact absurd (Text.getLast?_dropEnds hlast) (by decide)

/-- Every path has the slashes around it stripped. -/
theorem exists_stripped (path : String) : ∃ relative, Stripped path relative :=
  ⟨.ofList (Text.dropEnds (· = '/') path.toList), stripped_iff.2 String.toList_ofList⟩

theorem Stripped.mem_segments_iff (h : Stripped path relative) :
    ".." ∈ FileTree.segments relative ↔ ".." ∈ FileTree.segments path := by
  obtain ⟨lead, trail, hpath, hlead, htrail⟩ := h.padded
  rw [FileTree.mem_segments_iff, FileTree.mem_segments_iff, hpath,
    Text.mem_splitOn_padded (by decide) hlead htrail]

/-! ## Files -/

/-- With `.json` at its end, a path still has no slash in front. -/
theorem Stripped.head_json (h : Stripped path relative) :
    (relative ++ ".json").toList.head? ≠ some '/' := by
  rw [String.toList_append]
  cases hrelative : relative.toList with
  | nil => decide
  | cons c rest =>
    have hhead := h.head
    rwa [hrelative] at hhead

/-- No segment becomes `..` where `.json` is put at the end. -/
theorem not_mem_segments_json (h : ".." ∉ FileTree.segments relative) :
    ".." ∉ FileTree.segments (relative ++ ".json") := by
  rw [FileTree.mem_segments_iff] at h ⊢
  rw [String.toList_append]
  have hslash : '/' ∉ ".json".toList := by decide
  obtain ⟨front, last, hrelative, hjson⟩ :=
    Text.splitOn_append_of_not_mem hslash relative.toList
  rw [hrelative, List.mem_append] at h
  rw [hjson, List.mem_append, List.mem_singleton]
  rintro (hfront | hlast)
  · exact h (.inl hfront)
  · have hlength := congrArg List.length hlast
    rw [List.length_append] at hlength
    have hjsonLength : ".json".toList.length = 5 := by decide
    have hupLength : "..".toList.length = 2 := by decide
    omega

/-- What is below a directory tells the paths apart. -/
theorem below_inj {root f g : List Char} : below root f = below root g ↔ f = g := by
  unfold below
  split <;> simp

/-- A way that does not start with a slash is joined below the root. -/
theorem joined_of_relative {way : String} (h : way.toList.head? ≠ some '/') :
    joined root way = .ofList (below root.toList way.toList) := by
  apply String.toList_inj.1
  rw [joined, if_neg h, String.toList_ofList, below]
  by_cases hroot : root = "" ∨ root.toList.getLast? = some '/'
  · rw [if_pos hroot, if_pos (by simpa using hroot), String.toList_append]
  · rw [if_neg hroot, if_neg (by simpa using hroot), String.toList_append, String.toList_append,
      List.append_assoc]
    rfl

/-- A path with a name that goes up has no file. -/
theorem file_eq_error (h : Stripped path relative) (hup : ".." ∈ FileTree.segments path)
    (root : String) : file root path = .error (.rejected (.pathLeavesSnapshots path)) := by
  rw [← h.mem_segments_iff, FileTree.mem_segments_iff] at hup
  rw [file, ← stripped_iff.1 h]
  exact if_pos (List.contains_iff_mem.2 hup)

/-- A path that never goes up has the file of its stripped form below the root. -/
theorem file_eq_joined (h : Stripped path relative) (hup : ".." ∉ FileTree.segments path)
    (root : String) : file root path = .ok (joined root (relative ++ ".json")) := by
  rw [← h.mem_segments_iff, FileTree.mem_segments_iff] at hup
  rw [joined_of_relative h.head_json, file, ← stripped_iff.1 h, String.toList_append]
  exact if_neg fun hcontains => hup (List.contains_iff_mem.1 hcontains)

/-- Two paths have one file exactly if they are stripped to one. -/
theorem file_eq_file_iff (h : Stripped path relative) (h' : Stripped path' relative')
    (hup : ".." ∉ FileTree.segments path) (hup' : ".." ∉ FileTree.segments path') :
    file root path = file root path' ↔ relative = relative' := by
  rw [file_eq_joined h hup, file_eq_joined h' hup', Except.ok.injEq,
    joined_of_relative h.head_json, joined_of_relative h'.head_json, String.ofList_inj,
    below_inj, String.toList_inj, String.append_left_inj]

/-- A way without `..` and without a slash in front is walked under the directory. -/
theorem under_joined {way : String} (hhead : way.toList.head? ≠ some '/')
    (hup : ".." ∉ FileTree.segments way) : Under root way (joined root way) where
  front := by
    rw [joined, if_neg hhead]
    split
    · exact String.toList_append ▸ List.prefix_append _ _
    · rw [String.toList_append, String.toList_append, List.append_assoc]
      exact List.prefix_append _ _
  segments := by
    rw [joined, if_neg hhead]
    split
    · next hroot =>
      rcases hroot with rfl | hlast
      · exact ⟨[], by rw [String.empty_append, List.nil_append], fun _ => rfl⟩
      · obtain ⟨front, hfront⟩ := List.getLast?_eq_some_iff.1 hlast
        have hname : (root ++ way).toList = front ++ '/' :: way.toList := by
          rw [String.toList_append, hfront, List.append_assoc, List.singleton_append]
        refine ⟨FileTree.segments (.ofList front), ?_, fun directory => ?_⟩
        · rw [FileTree.segments_of_toList hname, String.ofList_toList]
        · -- the slash at the end of the directory gives an empty segment, which stays
          rw [FileTree.segments_of_toList hfront, FileTree.endOf_append]
          rfl
    · have hname : (root ++ "/" ++ way).toList = root.toList ++ '/' :: way.toList := by
        rw [String.toList_append, String.toList_append, List.append_assoc]
        rfl
      refine ⟨FileTree.segments root, ?_, fun _ => rfl⟩
      rw [FileTree.segments_of_toList hname, String.ofList_toList, String.ofList_toList]
  inside directory part hpart :=
    FileTree.prefix_endOf (fun h => hup (hpart.subset h)) directory

/-- A path is refused exactly if it has a segment `..`. The file of any other path is what the path
without the slashes at its ends, and with `.json`, is from the directory of snapshots on: the
directory is never replaced, and walking on from it never leaves it. Two paths have one file exactly
if they are the same without the slashes at their ends. -/
theorem file_contained (root path : String) :
    (".." ∈ FileTree.segments path →
      file root path = .error (.rejected (.pathLeavesSnapshots path))) ∧
    (".." ∉ FileTree.segments path → ∃ relative, Stripped path relative ∧
      file root path = .ok (joined root (relative ++ ".json")) ∧
      Under root (relative ++ ".json") (joined root (relative ++ ".json")) ∧
      ∀ path' relative', ".." ∉ FileTree.segments path' → Stripped path' relative' →
        (file root path' = file root path ↔ relative' = relative)) := by
  obtain ⟨relative, hstripped⟩ := exists_stripped path
  refine ⟨fun hup => file_eq_error hstripped hup root, fun hup => ⟨relative, hstripped,
    file_eq_joined hstripped hup root, ?_, fun path' relative' hup' hstripped' => ?_⟩⟩
  · exact under_joined hstripped.head_json
      (not_mem_segments_json (mt hstripped.mem_segments_iff.1 hup))
  · exact file_eq_file_iff hstripped' hstripped hup' hup

theorem file_contained_local :
    file "/snapshots" "/local/../secret" =
      .error (.rejected (.pathLeavesSnapshots "/local/../secret")) ∧
    file "/snapshots" "//local/./" = .ok (joined "/snapshots" "local/..json") ∧
    Under "/snapshots" "local/..json" (joined "/snapshots" "local/..json") ∧
    file "/snapshots" "local/." = file "/snapshots" "//local/./" := by
  have hsame : Stripped "local/." "local/." := stripped_iff.2 (by decide)
  obtain ⟨relative, hstripped, hfile, hunder, hinj⟩ :=
    (file_contained "/snapshots" "//local/./").2 (by decide)
  obtain rfl : relative = "local/." :=
    String.toList_inj.1 ((stripped_iff.1 hstripped).trans (by decide))
  exact ⟨(file_contained "/snapshots" "/local/../secret").1 (by decide), hfile, hunder,
    (hinj "local/." "local/." (by decide) hsame).2 rfl⟩

end Snapshot

end SchemaPlan

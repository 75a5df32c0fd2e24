import SchemaPlan.Address.Grammar
import SchemaPlan.Proofs.Address.RoundTrip

/-!
# Reading accepts the grammar of handles

`ofHandle_eq_ok_iff` : a text is read as an address exactly if it is a handle of the address. The
reader splits a text three times, and each split is an equivalence of its own : the scheme
(`readScheme?_eq_some_iff`), the host (`Text.splitFirst?_eq_some_iff`) and the two paths
(`splitPaths?_eq_some_iff`). Only a handle whose mark is the one that is written is written again as
it was (`IsHandle.handle_eq_iff`).
-/

namespace SchemaPlan.Address

variable {raw paths separator database path : String} {a : Address}

/-! ## Where the paths are separated -/

theorem toList_around (front mark back : String) :
    (front ++ mark ++ back).toList = front.toList ++ mark.toList ++ back.toList := by
  simp only [String.toList_append]

theorem map_toList_objectMarks : objectMarks.map String.toList = pathMarks := rfl

/-- Marks are absent from a text exactly if the text cannot be written around one. -/
theorem absent_toList_iff {marks : List String} {text : String} :
    Text.Absent (marks.map String.toList) text.toList ↔
      ∀ m ∈ marks, ∀ front back, text ≠ front ++ m ++ back := by
  simp only [Text.Absent, List.forall_mem_map]
  refine forall₂_congr fun m _ => ?_
  constructor
  · rintro h front back rfl
    exact h ⟨front.toList, back.toList, (toList_around front m back).symm⟩
  · rintro h ⟨front, back, htext⟩
    refine h (.ofList front) (.ofList back) (String.toList_inj.1 ?_)
    rw [toList_around, String.toList_ofList, String.toList_ofList, htext]

/-- With a mark between them, the paths are split there exactly if no mark is further left. -/
theorem absent_objectMarks_iff (hmark : separator ∈ objectMarks) :
    Text.Absent pathMarks database.toList ↔ ∀ other ∈ objectMarks, ∀ front back,
      database ++ separator ++ path = front ++ other ++ back → database.length ≤ front.length := by
  have hmem : ∀ other ∈ objectMarks, other.toList ∈ pathMarks := fun _ => List.mem_map_of_mem
  constructor
  · intro habsent other hother front back htext
    have hchars := congrArg String.toList htext
    rw [toList_around, toList_around] at hchars
    rw [← String.length_toList, ← String.length_toList]
    exact Text.leftmost_of_absent separating_pathMarks (hmem _ hmark) habsent (hmem _ hother) hchars
  · intro hleft
    have hchars : ∀ m ∈ pathMarks, ∀ front back : List Char,
        database.toList ++ separator.toList ++ path.toList = front ++ m ++ back →
          database.toList.length ≤ front.length := by
      intro m hm front back hchars
      obtain ⟨other, hother, rfl⟩ := List.mem_map.1 (map_toList_objectMarks ▸ hm)
      have htext : database ++ separator ++ path = .ofList front ++ other ++ .ofList back := by
        refine String.toList_inj.1 ?_
        rw [toList_around, toList_around, String.toList_ofList, String.toList_ofList, hchars]
      have hle := hleft other hother _ _ htext
      rwa [String.length_ofList, ← String.length_toList] at hle
    exact Text.absent_of_leftmost separating_pathMarks.1 hchars

/-- Two paths are told apart at a mark exactly if none stands further to the left. -/
theorem splitFirst?_pathMarks_eq_some_iff :
    Text.splitFirst? pathMarks paths.toList = some (database.toList, path.toList) ↔
      ∃ separator ∈ objectMarks, paths = database ++ separator ++ path ∧
        ∀ other ∈ objectMarks, ∀ front back, paths = front ++ other ++ back →
          database.length ≤ front.length := by
  rw [Text.splitFirst?_eq_some_iff separating_pathMarks]
  constructor
  · rintro ⟨⟨m, hm, htext⟩, habsent⟩
    obtain ⟨separator, hmark, rfl⟩ := List.mem_map.1 (map_toList_objectMarks ▸ hm)
    obtain rfl : paths = database ++ separator ++ path :=
      String.toList_inj.1 (htext.trans (toList_around _ _ _).symm)
    exact ⟨separator, hmark, rfl, (absent_objectMarks_iff hmark).1 habsent⟩
  · rintro ⟨separator, hmark, rfl, hleft⟩
    exact ⟨⟨separator.toList, List.mem_map_of_mem hmark, toList_around _ _ _⟩,
      (absent_objectMarks_iff hmark).2 hleft⟩

/-- No split is made exactly if no mark stands in the text. -/
theorem splitFirst?_pathMarks_eq_none_iff :
    Text.splitFirst? pathMarks paths.toList = none ↔
      ∀ m ∈ objectMarks, ∀ front back, paths ≠ front ++ m ++ back := by
  rw [Text.splitFirst?_eq_none_iff, ← map_toList_objectMarks, absent_toList_iff]

/-- Paths of which the second is not empty are told apart where their separator is. -/
theorem splitPaths?_eq_some_iff (hpath : path ≠ "") :
    splitPaths? paths.toList = some (database.toList, path.toList) ↔
      ∃ separator, Separates paths separator database path := by
  unfold splitPaths?
  cases hsplit : Text.splitFirst? pathMarks paths.toList with
  | some parts =>
    constructor
    · rintro h
      obtain ⟨separator, hmark, htext, hleft⟩ :=
        splitFirst?_pathMarks_eq_some_iff.1 (hsplit.trans h)
      exact ⟨separator, .mark hmark htext hleft⟩
    · rintro ⟨separator, h⟩
      cases h with
      | mark hmark htext hleft =>
        exact hsplit.symm.trans
          (splitFirst?_pathMarks_eq_some_iff.2 ⟨separator, hmark, htext, hleft⟩)
      | slash _ _ hunmarked _ =>
        rw [splitFirst?_pathMarks_eq_none_iff.2 hunmarked] at hsplit
        cases hsplit
  | none =>
    have hunmarked := splitFirst?_pathMarks_eq_none_iff.1 hsplit
    have hslash : paths.toList = database.toList ++ '/' :: path.toList ↔
        paths = database ++ "/" ++ path := by
      rw [← String.toList_inj, toList_around, List.append_assoc]
      rfl
    simp only [Option.filter_eq_some_iff, Text.splitNth?_eq_some_iff, hslash]
    constructor
    · rintro ⟨⟨htext, hcount⟩, -⟩
      exact ⟨"/", .slash rfl htext hunmarked hcount⟩
    · rintro ⟨separator, h⟩
      cases h with
      | mark hmark htext _ => exact absurd htext (hunmarked _ hmark _ _)
      | slash hsep htext _ hcount =>
        subst hsep
        exact ⟨⟨htext, hcount⟩, by simpa using hpath⟩

/-! ## Texts that are read -/

/-- The scheme is read off the front of a text, and the rest is left. -/
theorem readScheme?_eq_some_iff {text rest : List Char} {tls : Bool} :
    readScheme? text = some (tls, rest) ↔
      text = (if tls then secureScheme else plainScheme).toList ++ rest := by
  refine ⟨fun h => ?_, fun h => h ▸ readScheme?_append tls rest⟩
  unfold readScheme? at h
  split at h
  · rename_i rest' hsecure
    cases h
    exact (List.isPrefixOf?_eq_some_iff_append_eq.1 hsecure).symm
  · obtain ⟨rest', hplain, heq⟩ := Option.map_eq_some_iff.1 h
    cases heq
    exact (List.isPrefixOf?_eq_some_iff_append_eq.1 hplain).symm

/-- A text is read as an address exactly if it is one of its handles. -/
theorem ofHandle_eq_ok_iff :
    ofHandle raw = .ok a ↔ ∃ paths separator, a.IsHandle raw paths separator := by
  have hread : ofHandle raw = .ok a ↔ ofChars raw.toList = .ok a := by
    rw [ofHandle]
    cases ofChars raw.toList <;> simp
  rw [hread, ofChars_eq_ok_iff]
  constructor
  · rintro ⟨tls, rest, host, paths, database, path, hscheme, hhost, hne, hpaths, hpath, hhead, rfl⟩
    obtain ⟨⟨m, hm, hrest⟩, habsent⟩ :=
      (Text.splitFirst?_eq_some_iff separating_databaseMark).1 hhost
    obtain rfl := List.mem_singleton.1 hm
    have hpathne : String.ofList path ≠ "" := by simpa using hpath
    have hparts : splitPaths? (String.ofList paths).toList =
        some ((String.ofList database).toList, (String.ofList path).toList) := by
      simpa only [String.toList_ofList] using hpaths
    obtain ⟨separator, hseparates⟩ := (splitPaths?_eq_some_iff hpathne).1 hparts
    refine ⟨.ofList paths, separator, ?_, by simpa using hne, ?_, hseparates, ?_, hpathne⟩
    · refine String.toList_inj.1 ?_
      rw [readScheme?_eq_some_iff.1 hscheme, hrest]
      simp only [String.toList_append, String.toList_ofList, List.append_assoc]
      rfl
    · refine absent_toList_iff.1 ?_ _ (List.mem_singleton_self databaseMark)
      rwa [String.toList_ofList]
    · rwa [String.toList_ofList]
  · rintro ⟨paths, separator, h⟩
    refine ⟨a.tls, _, a.host.toList, paths.toList, a.database.toList, a.path.toList,
      readScheme?_eq_some_iff.2 ?_, (Text.splitFirst?_eq_some_iff separating_databaseMark).2
        ⟨⟨_, List.mem_singleton_self _, rfl⟩, ?_⟩, by simpa using h.host_ne,
      (splitPaths?_eq_some_iff h.path_ne).2 ⟨separator, h.separates⟩, by simpa using h.path_ne,
      h.database_absolute, by simp⟩
    · rw [h.text]
      simp only [String.toList_append, List.append_assoc]
      rfl
    · refine (@absent_toList_iff [databaseMark] _).2 (List.forall_mem_singleton.2 ?_)
      exact h.host_unmarked

/-! ## What a handle is written as -/

/-- Wherever two paths are told apart, they stand on both sides of the separator. -/
theorem Separates.text_eq (h : Separates paths separator database path) :
    paths = database ++ separator ++ path := by
  cases h <;> assumption

/-- A handle is written again as it was if its paths are separated by the mark that is written. -/
theorem IsHandle.handle_eq_iff (h : a.IsHandle raw paths separator) :
    a.handle = raw ↔ separator = pathMark := by
  have hraw : raw.toList = (if a.tls then secureScheme else plainScheme).toList ++
      (a.host.toList ++ databaseMark.toList ++
        (a.database.toList ++ separator.toList ++ a.path.toList)) := by
    rw [h.text, h.separates.text_eq]
    simp only [String.toList_append, List.append_assoc]
    rfl
  rw [← String.toList_inj, toList_handle, hraw]
  simp only [List.append_cancel_left_eq, List.append_cancel_right_eq, String.toList_inj]
  exact eq_comm

/-- An unmarked handle ends in the absolute path of its object. -/
theorem IsHandle.fullPath_eq (h : a.IsHandle raw paths "/") : a.fullPath = paths :=
  h.separates.text_eq.symm

/-- Reading accepts exactly the grammar of handles : a text is read as an address if and only if it
is a handle of the address, the handle is written again as it was if and only if the mark in it is
the one that is written, an unmarked handle ends in the absolute path of the object, and every other
text is malformed. -/
theorem ofHandle_iff_grammar (raw : String) :
    (∀ a : Address, ofHandle raw = .ok a ↔ ∃ paths separator, a.IsHandle raw paths separator) ∧
    (∀ (a : Address) paths separator, a.IsHandle raw paths separator →
      (a.handle = raw ↔ separator = "&path=") ∧ (separator = "/" → a.fullPath = paths)) ∧
    ((∀ (a : Address) paths separator, ¬a.IsHandle raw paths separator) →
      ∃ fault, ofHandle raw = .error (.malformedHandle raw fault)) := by
  refine ⟨fun a => ofHandle_eq_ok_iff, fun a paths separator h => ⟨h.handle_eq_iff, ?_⟩, ?_⟩
  · rintro rfl
    exact h.fullPath_eq
  · intro hnot
    cases hread : ofChars raw.toList with
    | error fault => exact ⟨fault, by rw [ofHandle, hread]⟩
    | ok a =>
      have hok : ofHandle raw = .ok a := by rw [ofHandle, hread]
      obtain ⟨paths, separator, h⟩ := ofHandle_eq_ok_iff.1 hok
      exact absurd h (hnot a paths separator)

/-- A handle with the older mark, whose object path holds the other one. -/
def bothMarksHandle : String := "grpc://h/?database=/local?path=a&path=b"

/-- The address that the handle with both marks names. -/
def bothMarksAddress : Address := ⟨"h", false, "/local", "a&path=b"⟩

/-- An unmarked handle that ends in its fourth slash. -/
def slashEndHandle : String := "grpcs://h:2135/?database=/ru/b1g/etn/"

/-- The older mark comes first, so the newer one belongs to the path of the object. -/
theorem isHandle_bothMarks :
    bothMarksAddress.IsHandle bothMarksHandle "/local?path=a&path=b" "?path=" where
  text := rfl
  host_ne := by decide
  host_unmarked := absent_toList_iff.1 (Text.splitFirst?_eq_none_iff.1 rfl) databaseMark
    (List.mem_singleton_self _)
  separates := by
    have htext : "/local?path=a&path=b" = "/local" ++ "?path=" ++ "a&path=b" := rfl
    have hleft := (@absent_objectMarks_iff "?path=" "/local" "a&path=b" (by decide)).1
      (Text.splitFirst?_eq_none_iff.1 rfl)
    exact .mark (by decide) htext (htext ▸ hleft)
  database_absolute := rfl
  path_ne := by decide

/-- Without a mark the fourth slash separates the paths. -/
theorem isHandle_etn : etnAddress.IsHandle etnHandle "/ru/b1g/etn/dir/table" "/" where
  text := rfl
  host_ne := by decide
  host_unmarked := absent_toList_iff.1 (Text.splitFirst?_eq_none_iff.1 rfl) databaseMark
    (List.mem_singleton_self _)
  separates := .slash rfl rfl (splitFirst?_pathMarks_eq_none_iff.1 rfl) rfl
  database_absolute := rfl
  path_ne := by decide

theorem ofHandle_iff_grammar_marks :
    ofHandle bothMarksHandle = .ok bothMarksAddress ∧
    bothMarksAddress.handle ≠ bothMarksHandle ∧
    ofHandle etnHandle = .ok etnAddress ∧
    etnAddress.fullPath = "/ru/b1g/etn/dir/table" ∧
    ∃ fault, ofHandle slashEndHandle = .error (.malformedHandle slashEndHandle fault) := by
  refine ⟨(ofHandle_iff_grammar _).1 _ |>.2 ⟨_, _, isHandle_bothMarks⟩, ?_,
    (ofHandle_iff_grammar _).1 _ |>.2 ⟨_, _, isHandle_etn⟩,
    ((ofHandle_iff_grammar _).2.1 _ _ _ isHandle_etn).2 rfl,
    (ofHandle_iff_grammar _).2.2 fun a paths separator h => ?_⟩
  · intro hwritten
    have hmark := ((ofHandle_iff_grammar _).2.1 _ _ _ isHandle_bothMarks).1.1 hwritten
    exact absurd hmark (by decide)
  · have hread := ((ofHandle_iff_grammar _).1 a).2 ⟨paths, separator, h⟩
    have hrefused : ofHandle slashEndHandle =
        .error (.malformedHandle slashEndHandle .noEntityPath) := rfl
    rw [hrefused] at hread
    cases hread

end SchemaPlan.Address

import SchemaPlan.Address.Json
import SchemaPlan.Planner
import SchemaPlan.Proofs.Step
import SchemaPlan.Proofs.Text.Split

/-!
# Handles name their addresses

Reading a handle finds three boundaries again : the end of the host, the end of the database path
and, in a handle without a mark, the slash in front of the object path. `Readable` is what the parts
of an address must satisfy for that, and both ways to obtain an address guarantee it
(`readable_of_make`, `readable_of_ofHandle`). `handle_roundTrip` : the handle of every such address
is read as the address itself.
-/

namespace SchemaPlan.Address

/-- The marks in front of an object path, the one that is written and the older one. -/
abbrev pathMarks : List (List Char) :=
  [pathMark.toList, oldPathMark.toList]

theorem separating_databaseMark : Text.Separating [databaseMark.toList] := by
  refine ⟨by decide, fun m hm n hn => ?_⟩
  obtain rfl := List.mem_singleton.1 hm
  obtain rfl := List.mem_singleton.1 hn
  exact ⟨rfl, by rintro _ ⟨⟩; decide⟩

theorem separating_pathMarks : Text.Separating pathMarks := by
  refine ⟨by decide, fun m hm n hn => ?_⟩
  simp only [pathMarks, List.mem_cons, List.not_mem_nil, or_false] at hm hn
  rcases hm with rfl | rfl <;> rcases hn with rfl | rfl <;>
    exact ⟨rfl, by rintro _ ⟨⟩; decide⟩

/-! ## Readable addresses -/

/-- The boundaries between the parts of an address can be found in its handle. -/
structure Readable (a : Address) : Prop where
  host_ne_nil : a.host.toList ≠ []
  host_absent : Text.Absent [databaseMark.toList] a.host.toList
  database_head : a.database.toList.head? = some '/'
  database_absent : Text.Absent pathMarks a.database.toList
  path_ne_nil : a.path.toList ≠ []

theorem ite_some_eq_none_iff {α : Type} {c : Prop} [Decidable c] {x : α} {rest : Option α} :
    (if c then some x else rest) = none ↔ ¬c ∧ rest = none := by
  split <;> simp [*]

/-- What it takes for four parts to have no fault. -/
theorem fault?_eq_none_iff {a : Address} : a.fault? = none ↔
    a.host ≠ "" ∧ '/' ∉ a.host.toList ∧ a.database.toList.head? = some '/' ∧
      (∀ c ∈ a.database.toList, c ≠ '?' ∧ c ≠ '&') ∧ a.path ≠ "" := by
  rw [fault?]
  simp only [ite_some_eq_none_iff, String.isEmpty_iff, List.contains_iff_mem, not_not, and_true,
    List.any_eq_true, Bool.or_eq_true, decide_eq_true_eq, not_exists, not_and, not_or, ne_eq]

/-- Four parts without a fault can be told apart in their handle. -/
theorem readable_of_make {host database path : String} {tls : Bool} {a : Address}
    (h : make host tls database path = .ok a) : a.Readable := by
  unfold make at h
  simp only at h
  split at h
  · rename_i hfault
    cases h
    obtain ⟨hhost, hslash, hhead, hmarks, hpath⟩ := fault?_eq_none_iff.1 hfault
    refine ⟨by simpa using hhost, ?_, hhead, ?_, by simpa using hpath⟩
    · refine Text.absent_of_forall_mem fun m hm => ⟨'/', ?_, hslash⟩
      rw [List.mem_singleton.1 hm]
      decide
    · refine Text.absent_of_forall_mem fun m hm => ?_
      rcases List.mem_cons.1 hm with rfl | hm
      · exact ⟨'&', by decide, fun hmem => (hmarks _ hmem).2 rfl⟩
      · exact ⟨'?', by rw [List.mem_singleton.1 hm]; decide, fun hmem => (hmarks _ hmem).1 rfl⟩
  · contradiction

/-- What a text that is read as an address consists of. -/
theorem ofChars_eq_ok_iff {text : List Char} {a : Address} : ofChars text = .ok a ↔
    ∃ tls rest host paths database path, readScheme? text = some (tls, rest) ∧
      Text.splitFirst? [databaseMark.toList] rest = some (host, paths) ∧ host ≠ [] ∧
      splitPaths? paths = some (database, path) ∧ path ≠ [] ∧ database.head? = some '/' ∧
      a = ⟨.ofList host, tls, .ofList database, .ofList path⟩ := by
  unfold ofChars
  simp only [refuse_eq_ok_iff, List.isEmpty_iff]
  constructor
  · rintro ⟨-, h⟩
    cases hscheme : readScheme? text with
    | none => simp [hscheme, throw_ne_ok] at h
    | some scheme =>
      obtain ⟨tls, rest⟩ := scheme
      cases hhost : Text.splitFirst? [databaseMark.toList] rest with
      | none => simp [hscheme, hhost, throw_ne_ok] at h
      | some parts =>
        obtain ⟨host, paths⟩ := parts
        cases hpaths : splitPaths? paths with
        | none => simp [hscheme, hhost, hpaths, throw_ne_ok, refuse_eq_ok_iff] at h
        | some parts =>
          obtain ⟨database, path⟩ := parts
          simp only [hscheme, hhost, hpaths, refuse_eq_ok_iff, pure_eq_ok_iff] at h
          obtain ⟨hne, hpath, hhead, rfl⟩ := h
          exact ⟨tls, rest, host, paths, database, path, rfl, hhost, hne, hpaths, hpath,
            not_not.1 hhead, rfl⟩
  · rintro ⟨tls, rest, host, paths, database, path, hscheme, hhost, hne, hpaths, hpath, hhead, rfl⟩
    simp only [hscheme, hhost, hpaths, refuse_eq_ok_iff, pure_eq_ok_iff]
    refine ⟨?_, hne, hpath, not_not.2 hhead, trivial⟩
    rintro rfl
    have hempty : readScheme? [] = none := rfl
    rw [hempty] at hscheme
    cases hscheme

/-- What is read as the database path holds no path mark. -/
theorem absent_of_splitPaths? {text database path : List Char}
    (h : splitPaths? text = some (database, path)) : Text.Absent pathMarks database := by
  unfold splitPaths? at h
  split at h
  · rename_i parts hsplit
    rw [h] at hsplit
    exact (Text.eq_append_of_splitFirst? separating_pathMarks.1 hsplit).2
  · rename_i hnone
    -- there is no mark in the whole text, and the database path is a part of it
    have htext := (Text.splitNth?_eq_some_iff.1 (Option.filter_eq_some_iff.1 h).1).1
    refine (Text.splitFirst?_eq_none_iff.1 hnone).of_part ?_
    exact htext ▸ (List.prefix_append database _).isInfix

/-- The parts of a handle can be told apart in the handle that is written for them. -/
theorem readable_of_ofHandle {handle : String} {a : Address} (h : ofHandle handle = .ok a) :
    a.Readable := by
  unfold ofHandle at h
  split at h
  · rename_i b hb
    cases h
    obtain ⟨tls, rest, host, paths, database, path, -, hhost, hne, hpaths, hpath, hhead, rfl⟩ :=
      ofChars_eq_ok_iff.1 hb
    have hhost := (Text.eq_append_of_splitFirst? separating_databaseMark.1 hhost).2
    exact ⟨by simpa using hne, by simpa using hhost, by simpa using hhead,
      by simpa using absent_of_splitPaths? hpaths, by simpa using hpath⟩
  · contradiction

/-! ## Reading a handle -/

/-- The scheme that was written is read back, and what follows it is left. -/
theorem readScheme?_append (tls : Bool) (rest : List Char) :
    readScheme? ((if tls then secureScheme else plainScheme).toList ++ rest) =
      some (tls, rest) := by
  cases tls with
  | true => rfl
  | false => rfl

/-- The characters of a handle, part by part. -/
theorem toList_handle (a : Address) : a.handle.toList =
    (if a.tls then secureScheme else plainScheme).toList ++ (a.host.toList ++ databaseMark.toList
      ++ (a.database.toList ++ pathMark.toList ++ a.path.toList)) := by
  simp only [handle, endpoint, String.toList_append, List.append_assoc]

/-- The handle of a readable address is read as the address. -/
theorem ofHandle_handle {a : Address} (h : a.Readable) : ofHandle a.handle = .ok a := by
  have hpaths : splitPaths? (a.database.toList ++ pathMark.toList ++ a.path.toList) =
      some (a.database.toList, a.path.toList) := by
    rw [splitPaths?, Text.splitFirst?_append separating_pathMarks List.mem_cons_self
      h.database_absent]
  have hchars : ofChars a.handle.toList = .ok a := by
    rw [ofChars_eq_ok_iff, toList_handle]
    refine ⟨a.tls, _, a.host.toList, _, a.database.toList, a.path.toList, readScheme?_append _ _,
      ?_, h.host_ne_nil, hpaths, h.path_ne_nil, h.database_head, ?_⟩
    · exact Text.splitFirst?_append separating_databaseMark List.mem_cons_self h.host_absent
    · simp
  rw [ofHandle, hchars]

/-- However an address was obtained, its parts can be told apart in its handle. -/
theorem Built.readable {a : Address} (h : a.Built) : a.Readable := by
  rcases h with ⟨_, _, _, _, h⟩ | ⟨_, h⟩
  · exact readable_of_make h
  · exact readable_of_ofHandle h

/-- The handle of a confirmed object names the address that was asked about. -/
theorem confirm_bind_ofHandle {m : Type → Type} [Monad m] [LawfulMonad m] {α : Type}
    {a : Address} (h : a.Built) (found : ExceptT Error m (Option α)) :
    (do ofHandle (← Planner.confirm a (← found)) : ExceptT Error m Address) =
      (do if (← found).isSome then pure a else throw (.notCreated a.fullPath)) := by
  refine bind_congr fun observed => ?_
  cases observed with
  | none =>
    rw [Planner.confirm, liftM_error]
    simp
  | some _ =>
    rw [Planner.confirm, liftM_ok, pure_bind, ofHandle_handle h.readable, liftM_ok]
    rfl

/-- Handles round-trip : an address that was made or read is read back from its handle, so that
its handle belongs to no other such address, a handle that was written by reading is a fixed point
of reading and writing, and the handle of a confirmed object names its address. -/
theorem handle_roundTrip :
    (∀ a : Address, a.Built → ofHandle a.handle = .ok a) ∧
    (∀ a b : Address, a.Built → b.Built → a.handle = b.handle → a = b) ∧
    (∀ raw written, (ofHandle raw).map handle = .ok written →
      (ofHandle written).map handle = .ok written) ∧
    ∀ {m : Type → Type} [Monad m] [LawfulMonad m] (planner : Planner m) (a : Address), a.Built →
      (do ofHandle (← planner.confirmTable a) : ExceptT Error m Address) =
        (do
          let observed ← ExceptT.mk (planner.observer.table a.fullPath)
          if observed.isSome then pure a else throw (.notCreated a.fullPath)) ∧
      (do ofHandle (← planner.confirmTopic a) : ExceptT Error m Address) =
        (do
          let observed ← ExceptT.mk (planner.observer.topic a.fullPath)
          if observed.isSome then pure a else throw (.notCreated a.fullPath)) := by
  refine ⟨fun a ha => ofHandle_handle ha.readable, ?_, ?_, ?_⟩
  · intro a b ha hb heq
    have hread := ofHandle_handle ha.readable
    rw [heq, ofHandle_handle hb.readable] at hread
    exact (Except.ok.inj hread).symm
  · intro raw written h
    obtain ⟨a, ha, rfl⟩ := map_eq_ok_iff.1 h
    rw [ofHandle_handle (readable_of_ofHandle ha)]
    rfl
  · intro m _ _ planner a ha
    simp only [Planner.confirmTable, Planner.confirmTopic, bind_assoc]
    exact ⟨confirm_bind_ofHandle ha _, confirm_bind_ofHandle ha _⟩

/-- An older handle, without a mark in front of the object path. -/
def etnHandle : String := "grpcs://h:2135/?database=/ru/b1g/etn/dir/table"

/-- The address that the older handle names. -/
def etnAddress : Address := ⟨"h:2135", true, "/ru/b1g/etn", "dir/table"⟩

theorem ofHandle_etnHandle : ofHandle etnHandle = .ok etnAddress := rfl

/-- A planner that finds a topic at the address of the older handle and no table. -/
def etnPlanner : Planner Id :=
  { observer := Store.observer { topics := [(etnAddress.fullPath, { path := "dir/table" })] } }

theorem handle_roundTrip_etn :
    ofHandle etnAddress.handle = .ok etnAddress ∧
    (⟨"h:2135", true, "/ru/b1g/etn", "dir/table"⟩ : Address) = etnAddress ∧
    (ofHandle etnAddress.handle).map handle = .ok etnAddress.handle ∧
    (do ofHandle (← etnPlanner.confirmTable etnAddress) : ExceptT Error Id Address) =
      throw (.notCreated "/ru/b1g/etn/dir/table") ∧
    (do ofHandle (← etnPlanner.confirmTopic etnAddress) : ExceptT Error Id Address) =
      pure etnAddress := by
  have hbuilt : etnAddress.Built := .inr ⟨etnHandle, ofHandle_etnHandle⟩
  refine ⟨handle_roundTrip.1 _ hbuilt, ?_, ?_, ?_⟩
  · have hmade : make "h:2135" true "/ru/b1g/etn" "dir/table" = .ok ⟨_, _, _, _⟩ := rfl
    exact handle_roundTrip.2.1 _ _ (.inl ⟨_, _, _, _, hmade⟩) hbuilt rfl
  · exact handle_roundTrip.2.2.1 etnHandle _ (by rw [ofHandle_etnHandle]; rfl)
  · exact handle_roundTrip.2.2.2 etnPlanner etnAddress hbuilt

end SchemaPlan.Address

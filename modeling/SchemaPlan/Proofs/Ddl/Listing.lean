import SchemaPlan.Proofs.Ddl.Entry
import SchemaPlan.Proofs.Ddl.Realization

/-!
# Clauses in lists

Every clause that the creation of a table lists is `Listable`, as long as the keys of attributes are
keys and the types of columns can stand in one entry; of a column, the type alone decides
(`isEntry_column_iff`).
-/

namespace SchemaPlan.Ddl

variable {d : Draft} {ds : List Draft}

/-! ## Putting entries together -/

/-- Entries in a row leave the brackets around them open, as the text between them does. -/
theorem within?_join {opened : List Bracket} {separator : String}
    (hsep : within? opened (pieces (plain separator)) = some opened)
    (h : ∀ d ∈ ds, IsEntry (pieces d)) :
    within? opened (pieces (join separator ds)) = some opened := by
  cases ds with
  | nil => rfl
  | cons d ds =>
    obtain ⟨hd, hds⟩ := List.forall_mem_cons.1 h
    rw [join_cons, pieces_append, within?_append_of_eq (hd.within? opened), pieces_flatMap]
    refine within?_flatMap fun e he => ?_
    rw [pieces_append, within?_append_of_eq hsep]
    exact (hds e he).within? opened

/-- A list of entries in round brackets is one entry. -/
theorem isEntry_bracketed (h : ∀ d ∈ ds, IsEntry (pieces d)) :
    IsEntry (pieces (bracketed ds)) := by
  rw [bracketed, pieces_append, pieces_append]
  exact isEntry_wrap (b := .round) (by decide) (within?_join (by decide) h) (by decide)

theorem isEntry_bracketBlock (h : ∀ d ∈ ds, IsEntry (pieces d)) :
    IsEntry (pieces (bracketBlock ds)) := by
  rw [bracketBlock, pieces_append, pieces_append]
  refine isEntry_wrap (b := .round) (by decide) (within?_join (by decide) fun e he => ?_)
    (by decide)
  obtain ⟨d, hd, rfl⟩ := List.mem_map.1 he
  rw [pieces_append]
  exact IsEntry.append (by decide) (h d hd)

theorem isEntry_withBlock (h : ∀ d ∈ ds, IsEntry (pieces d)) :
    IsEntry (pieces (withBlock ds)) := by
  cases ds with
  | nil => exact isEntry_nil
  | cons d ds =>
    rw [withBlock, List.isEmpty_cons, if_neg Bool.false_ne_true, pieces_append]
    exact IsEntry.append (by decide) (isEntry_bracketBlock h)

/-- A list in round brackets can stand in a list. -/
theorem listable_bracketed (h : ∀ d ∈ ds, IsEntry (pieces d)) : Listable (bracketed ds) where
  isEntry := isEntry_bracketed h
  starts := rfl
  ends := by
    rw [bracketed, pieces_append]
    exact endsSolid_append _ (by decide)

/-- What can stand inside round brackets is an entry between a word that opens one and a word that
closes it. -/
theorem isEntry_enclosed {before behind : String} {inside : Draft}
    (hbefore : within? [] (pieces (plain before)) = some [.round])
    (hinside : within? [.round] (pieces inside) = some [.round])
    (hbehind : within? [.round] (pieces (plain behind)) = some []) :
    IsEntry (pieces (plain before ++ inside ++ plain behind)) := by
  rw [pieces_append, pieces_append]
  exact isEntry_wrap hbefore hinside hbehind

/-! ## Names, texts and numbers -/

@[simp] theorem pieces_name (content : String) :
    pieces (Draft.name content) = [.region .name content.toList] :=
  rfl

@[simp] theorem pieces_text (content : String) :
    pieces (Draft.text content) = [.region .text content.toList] :=
  rfl

theorem isEntry_name (content : String) : IsEntry (pieces (Draft.name content)) :=
  rfl

theorem listable_name (content : String) : Listable (Draft.name content) :=
  ⟨rfl, rfl, rfl⟩

theorem listable_text (content : String) : Listable (Draft.text content) :=
  ⟨rfl, rfl, rfl⟩

/-- Names in a row stand in the brackets around them. -/
theorem within?_names (contents : List String) :
    within? [.round] (pieces (Draft.names contents)) = some [.round] := by
  refine within?_join (by decide) fun d hd => ?_
  obtain ⟨content, -, rfl⟩ := List.mem_map.1 hd
  exact isEntry_name content

/-- A word of letters, digits, underscores and dashes has no divider and no blank. -/
theorem listable_word {text : String} (hne : text.toList ≠ [])
    (h : ∀ c ∈ text.toList, c.isAlphanum = true ∨ c = '_' ∨ c = '-') :
    Listable (plain text) := by
  have hdivider : ∀ c ∈ text.toList, c ∉ dividers := by
    intro c hc
    rcases h c hc with hc | rfl | rfl
    · exact not_mem_dividers rfl hc
    · decide
    · decide
  have hsolid : ∀ c ∈ text.toList, Text.isBlank c = false := by
    intro c hc
    rcases h c hc with hc | rfl | rfl
    · exact Text.isBlank_of_isAlphanum hc
    · decide
    · decide
  refine ⟨?_, ?_, ?_⟩
  · rw [pieces_plain]
    exact isEntry_chars hdivider
  · have hhead := List.head?_eq_some_head hne
    simpa [startsSolid, hhead, Piece.isBlank] using hsolid _ (List.mem_of_mem_head? hhead)
  · have hlast := List.getLast?_eq_some_getLast hne
    simpa [endsSolid, hlast, Piece.isBlank] using hsolid _ (List.mem_of_getLast? hlast)

theorem isAlphanum_of_mem_digits {c : Char} {n : Nat} (h : c ∈ Decimal.digits n) :
    c.isAlphanum = true := by
  rw [Char.isAlphanum, Decimal.isDigit_of_mem_digits h, Bool.or_true]

theorem listable_digits (n : Nat) : Listable (plain (.ofList (Decimal.digits n))) := by
  refine listable_word ?_ fun c hc => ?_
  · rw [String.toList_ofList]
    exact Decimal.digits_ne_nil n
  · rw [String.toList_ofList] at hc
    exact .inl (isAlphanum_of_mem_digits hc)

/-- A number with its sign can stand in a list. -/
theorem listable_ofInt (i : Int) : Listable (plain (Decimal.ofInt i)) := by
  cases i with
  | ofNat n => exact listable_digits n
  | negSucc n =>
    rw [Decimal.ofInt]
    refine listable_word ?_ fun c hc => ?_
    · rw [String.toList_ofList]
      exact List.cons_ne_nil _ _
    · rw [String.toList_ofList] at hc
      rcases List.mem_cons.1 hc with rfl | hc
      · exact .inr (.inr rfl)
      · exact .inl (isAlphanum_of_mem_digits hc)

theorem listable_number (n : UInt64) : Listable (number n) :=
  listable_digits n.toNat

/-! ## Columns, indexes and families -/

/-- What follows the type in the definition of a column. -/
def afterType (family : Option String) (notNull : Bool) : Draft :=
  (family.toList.map fun f => plain " FAMILY " ++ Draft.name f).flatten
    ++ (if notNull then plain " NOT NULL" else [])

/-- The pieces of a column are those of its name, of its type and of what follows the type. -/
theorem pieces_column (c : Column) : pieces (Draft.column c) =
    pieces (Draft.name c.name ++ plain " ")
      ++ (Text.dropEnds Text.isBlank c.type.toList).map .outside
      ++ pieces (afterType c.family c.notNull) := by
  simp [Draft.column, afterType]

theorem isEntry_afterType (family : Option String) (notNull : Bool) :
    IsEntry (pieces (afterType family notNull)) := by
  cases family <;> cases notNull <;> rfl

theorem endsSolid_afterType {family : Option String} {notNull : Bool}
    (h : pieces (afterType family notNull) ≠ []) :
    endsSolid (pieces (afterType family notNull)) = true := by
  cases family with
  | none =>
    cases notNull with
    | true => rfl
    | false => exact absurd rfl h
  | some f => cases notNull <;> rfl

/-- A column is one entry exactly if its type can stand in one. -/
theorem isEntry_column_iff {c : Column} : IsEntry (pieces (Draft.column c)) ↔ c.TypeIsEntry := by
  have hname : IsEntry (pieces (Draft.name c.name ++ plain " ")) :=
    (isEntry_name c.name).append (by decide)
  rw [pieces_column, isEntry_append_append_iff hname (isEntry_afterType _ _)]
  rfl

/-- A column with a type that is not blank does not end with a blank. -/
theorem endsSolid_column {c : Column}
    (htype : Text.dropEnds Text.isBlank c.type.toList ≠ []) :
    endsSolid (pieces (Draft.column c)) = true := by
  rw [pieces_column]
  refine endsSolid_append_of_imp (endsSolid_append _ ?_) endsSolid_afterType
  have hlast := List.getLast?_eq_some_getLast htype
  rw [endsSolid, List.getLast?_map, hlast]
  simpa [Piece.isBlank] using Text.getLast?_dropEnds hlast

/-- What an index covers, in the definition of the index. -/
def afterKey (cover : List String) : Draft :=
  if cover.isEmpty then [] else plain " COVER (" ++ Draft.names cover ++ plain ")"

theorem isEntry_afterKey (cover : List String) : IsEntry (pieces (afterKey cover)) := by
  unfold afterKey
  split
  · exact isEntry_nil
  · exact isEntry_enclosed (by decide) (within?_names cover) (by decide)

theorem endsSolid_afterKey {cover : List String} (h : pieces (afterKey cover) ≠ []) :
    endsSolid (pieces (afterKey cover)) = true := by
  cases cover with
  | nil => exact absurd rfl h
  | cons column cover =>
    rw [afterKey, List.isEmpty_cons, if_neg Bool.false_ne_true, pieces_append]
    exact endsSolid_append _ (by decide)

/-- A column can stand in a list if its type is one entry and not blank. -/
theorem listable_column {c : Column} (hentry : c.TypeIsEntry)
    (htype : Text.dropEnds Text.isBlank c.type.toList ≠ []) : Listable (Draft.column c) :=
  ⟨isEntry_column_iff.2 hentry, rfl, endsSolid_column htype⟩

/-- An index can stand in a list, whatever its names are. -/
theorem listable_index (i : Index) : Listable (Draft.index i) := by
  have hkind : within? [] (pieces (plain (" GLOBAL " ++ kindKeyword i.kind ++ " ON ("))) =
      some [.round] := by
    cases i.kind <;> decide
  have hkey : IsEntry (pieces (plain "INDEX " ++ Draft.name i.name
      ++ plain (" GLOBAL " ++ kindKeyword i.kind ++ " ON (") ++ Draft.names i.columns
      ++ plain ")")) := by
    have hname : IsEntry (pieces (plain "INDEX " ++ Draft.name i.name)) :=
      IsEntry.append (by decide) (isEntry_name i.name)
    rw [pieces_append, pieces_append]
    refine isEntry_wrap (b := .round) ?_ (within?_names i.columns) (by decide)
    rw [pieces_append, within?_append_of_eq hname, hkind]
  refine ⟨?_, ?_, ?_⟩
  · rw [Draft.index, pieces_append]
    exact hkey.append (isEntry_afterKey i.cover)
  · exact startsSolid_append (by decide) _
  · rw [Draft.index, pieces_append, pieces_append]
    exact endsSolid_append_of_imp (endsSolid_append _ (by decide)) endsSolid_afterKey

theorem listable_key (columns : List String) :
    Listable (plain "PRIMARY KEY (" ++ Draft.names columns ++ plain ")") where
  isEntry := isEntry_enclosed (by decide) (within?_names columns) (by decide)
  starts := startsSolid_append (by decide) _
  ends := by
    rw [pieces_append]
    exact endsSolid_append _ (by decide)

theorem listable_family (f : Family) : Listable (Draft.family f) :=
  ⟨rfl, rfl, rfl⟩

/-! ## Settings -/

/-- A setting can stand in a list if its key and its value can. -/
theorem listable_setting {key : String} {value : Draft} (hkey : Listable (plain key))
    (hvalue : Listable value) : Listable (setting key value) := by
  have hplain : pieces (plain (key ++ " = ") ++ value) =
      pieces (plain key) ++ pieces (plain " = ") ++ pieces value := by
    simp
  refine ⟨?_, ?_, ?_⟩
  · rw [setting, hplain]
    exact (hkey.isEntry.append (by decide)).append hvalue.isEntry
  · rw [setting, hplain]
    exact startsSolid_append (startsSolid_append hkey.starts _) _
  · rw [setting, hplain]
    exact endsSolid_append _ hvalue.ends

theorem listable_ttl (t : Ttl) : Listable (Draft.ttl t) :=
  ⟨rfl, rfl, rfl⟩

theorem listable_toggle (enabled : Bool) : Listable (toggle enabled) := by
  cases enabled with
  | true => exact ⟨by decide, by decide, by decide⟩
  | false => exact ⟨by decide, by decide, by decide⟩

/-- A value as it is written, if it can be written. -/
theorem isEntry_literal (c : Column) (content : String) :
    IsEntry (pieces (Draft.literal c content)) := by
  unfold Draft.literal
  split
  · split
    · exact (listable_ofInt _).isEntry
    · exact isEntry_nil
  · split
    · rename_i b _
      cases b <;> decide
    · exact isEntry_nil
  · exact (listable_text content).isEntry
  · exact isEntry_nil

/-- Split points can stand in a list, whatever their values are. -/
theorem listable_splitPoints (key : List Column) (points : List (List String)) :
    Listable (setting "PARTITION_AT_KEYS" (Draft.splitPoints key points)) := by
  refine listable_setting ⟨rfl, rfl, rfl⟩ (listable_bracketed fun d hd => ?_)
  obtain ⟨point, -, rfl⟩ := List.mem_map.1 hd
  refine isEntry_bracketed fun d hd => ?_
  obtain ⟨e, -, rfl⟩ := List.mem_map.1 hd
  exact isEntry_literal e.1 e.2

/-- The entry of a setting that may be absent. -/
theorem listable_optional {α : Type} {key : String} {value : Option α} {f : α → Draft}
    (hd : d ∈ (value.map fun a => setting key (f a)).toList) (hkey : Listable (plain key))
    (hf : ∀ a, Listable (f a)) : Listable d := by
  obtain ⟨a, -, rfl⟩ := Option.map_eq_some_iff.1 (Option.mem_toList.1 hd)
  exact listable_setting hkey (hf a)

theorem listable_partitioning (key : List Column) (p : Partitioning) :
    ∀ d ∈ Draft.partitioning key p, Listable d := by
  intro d hd
  simp only [Draft.partitioning, partitioningFlags, List.mem_append] at hd
  rcases hd with (((((hd | hd) | hd) | hd) | hd) | hd) | hd
  · exact listable_optional hd ⟨rfl, rfl, rfl⟩ listable_toggle
  · exact listable_optional hd ⟨rfl, rfl, rfl⟩ listable_toggle
  · exact listable_optional hd ⟨rfl, rfl, rfl⟩ listable_number
  · exact listable_optional hd ⟨rfl, rfl, rfl⟩ listable_number
  · exact listable_optional hd ⟨rfl, rfl, rfl⟩ listable_number
  · exact listable_optional hd ⟨rfl, rfl, rfl⟩ listable_number
  · split at hd
    · exact absurd hd List.not_mem_nil
    · rw [List.mem_singleton.1 hd]
      exact listable_splitPoints key p.splitPoints

/-- Every setting of a table can stand in a list. -/
theorem listable_settings (key : List Column) (s : TableSettings) :
    ∀ d ∈ Draft.settings key s, Listable d := by
  intro d hd
  simp only [Draft.settings, List.mem_append] at hd
  rcases hd with (hd | hd) | hd
  · obtain ⟨ttl, -, rfl⟩ := List.mem_map.1 hd
    exact listable_ttl ttl
  · exact listable_partitioning key _ d hd
  · obtain ⟨replicas, -, rfl⟩ := List.mem_map.1 hd
    exact listable_setting ⟨rfl, rfl, rfl⟩ (listable_text replicas)

/-- The key of an attribute is a word. -/
theorem listable_attribute {key : String} (h : isAttributeKey key = true) (value : String) :
    Listable (setting key (Draft.text value)) := by
  rw [isAttributeKey, Bool.and_eq_true, List.all_eq_true] at h
  refine listable_setting (listable_word (fun hnil => ?_) fun c hc => ?_) (listable_text value)
  · simp [String.toList_eq_nil_iff.1 hnil] at h
  · have hchar : c.isAlphanum = true ∨ c = '_' := by simpa using h.2 c hc
    exact hchar.imp_right .inl

end SchemaPlan.Ddl

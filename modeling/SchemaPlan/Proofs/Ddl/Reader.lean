import SchemaPlan.Ddl.Created
import SchemaPlan.Proofs.Ddl.Listing

/-!
# Clauses read back

Each reader of a clause undoes the writing of the clause. A reader takes words from the front of
pieces, so each lemma brings the pieces of its clause into the form that the reader takes apart:
words followed by what is after them.
-/

namespace SchemaPlan.Ddl

/-! ## Words and contents -/

/-- What stands before a word at the end is found. -/
theorem beforeWord?_append (word : String) (ps : List Piece) :
    beforeWord? word (ps ++ pieces (plain word)) = some ps := by
  rw [beforeWord?, pieces_plain, List.isSuffixOf?_eq_some_iff_append_eq]

/-- A word does not end in a region. -/
theorem beforeWord?_region {word : String} (hword : word.toList ≠ []) (ps : List Piece)
    (quote : Quote) (content : List Char) :
    beforeWord? word (ps ++ [.region quote content]) = none := by
  rw [Option.eq_none_iff_forall_ne_some]
  intro before hbefore
  rw [beforeWord?, List.isSuffixOf?_eq_some_iff_append_eq] at hbefore
  have hlast := congrArg List.getLast? hbefore
  rw [List.getLast?_append, List.getLast?_map, List.getLast?_eq_some_getLast hword,
    List.getLast?_concat] at hlast
  simp at hlast

/-- Words at the end of a text are found among its characters. -/
theorem beforeWord?_map (word : String) (text : List Char) :
    beforeWord? word (text.map .outside) =
      (word.toList.isSuffixOf? text).map (·.map .outside) := by
  have hinjective : Function.Injective Piece.outside := fun _ _ h => Piece.outside.inj h
  refine Option.ext fun before => ?_
  rw [beforeWord?, List.isSuffixOf?_eq_some_iff_append_eq, Option.map_eq_some_iff]
  simp only [List.isSuffixOf?_eq_some_iff_append_eq]
  constructor
  · intro h
    obtain ⟨front, back, rfl, rfl, hback⟩ := List.map_eq_append_iff.1 h.symm
    exact ⟨front, congrArg (front ++ ·) (hinjective.list_map hback).symm, rfl⟩
  · rintro ⟨front, rfl, rfl⟩
    rw [List.map_append]

/-- Characters outside regions are the text that they spell. -/
theorem plainText?_map (text : List Char) :
    plainText? (text.map .outside) = some (.ofList text) := by
  have hchars : (text.map Piece.outside).mapM Piece.char? = some (text.map id) :=
    mapM_map_eq_some fun _ _ => rfl
  rw [plainText?, hchars, List.map_id, Option.map_some]

@[simp] theorem plainText?_plain (text : String) :
    plainText? (pieces (plain text)) = some text := by
  rw [pieces_plain, plainText?_map, String.ofList_toList]

theorem quoted?_name (content : String) :
    quoted? .name (pieces (Draft.name content)) = some content := by
  rw [quoted?, pieces_name, takeQuoted?_region, String.ofList_toList]

theorem quoted?_text (content : String) :
    quoted? .text (pieces (Draft.text content)) = some content := by
  rw [quoted?, pieces_text, takeQuoted?_region, String.ofList_toList]

/-! ## Lists of names -/

/-- A list in round brackets is split into its entries. -/
theorem grouped?_bracketed {ds : List Draft} (hne : ds ≠ []) (h : ∀ d ∈ ds, Listable d) :
    grouped? (pieces (bracketed ds)) = some (ds.map pieces) := by
  have hgroup := group?_bracketed hne h []
  rw [List.append_nil] at hgroup
  rw [grouped?, hgroup]

/-- Names in round brackets are split into the names and what follows. -/
theorem group?_names {contents : List String} (hne : contents ≠ []) (rest : List Piece) :
    group? (pieces (bracketed (contents.map Draft.name)) ++ rest) =
      some (contents.map fun content => pieces (Draft.name content), rest) := by
  rw [group?_bracketed (by simpa using hne) (fun d hd => ?_), List.map_map]
  · rfl
  · obtain ⟨content, -, rfl⟩ := List.mem_map.1 hd
    exact listable_name content

theorem mapM_quoted?_names (contents : List String) :
    (contents.map fun content => pieces (Draft.name content)).mapM (quoted? .name) =
      some contents := by
  rw [mapM_map_eq_some (r := id) fun content _ => quoted?_name content, List.map_id]

/-- Names in round brackets are read back. -/
theorem readNames?_names {contents : List String} (hne : contents ≠ []) :
    readNames? (pieces (bracketed (contents.map Draft.name))) = some contents := by
  have hgroup := group?_names hne []
  rw [List.append_nil] at hgroup
  rw [readNames?, grouped?, hgroup]
  exact mapM_quoted?_names contents

/-! ## Columns -/

/-- A type that stands alone is read as such, without a family. -/
theorem readType?_map (type : List Char) :
    readType? (type.map .outside) = some (.ofList type, none) := by
  unfold readType?
  split
  · rename_i family hlast
    rw [List.getLast?_map] at hlast
    simp at hlast
  · rw [plainText?_map, Option.map_some]

theorem readType?_family (type : List Char) (family : String) :
    readType? (type.map .outside ++ (pieces (plain " FAMILY ") ++ [.region .name family.toList])) =
      some (.ofList type, some family) := by
  rw [← List.append_assoc]
  simp only [readType?, List.getLast?_concat, List.dropLast_concat, beforeWord?_append,
    plainText?_map, Option.bind_eq_bind, Option.bind_some, Option.pure_def, String.ofList_toList]

/-- A column is read back as its definition creates it. -/
theorem readColumn?_column (c : Column) :
    readColumn? (pieces (Draft.column c)) = some c.created := by
  obtain ⟨name, type, family, notNull⟩ := c
  have hdraft : pieces (Draft.column ⟨name, type, family, notNull⟩) =
      .region .name name.toList :: (pieces (plain " ")
        ++ ((Text.dropEnds Text.isBlank type.toList).map .outside
          ++ pieces (afterType family notNull))) := by
    rw [pieces_column]
    simp
  rw [hdraft, readColumn?, takeQuoted?_region]
  simp only [Option.bind_eq_bind, Option.bind_some, afterWord?_append, Option.pure_def,
    String.ofList_toList, Column.created]
  cases family with
  | none =>
    cases notNull with
    | false =>
      have hafter : pieces (afterType none false) = [] := rfl
      rw [hafter, List.append_nil, beforeWord?_map]
      cases " NOT NULL".toList.isSuffixOf? (Text.dropEnds Text.isBlank type.toList) with
      | none =>
        rw [Option.map_none, Option.getD_none, readType?_map]
        rfl
      | some type =>
        rw [Option.map_some, Option.getD_some, readType?_map]
        rfl
    | true =>
      have hafter : pieces (afterType none true) = pieces (plain " NOT NULL") := rfl
      rw [hafter, beforeWord?_append, Option.getD_some, readType?_map]
      rfl
  | some f =>
    cases notNull with
    | false =>
      have hafter : pieces (afterType (some f) false) =
          pieces (plain " FAMILY ") ++ [.region .name f.toList] := by
        simp [afterType]
      have hword : " NOT NULL".toList ≠ [] := by decide
      rw [hafter, ← List.append_assoc, beforeWord?_region hword, Option.getD_none,
        List.append_assoc, readType?_family]
      rfl
    | true =>
      have hafter : pieces (afterType (some f) true) =
          pieces (plain " FAMILY ") ++ [.region .name f.toList] ++ pieces (plain " NOT NULL") := by
        simp [afterType]
      rw [hafter, ← List.append_assoc, beforeWord?_append, Option.getD_some, readType?_family]
      rfl

/-! ## Indexes, keys and families -/

/-- The keywords of a kind of index are read as this kind. -/
theorem takeKind?_kindKeyword (kind : IndexKind) (rest : List Piece) :
    takeKind? (pieces (plain (kindKeyword kind)) ++ rest) = some (kind, rest) := by
  cases kind with
  | sync => rfl
  | async => rfl

theorem pieces_names (contents : List String) :
    pieces (bracketed (contents.map Draft.name)) =
      .outside '(' :: pieces (Draft.names contents) ++ [.outside ')'] := by
  simp [bracketed, Draft.names]

/-- The columns that an index covers are read back, also where it covers none. -/
theorem readCover?_afterKey (cover : List String) :
    readCover? (pieces (afterKey cover)) = some cover := by
  cases cover with
  | nil => rfl
  | cons column cover =>
    have hdraft : pieces (afterKey (column :: cover)) = pieces (plain " COVER ")
        ++ pieces (bracketed ((column :: cover).map Draft.name)) := by
      rw [pieces_names]
      simp [afterKey]
    rw [hdraft, readCover?, if_neg (by simp), afterWord?_append]
    exact readNames?_names (List.cons_ne_nil column cover)

/-- An index on some column is read back. -/
theorem readIndex?_index {i : Index} (h : i.columns ≠ []) :
    readIndex? (pieces (Draft.index i)) = some i := by
  have hdraft : pieces (Draft.index i) = pieces (plain "INDEX ") ++ (.region .name i.name.toList ::
      (pieces (plain " GLOBAL ") ++ (pieces (plain (kindKeyword i.kind)) ++ (pieces (plain " ON ")
        ++ (pieces (bracketed (i.columns.map Draft.name)) ++ pieces (afterKey i.cover)))))) := by
    rw [pieces_names]
    simp [Draft.index, afterKey]
  rw [hdraft, readIndex?, afterWord?_append]
  simp only [Option.bind_eq_bind, Option.bind_some, takeQuoted?_region, afterWord?_append,
    takeKind?_kindKeyword, group?_names h, mapM_quoted?_names, readCover?_afterKey,
    Option.pure_def, String.ofList_toList]

theorem readKey?_key {columns : List String} (h : columns ≠ []) :
    readKey? (pieces (plain "PRIMARY KEY (" ++ Draft.names columns ++ plain ")")) =
      some columns := by
  have hdraft : pieces (plain "PRIMARY KEY (" ++ Draft.names columns ++ plain ")") =
      pieces (plain "PRIMARY KEY ") ++ pieces (bracketed (columns.map Draft.name)) := by
    rw [pieces_names]
    simp
  rw [hdraft, readKey?, afterWord?_append]
  exact readNames?_names h

theorem readFamily?_family (f : Family) : readFamily? (pieces (Draft.family f)) = some f := by
  have hdraft : pieces (Draft.family f) =
      pieces (plain "FAMILY ") ++ (.region .name f.name.toList ::
        (pieces (plain "(DATA = ") ++ (.region .text f.media.toList ::
          (pieces (plain ", COMPRESSION = ") ++ [.region .text f.compression.toList,
            .outside ')'])))) := by
    simp [Draft.family]
  rw [hdraft, readFamily?, afterWord?_append]
  simp only [Option.bind_eq_bind, Option.bind_some, takeQuoted?_region, afterWord?_append,
    String.ofList_toList, if_true]

/-! ## Entries of the body -/

/-- A column is told from the other parts of a creation. -/
theorem readPart?_column (c : Column) :
    readPart? (pieces (Draft.column c)) = some (.column c.created) := by
  rw [readPart?, readColumn?_column]
  rfl

theorem readPart?_index {i : Index} (h : i.columns ≠ []) :
    readPart? (pieces (Draft.index i)) = some (.index i) := by
  have hcolumn : readColumn? (pieces (Draft.index i)) = none := rfl
  rw [readPart?, hcolumn, readIndex?_index h]
  rfl

theorem readPart?_key {columns : List String} (h : columns ≠ []) :
    readPart? (pieces (plain "PRIMARY KEY (" ++ Draft.names columns ++ plain ")")) =
      some (.primaryKey columns) := by
  have hcolumn : readColumn? (pieces (plain "PRIMARY KEY (" ++ Draft.names columns ++ plain ")")) =
      none := rfl
  have hindex : readIndex? (pieces (plain "PRIMARY KEY (" ++ Draft.names columns ++ plain ")")) =
      none := rfl
  rw [readPart?, hcolumn, hindex, readKey?_key h]
  rfl

theorem readPart?_family (f : Family) : readPart? (pieces (Draft.family f)) = some (.family f) := by
  have hcolumn : readColumn? (pieces (Draft.family f)) = none := rfl
  have hindex : readIndex? (pieces (Draft.family f)) = none := rfl
  have hkey : readKey? (pieces (Draft.family f)) = none := rfl
  rw [readPart?, hcolumn, hindex, hkey, readFamily?_family]
  rfl

/-- What the body of the creation of a table defines. -/
def parts (t : Table) : List Part :=
  t.columns.map (fun c => .column c.created) ++ t.indexes.map .index ++ [.primaryKey t.primaryKey]
    ++ t.families.map .family

/-- Reading two lists one after the other reads what they are read as. -/
theorem mapM_append_eq_some {α β : Type} {f : α → Option β} {l k : List α} {ls ks : List β}
    (hl : l.mapM f = some ls) (hk : k.mapM f = some ks) : (l ++ k).mapM f = some (ls ++ ks) := by
  rw [List.mapM_append, hl, hk]
  rfl

/-- The entries of a creation are read as the parts of the table. -/
theorem mapM_readPart? {t : Table} (hkey : t.primaryKey ≠ [])
    (hindexes : ∀ i ∈ t.indexes, i.columns ≠ []) :
    ((Draft.tableEntries t).map pieces).mapM readPart? = some (parts t) := by
  simp only [Draft.tableEntries, List.map_append, List.map_map, parts, List.map_singleton]
  refine mapM_append_eq_some (mapM_append_eq_some (mapM_append_eq_some ?_ ?_) ?_) ?_
  · exact mapM_map_eq_some fun c _ => readPart?_column c
  · exact mapM_map_eq_some fun i hi => readPart?_index (hindexes i hi)
  · rw [List.mapM_cons, readPart?_key hkey]
    rfl
  · exact mapM_map_eq_some fun f _ => readPart?_family f

section

variable (t : Table)

theorem column?_parts : (parts t).filterMap Part.column? = t.columns.map Column.created := by
  simp [parts, List.filterMap_append, List.filterMap_map, Function.comp_def, Part.column?]

theorem index?_parts : (parts t).filterMap Part.index? = t.indexes := by
  simp [parts, List.filterMap_append, List.filterMap_map, Function.comp_def, Part.index?]

theorem primaryKey?_parts : (parts t).filterMap Part.primaryKey? = [t.primaryKey] := by
  simp [parts, List.filterMap_append, List.filterMap_map, Function.comp_def, Part.primaryKey?]

theorem family?_parts : (parts t).filterMap Part.family? = t.families := by
  simp [parts, List.filterMap_append, List.filterMap_cons, List.filterMap_map, Function.comp_def,
    Part.family?]

end

end SchemaPlan.Ddl

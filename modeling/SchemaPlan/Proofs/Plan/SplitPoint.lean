import SchemaPlan.Proofs.Ddl.Literal
import SchemaPlan.Proofs.Plan.TypeEntries

/-!
# Split points keep their meaning

The body of the statement that creates a table ends where `afterBody?` says, since each of its
entries is on one line (`not_mem_pieces_entries`). So the settings of the statement are those of
the table (`createdSettings?_statement`), and `splitPoints_keep_meaning` says what the split points
among them are.
-/

namespace SchemaPlan

namespace Ddl

/-! ## The body of a creation -/

section

variable {ps : List Piece} {ds : List Draft}

/-- A piece at which the body does not end belongs to it. -/
theorem afterBody?_cons {p : Piece} (h : afterWord? "\n)" (p :: ps) = none) :
    afterBody? (p :: ps) = afterBody? ps := by
  rw [afterBody?, List.tails, List.findSome?_cons, h]
  rfl

/-- Pieces on one line are passed over. -/
theorem afterBody?_append (h : .outside '\n' ∉ ps) (rest : List Piece) :
    afterBody? (ps ++ rest) = afterBody? rest := by
  induction ps with
  | nil => rfl
  | cons p ps ih =>
    obtain ⟨hp, hps⟩ := List.ne_and_not_mem_of_not_mem_cons h
    rw [List.cons_append, afterBody?_cons, ih hps]
    rw [afterWord?, Option.eq_none_iff_forall_ne_some]
    intro found hfound
    rw [List.isPrefixOf?_eq_some_iff_append_eq] at hfound
    exact hp (List.cons.inj hfound).1

/-- So is the start of a line that starts with a tab. -/
theorem afterBody?_tab (rest : List Piece) :
    afterBody? (.outside '\n' :: .outside '\t' :: rest) = afterBody? rest := by
  rw [afterBody?_cons rfl, afterBody?_cons rfl]

theorem afterBody?_close (rest : List Piece) :
    afterBody? (.outside '\n' :: .outside ')' :: rest) = some rest :=
  rfl

/-- The body goes on with each entry that stands on one line. -/
theorem afterBody?_lines (h : ∀ d ∈ ds, .outside '\n' ∉ pieces d) (rest : List Piece) :
    afterBody? ((ds.flatMap fun d => .outside ',' :: .outside '\n' :: .outside '\t' :: pieces d)
      ++ rest) = afterBody? rest := by
  induction ds with
  | nil => rfl
  | cons d ds ih =>
    obtain ⟨hd, hds⟩ := List.forall_mem_cons.1 h
    rw [List.flatMap_cons, List.append_assoc, List.cons_append, List.cons_append, List.cons_append,
      afterBody?_cons rfl, afterBody?_tab, afterBody?_append hd, ih hds]

/-- A body ends after its entries if each is on one line. -/
theorem afterBody?_bracketBlock (hne : ds ≠ []) (h : ∀ d ∈ ds, .outside '\n' ∉ pieces d)
    (rest : List Piece) : afterBody? (pieces (bracketBlock ds) ++ rest) = some rest := by
  obtain ⟨d, ds, rfl⟩ := List.exists_cons_of_ne_nil hne
  obtain ⟨hd, hds⟩ := List.forall_mem_cons.1 h
  have hpieces : pieces (bracketBlock (d :: ds)) ++ rest =
      .outside '(' :: .outside '\n' :: .outside '\t' :: (pieces d ++
        ((ds.flatMap fun e => .outside ',' :: .outside '\n' :: .outside '\t' :: pieces e)
          ++ .outside '\n' :: .outside ')' :: rest)) := by
    simp [bracketBlock, block, join_cons, List.flatMap_map]
  rw [hpieces, afterBody?_cons rfl, afterBody?_tab, afterBody?_append hd, afterBody?_lines hds,
    afterBody?_close]

end

/-! ## Entries on one line -/

/-- What stands in no part and not between parts stands nowhere. -/
theorem not_mem_pieces_join {separator : String} {ds : List Draft} {q : Piece}
    (hsep : q ∉ pieces (plain separator)) (h : ∀ d ∈ ds, q ∉ pieces d) :
    q ∉ pieces (join separator ds) := by
  cases ds with
  | nil => exact List.not_mem_nil
  | cons d ds =>
    obtain ⟨hd, hds⟩ := List.forall_mem_cons.1 h
    rw [join_cons, pieces_append, pieces_flatMap, List.mem_append, List.mem_flatMap]
    rintro (hmem | ⟨e, he, hmem⟩)
    · exact hd hmem
    · rw [pieces_append, List.mem_append] at hmem
      exact hmem.elim hsep (hds e he)

theorem not_mem_pieces_names (contents : List String) :
    .outside '\n' ∉ pieces (Draft.names contents) := by
  refine not_mem_pieces_join (by simp) fun d hd => ?_
  obtain ⟨content, -, rfl⟩ := List.mem_map.1 hd
  simp

/-- A column that can be written stands on one line. -/
theorem not_mem_pieces_column {c : Column} {p : Phrase} (h : columnDefinition c = .ok p) :
    .outside '\n' ∉ pieces (Draft.column c) := by
  simp only [columnDefinition, bind_eq_ok_iff] at h
  obtain ⟨-, -, type, htype, -⟩ := h
  have hchars : '\n' ∉ Text.dropEnds Text.isBlank c.type.toList := by
    simp only [columnType] at htype
    split at htype
    · rename_i hchars
      rw [Bool.and_eq_true, List.all_eq_true] at hchars
      exact fun hmem => absurd (hchars.2 _ hmem) (by decide)
    · cases htype
  have hafter : .outside '\n' ∉ pieces (afterType c.family c.notNull) := by
    cases c.family <;> cases c.notNull <;> simp [afterType]
  rw [pieces_column]
  simp [hchars, hafter]

theorem not_mem_pieces_index (i : Index) : .outside '\n' ∉ pieces (Draft.index i) := by
  have hkind : '\n' ∉ (kindKeyword i.kind).toList := by
    cases i.kind <;> decide
  have hcover : .outside '\n' ∉ pieces (afterKey i.cover) := by
    unfold afterKey
    split
    · exact List.not_mem_nil
    · simp [not_mem_pieces_names]
  have hdraft : Draft.index i = plain "INDEX " ++ Draft.name i.name
      ++ plain (" GLOBAL " ++ kindKeyword i.kind ++ " ON (") ++ Draft.names i.columns
      ++ plain ")" ++ afterKey i.cover := rfl
  rw [hdraft]
  simp [not_mem_pieces_names, hkind, hcover]

/-- Every entry of a creation stands on one line. -/
theorem not_mem_pieces_entries {t : Table} {columns : List Phrase}
    (h : t.columns.mapM columnDefinition = .ok columns) :
    ∀ d ∈ Draft.tableEntries t, .outside '\n' ∉ pieces d := by
  simp only [Draft.tableEntries, List.forall_mem_append, List.forall_mem_map,
    List.forall_mem_singleton]
  refine ⟨⟨⟨fun c hc => ?_, fun i _ => not_mem_pieces_index i⟩, ?_⟩, fun f _ => ?_⟩
  · obtain ⟨p, -, hp⟩ := exists_mem_of_mapM h hc
    exact not_mem_pieces_column hp
  · simp [not_mem_pieces_names]
  · simp [Draft.family]

/-! ## The settings of a creation -/

theorem mapM_columnDefinition_of_statement {t : Table} {s : String}
    (h : (Operation.createTable t).statement = .ok s) :
    ∃ columns, t.columns.mapM columnDefinition = .ok columns := by
  obtain ⟨p, hp, -⟩ := map_eq_ok_iff.1 h
  simp only [Operation.phrase, createTable, refuse_eq_ok_iff, bind_eq_ok_iff] at hp
  obtain ⟨-, -, columns, hcolumns, -⟩ := hp
  exact ⟨columns, hcolumns⟩

/-- The settings of a creation are read back from its statement. -/
theorem createdSettings?_statement {t : Table} {s : String}
    (h : (Operation.createTable t).statement = .ok s) :
    createdSettings? s = some (settingValues t) := by
  have hkeys := (writable_of_createTable h).attributes
  obtain ⟨columns, hcolumns⟩ := mapM_columnDefinition_of_statement h
  have hlines := not_mem_pieces_entries hcolumns
  have hname : .outside '\n' ∉ pieces (plain "CREATE TABLE " ++ Draft.name t.path) := by simp
  have hbody : afterBody? (pieces (Operation.createTable t).draft) =
      some (pieces (afterBody t)) := by
    have hsplit : pieces (Operation.createTable t).draft =
        pieces (plain "CREATE TABLE " ++ Draft.name t.path) ++
          (pieces (bracketBlock (Draft.tableEntries t)) ++ pieces (afterBody t)) := by
      rw [pieces_createTable]
      simp
    rw [hsplit, afterBody?_append hname, afterBody?_bracketBlock (tableEntries_ne_nil t) hlines]
  rw [createdSettings?, (regions?_statement h).1]
  simp only [Option.bind_eq_bind, Option.bind_some, hbody]
  exact readSettings?_withBlock (listable_withEntries hkeys) (mapM_readSetting? hkeys)

theorem lookup_optionalValue_ne {α : Type} {key other : String} (h : other ≠ key)
    (value : Option α) (f : α → Draft) : (optionalValue other value f).lookup key = none := by
  cases value with
  | none => rfl
  | some a =>
    rw [optionalValue, Option.map_some, Option.toList_some, List.lookup_cons,
      beq_eq_false_iff_ne.2 h.symm]
    rfl

/-- Split points are found under their key as they are written. -/
theorem lookup_splitPoints {t : Table} {p : Partitioning} (hp : t.partitioning = some p)
    (hne : p.splitPoints ≠ []) : (settingValues t).lookup "PARTITION_AT_KEYS" =
      some (pieces (Draft.splitPoints (t.primaryKey.filterMap t.column?) p.splitPoints)) := by
  have hpoints : ∀ f, (optionalValue "PARTITION_AT_KEYS"
      (if p.splitPoints.isEmpty then none else some p.splitPoints) f).lookup "PARTITION_AT_KEYS" =
        some (pieces (f p.splitPoints)) := fun f => by
    rw [if_neg (by simpa using hne), optionalValue, Option.map_some, Option.toList_some,
      List.lookup_cons_self]
  simp (disch := decide) only [settingValues, partitioningValues, List.lookup_append,
    lookup_optionalValue_ne, hp, Option.getD_some, hpoints, Option.none_or, Option.some_or]

/-! ## Tuples -/

/-- Split points that can be written are read as tuples of their literals. -/
theorem tuples?_splitPoints {key : List Column} {points : List (List String)} {p : Phrase}
    (hne : points ≠ []) (h : splitPoints key points = .ok p) :
    tuples? (pieces (Draft.splitPoints key points)) = some (points.map fun point =>
      (key.zip point).map fun e => pieces (Draft.literal e.1 e.2)) := by
  rw [tuples?, grouped?_splitPoints hne h]
  refine mapM_map_eq_some fun point hpoint => ?_
  obtain ⟨q, hq⟩ := splitPoint_of_splitPoints h point hpoint
  exact (grouped?_splitPoint hq).2

/-- The columns of a key are those of its names, in order. -/
theorem column?_of_keyColumns {t : Table} {key : List Column} (h : keyColumns t = .ok key) :
    List.Forall₂ (fun name c => t.column? name = some c) t.primaryKey key := by
  refine (mapM_eq_ok_iff.1 h).imp fun name c hc => ?_
  cases hfound : t.column? name with
  | none => rw [hfound] at hc; cases hc
  | some found => rw [hfound] at hc; cases hc; rfl

/-- Literals that can be written have their values at the columns of the key. -/
theorem hasValue_zip {t : Table} {names : List String} {key : List Column}
    (hkey : List.Forall₂ (fun name c => t.column? name = some c) names key) {point : List String}
    (h : ∀ e ∈ key.zip point, ∃ q, typedLiteral e.1 e.2 = .ok q) :
    List.Forall₂ (fun e value => ∃ c, t.column? e.1 = some c ∧ c.HasValue e.2 value)
      (names.zip point) ((key.zip point).map fun e => pieces (Draft.literal e.1 e.2)) := by
  induction hkey generalizing point with
  | nil => exact .nil
  | cons hc _ ih =>
    cases point with
    | nil => exact .nil
    | cons literal point =>
      obtain ⟨⟨q, hq⟩, hpoint⟩ := List.forall_mem_cons.1 h
      exact .cons ⟨_, hc, hasValue_of_typedLiteral hq⟩ (ih hpoint)

/-- A split point that can be written is a tuple of its values. -/
theorem hasTuple_of_splitPoint {t : Table} {key : List Column} (hkey : keyColumns t = .ok key)
    {point : List String} {p : Phrase} (h : splitPoint key point = .ok p) :
    t.HasTuple point ((key.zip point).map fun e => pieces (Draft.literal e.1 e.2)) := by
  obtain ⟨hpos, hle, hliterals⟩ := typedLiteral_of_splitPoint h
  have hcolumns := column?_of_keyColumns hkey
  refine ⟨hpos, hcolumns.length_eq ▸ hle, ?_, hasValue_zip hcolumns hliterals⟩
  rw [List.length_map, List.length_zip, Nat.min_eq_right hle]

/-- A table that can be created has split points that can be written. -/
theorem exists_splitPoints_of_statement {t : Table} {s : String}
    (h : (Operation.createTable t).statement = .ok s) {p : Partitioning}
    (hp : t.partitioning = some p) (hne : p.splitPoints ≠ []) :
    ∃ key q, keyColumns t = .ok key ∧ splitPoints key p.splitPoints = .ok q := by
  obtain ⟨phrase, hphrase, -⟩ := map_eq_ok_iff.1 h
  simp only [Operation.phrase, createTable, refuse_eq_ok_iff, bind_eq_ok_iff] at hphrase
  obtain ⟨-, -, -, -, -, -, -, -, -, -, -, -, key, hkey, -⟩ := hphrase
  obtain ⟨ps, hps⟩ := (writable_of_createTable h).splitPoints
  rw [← eq_of_keyColumns hkey, hp, Option.getD_some, splitPointsEntries,
    if_neg (by simpa using hne)] at hps
  obtain ⟨q, hq, -⟩ := bind_eq_ok_iff.1 hps
  exact ⟨key, q, hkey, hq⟩

end Ddl

open Ddl

/-- A creation with split points holds a tuple for each, in order. -/
theorem exists_tuples_of_statement {t : Table} {s : String}
    (h : (Operation.createTable t).statement = .ok s) {p : Partitioning}
    (hp : t.partitioning = some p) (hne : p.splitPoints ≠ []) :
    ∃ settings value tuples, createdSettings? s = some settings ∧
      settings.lookup "PARTITION_AT_KEYS" = some value ∧ tuples? value = some tuples ∧
      List.Forall₂ t.HasTuple p.splitPoints tuples := by
  obtain ⟨key, q, hkey, hq⟩ := exists_splitPoints_of_statement h hp hne
  have hvalue := lookup_splitPoints hp hne
  rw [← eq_of_keyColumns hkey] at hvalue
  refine ⟨_, _, _, createdSettings?_statement h, hvalue, tuples?_splitPoints hne hq, ?_⟩
  refine List.forall₂_map_right_iff.2 (List.forall₂_same.2 fun point hpoint => ?_)
  obtain ⟨r, hr⟩ := splitPoint_of_splitPoints hq point hpoint
  exact hasTuple_of_splitPoint hkey hr

/-- Split points keep their meaning. The statement that creates a table holds a tuple for each of
them, in order, with a value for each literal, of the type of the column at the same place in the
key. A literal of a type of integers is written exactly if it denotes an integer of the range of the
type, and then as the decimal text of this integer, which is written as it is. A literal of a type
that is none of integers, truth values or texts is refused, and the error names its column. -/
theorem splitPoints_keep_meaning :
    (∀ (t : Table) (s : String) (p : Partitioning), (Operation.createTable t).statement = .ok s →
      t.partitioning = some p → p.splitPoints ≠ [] →
      ∃ settings value tuples, createdSettings? s = some settings ∧
        settings.lookup "PARTITION_AT_KEYS" = some value ∧ tuples? value = some tuples ∧
        List.Forall₂ t.HasTuple p.splitPoints tuples) ∧
    (∀ (c : Column) (signed : Bool) (least greatest : Int),
      IsIntegerType c.baseType signed least greatest → ∀ (literal : String) (q : Phrase),
        (typedLiteral c literal = .ok q ↔
          ∃ i, Denotes signed literal i ∧ least ≤ i ∧ i ≤ greatest ∧ q = plain (toString i)) ∧
        (typedLiteral c literal = .ok q → typedLiteral c q.write = .ok q)) ∧
    ∀ c : Column, (∀ signed least greatest, ¬IsIntegerType c.baseType signed least greatest) →
      c.baseType ≠ "Bool" → c.baseType ∉ textTypes → ∀ literal,
        typedLiteral c literal = .error (.invalidLiteral c.name c.type literal) :=
  ⟨fun _ _ _ h hp hne => exists_tuples_of_statement h hp hne,
    fun _ _ _ _ h _ _ => ⟨typedLiteral_eq_ok_iff h, typedLiteral_write h⟩,
    fun _ hinteger hbool htext => typedLiteral_eq_error hinteger hbool htext⟩

/-- A column of small integers, some of which may be missing. -/
def shardColumn : Column :=
  { name := "shard", type := "Optional<Int8>" }

/-- A table that is split at the least integer and at another that is given with its sign. -/
def shardedTable : Table where
  path := "t"
  columns := [shardColumn, { name := "label", type := "Utf8" }, { name := "live", type := "Bool" }]
  primaryKey := ["shard", "label", "live"]
  partitioning := some { splitPoints := [[" -0128 ", "a\"b", "TRUE"], ["+7"]] }

/-- The statement that creates the table. -/
def shardedStatement : String :=
  "CREATE TABLE `t`(\n\t`shard` Optional<Int8>,\n\t`label` Utf8,\n\t`live` Bool,\n" ++
  "\tPRIMARY KEY (`shard`, `label`, `live`)\n)\nWITH (\n" ++
  "\tPARTITION_AT_KEYS = ((-128, \"a\\\"b\", true), (7))\n)\n"

theorem statement_shardedTable :
    (Operation.createTable shardedTable).statement = .ok shardedStatement := by
  decide +kernel

/-- Split points with signs, zeros in front, blanks and quotes, and a value of a type that can stand
in none. -/
theorem splitPoints_keep_meaning_sharded :
    (∃ settings value tuples, createdSettings? shardedStatement = some settings ∧
      settings.lookup "PARTITION_AT_KEYS" = some value ∧ tuples? value = some tuples ∧
      List.Forall₂ shardedTable.HasTuple [[" -0128 ", "a\"b", "TRUE"], ["+7"]] tuples) ∧
    typedLiteral shardColumn "-0128" = .ok (plain "-128") ∧
    typedLiteral shardColumn "-128" = .ok (plain "-128") ∧
    typedLiteral ⟨"ratio", "Double", none, false⟩ "1.0" =
      .error (.invalidLiteral "ratio" "Double" "1.0") := by
  obtain ⟨htuples, hinteger, hother⟩ := splitPoints_keep_meaning
  have htype : IsIntegerType shardColumn.baseType true (-128) 127 := by
    have hbase : shardColumn.baseType = "Int8" := by decide
    exact hbase ▸ .int8
  have hdenotes : Denotes true "-0128" (-128) :=
    ⟨[], "-0128".toList, [], rfl, by simp, .minus rfl ⟨List.cons_ne_nil _ _, fun c hc =>
      isDigit_iff.1 (List.all_eq_true.1 (by decide : "0128".toList.all Char.isDigit = true) c hc)⟩⟩
  obtain ⟨hwritten, hagain⟩ := hinteger shardColumn _ _ _ htype "-0128" (plain "-128")
  have hok := hwritten.2 ⟨-128, hdenotes, by decide, by decide, rfl⟩
  refine ⟨htuples _ _ _ statement_shardedTable rfl (List.cons_ne_nil _ _), hok, ?_, ?_⟩
  · exact write_plain "-128" ▸ hagain hok
  · have hbase : Column.baseType ⟨"ratio", "Double", none, false⟩ = "Double" := by decide
    refine hother ⟨"ratio", "Double", none, false⟩ ?_ ?_ ?_ "1.0"
    all_goals rw [hbase]
    · intro _ _ _ htype
      cases (lookup_of_isIntegerType htype).symm.trans (by decide : _ = none)
    · decide
    · decide

end SchemaPlan

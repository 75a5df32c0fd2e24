import SchemaPlan.Proofs.Ddl.Reader
import SchemaPlan.Proofs.Table.Attributes

/-!
# Settings read back

`settingValues` lists what the settings of a table are set to, by key, as it stands in the statement
that creates the table. A setting is found under its key among all others, also among attributes of
the same key, whose values are texts: no value of another kind is read from a text.
-/

namespace SchemaPlan.Ddl

/-! ## Values -/

theorem quoted?_map (quote : Quote) (text : List Char) :
    quoted? quote (text.map .outside) = none := by
  cases text with
  | nil => rfl
  | cons c text => rfl

/-- What the expiry of rows is set to. -/
def expiry (t : Ttl) : Draft :=
  Draft.interval t.interval ++ plain " ON " ++ Draft.name t.column

/-- A time to live is read back. -/
theorem readExpiry?_expiry (t : Ttl) : readExpiry? (pieces (expiry t)) = some t := by
  have hdraft : pieces (expiry t) =
      pieces (plain "Interval(") ++ (.region .text t.interval.toList ::
        (pieces (plain ") ON ") ++ pieces (Draft.name t.column))) := by
    simp [expiry, Draft.interval]
  rw [hdraft, readExpiry?, afterWord?_append]
  simp only [Option.bind_eq_bind, Option.bind_some, takeQuoted?_region, afterWord?_append,
    quoted?_name, Option.pure_def, String.ofList_toList]

theorem readToggle?_toggle (enabled : Bool) :
    readToggle? (pieces (toggle enabled)) = some enabled := by
  cases enabled with
  | true => rfl
  | false => rfl

theorem readNumber?_number (n : UInt64) : readNumber? (pieces (number n)) = some n := by
  have hlt : n.toNat < UInt64.size := n.toNat_lt_size
  simp only [readNumber?, number, plainText?_plain, Decimal.ofNat, String.toList_ofList,
    Decimal.value?_digits, Option.bind_eq_bind, Option.bind_some, dif_pos hlt,
    UInt64.ofNatLT_toNat]

/-! ## Split points -/

/-- A value without quotes is read as its text. -/
theorem readLiteral?_plain (text : String) : readLiteral? (pieces (plain text)) = some text := by
  have hquoted : quoted? .text (pieces (plain text)) = none := by
    rw [pieces_plain, quoted?_map]
  rw [readLiteral?, hquoted, plainText?_plain]
  rfl

/-- A value that can be written can be listed, and is read as it is written. -/
theorem literal_of_typedLiteral {c : Column} {content : String} {p : Phrase}
    (h : typedLiteral c content = .ok p) : Listable (Draft.literal c content) ∧
      readLiteral? (pieces (Draft.literal c content)) = some (c.writtenLiteral content) := by
  unfold typedLiteral at h
  unfold Draft.literal Column.writtenLiteral
  cases htype : literalTypes.lookup c.baseType with
  | none => rw [htype] at h; cases h
  | some type =>
    cases type with
    | integer range =>
      simp only [htype] at h ⊢
      cases hread : range.read? (Text.dropEnds Text.isBlank content.toList) with
      | none => rw [hread] at h; cases h
      | some i => exact ⟨listable_ofInt i, readLiteral?_plain _⟩
    | bool =>
      simp only [htype] at h ⊢
      cases hread : readBool? content.toList with
      | none => rw [hread] at h; cases h
      | some b =>
        refine ⟨?_, readLiteral?_plain _⟩
        cases b with
        | true => exact ⟨by decide, by decide, by decide⟩
        | false => exact ⟨by decide, by decide, by decide⟩
    | text =>
      refine ⟨⟨rfl, rfl, rfl⟩, ?_⟩
      rw [readLiteral?, quoted?_text]
      rfl

/-- What makes it possible to write a split point. -/
theorem typedLiteral_of_splitPoint {key : List Column} {point : List String} {p : Phrase}
    (h : splitPoint key point = .ok p) : 0 < point.length ∧ point.length ≤ key.length ∧
      ∀ e ∈ key.zip point, ∃ q, typedLiteral e.1 e.2 = .ok q := by
  unfold splitPoint at h
  split at h
  · cases h
  · rename_i hsize
    rw [Bool.or_eq_true, not_or, decide_eq_true_eq, List.isEmpty_iff, Nat.not_lt] at hsize
    simp only [bind_eq_ok_iff, pure_eq_ok_iff] at h
    obtain ⟨ps, hps, rfl⟩ := h
    refine ⟨List.length_pos_iff.2 hsize.1, hsize.2, fun e he => ?_⟩
    obtain ⟨q, -, hq⟩ := exists_mem_of_mapM hps he
    exact ⟨q, hq⟩

/-- A split point that can be written is a list of its literals. -/
theorem grouped?_splitPoint {key : List Column} {point : List String} {p : Phrase}
    (h : splitPoint key point = .ok p) :
    Listable (bracketed ((key.zip point).map fun e => Draft.literal e.1 e.2)) ∧
      grouped? (pieces (bracketed ((key.zip point).map fun e => Draft.literal e.1 e.2))) =
        some ((key.zip point).map fun e => pieces (Draft.literal e.1 e.2)) := by
  obtain ⟨hpos, hlength, hliterals⟩ := typedLiteral_of_splitPoint h
  have hlistable : ∀ d ∈ (key.zip point).map fun e => Draft.literal e.1 e.2, Listable d := by
    intro d hd
    obtain ⟨e, he, rfl⟩ := List.mem_map.1 hd
    obtain ⟨q, hq⟩ := hliterals e he
    exact (literal_of_typedLiteral hq).1
  have hne : (key.zip point).map (fun e => Draft.literal e.1 e.2) ≠ [] := by
    rw [← List.length_pos_iff, List.length_map, List.length_zip]
    omega
  refine ⟨listable_bracketed fun d hd => (hlistable d hd).isEntry, ?_⟩
  rw [grouped?_bracketed hne hlistable, List.map_map]
  rfl

/-- Split points can be written only one by one. -/
theorem splitPoint_of_splitPoints {key : List Column} {points : List (List String)} {p : Phrase}
    (h : splitPoints key points = .ok p) : ∀ point ∈ points, ∃ q, splitPoint key point = .ok q := by
  simp only [splitPoints, bind_eq_ok_iff, pure_eq_ok_iff] at h
  obtain ⟨ps, hps, rfl⟩ := h
  intro point hpoint
  obtain ⟨q, -, hq⟩ := exists_mem_of_mapM hps hpoint
  exact ⟨q, hq⟩

/-- Split points that can be written are a list of tuples. -/
theorem grouped?_splitPoints {key : List Column} {points : List (List String)} {p : Phrase}
    (hne : points ≠ []) (h : splitPoints key points = .ok p) :
    grouped? (pieces (Draft.splitPoints key points)) = some (points.map fun point =>
      pieces (bracketed ((key.zip point).map fun e => Draft.literal e.1 e.2))) := by
  have hlistable : ∀ d ∈ points.map fun point =>
      bracketed ((key.zip point).map fun e => Draft.literal e.1 e.2), Listable d := by
    intro d hd
    obtain ⟨point, hpoint, rfl⟩ := List.mem_map.1 hd
    obtain ⟨q, hq⟩ := splitPoint_of_splitPoints h point hpoint
    exact (grouped?_splitPoint hq).1
  rw [Draft.splitPoints, grouped?_bracketed (by simpa using hne) hlistable, List.map_map]
  rfl

/-- Split points are read back with their values as they are written. -/
theorem readSplitPoints?_splitPoints {key : List Column} {points : List (List String)} {p : Phrase}
    (hne : points ≠ []) (h : splitPoints key points = .ok p) :
    readSplitPoints? (pieces (Draft.splitPoints key points)) =
      some (points.map fun point => (key.zip point).map fun e => e.1.writtenLiteral e.2) := by
  rw [readSplitPoints?, grouped?_splitPoints hne h]
  refine mapM_map_eq_some fun point hpoint => ?_
  obtain ⟨q, hq⟩ := splitPoint_of_splitPoints h point hpoint
  rw [(grouped?_splitPoint hq).2]
  refine mapM_map_eq_some fun e he => ?_
  obtain ⟨r, hr⟩ := (typedLiteral_of_splitPoint hq).2.2 e he
  exact (literal_of_typedLiteral hr).2

/-! ## Keys and values -/

/-- The setting of a value that may be absent, by its key and as it stands in a statement. -/
def optionalValue {α : Type} (key : String) (value : Option α) (f : α → Draft) :
    List (String × List Piece) :=
  (value.map fun a => (key, pieces (f a))).toList

/-- What the settings of a partitioning are set to, for a table with the given key. -/
def partitioningValues (key : List Column) (p : Partitioning) : List (String × List Piece) :=
  optionalValue "AUTO_PARTITIONING_BY_LOAD" p.byLoad toggle
    ++ optionalValue "AUTO_PARTITIONING_BY_SIZE_ENABLED" p.bySize toggle
    ++ optionalValue "AUTO_PARTITIONING_BY_SIZE" p.sizeThreshold number
    ++ optionalValue "UNIFORM_PARTITIONS" p.uniformPartitions number
    ++ optionalValue "AUTO_PARTITIONING_MIN_PARTITIONS_COUNT" p.minPartitions number
    ++ optionalValue "AUTO_PARTITIONING_MAX_PARTITIONS_COUNT" p.maxPartitions number
    ++ optionalValue "PARTITION_AT_KEYS"
      (if p.splitPoints.isEmpty then none else some p.splitPoints) (Draft.splitPoints key)

/-- What the attributes of a table are set to. -/
def attributeValues (a : Attributes) : List (String × List Piece) :=
  a.entries.map fun e => (e.1, pieces (Draft.text e.2))

/-- What the settings and attributes of a table are set to. -/
def settingValues (t : Table) : List (String × List Piece) :=
  optionalValue "TTL" t.ttl expiry
    ++ partitioningValues (t.primaryKey.filterMap t.column?) (t.partitioning.getD {})
    ++ optionalValue replicasKey (t.replication.bind Replication.readReplicas) Draft.text
    ++ attributeValues t.attributes

/-- A setting is read as its key and its value. -/
theorem readSetting?_setting {key : String} (h : ' ' ∉ key.toList) (value : Draft) :
    readSetting? (pieces (setting key value)) = some (key, pieces value) := by
  have hdraft : pieces (setting key value) =
      key.toList.map .outside ++ (pieces (plain " = ") ++ pieces value) := by
    simp [setting]
  have hkey : ∀ p ∈ key.toList.map Piece.outside, decide (p ≠ .outside ' ') = true := by
    intro p hp
    obtain ⟨c, hc, rfl⟩ := List.mem_map.1 hp
    simpa using fun heq : c = ' ' => h (heq ▸ hc)
  have htake : (pieces (plain " = ") ++ pieces value).takeWhile (· ≠ .outside ' ') = [] := rfl
  have hdrop : (pieces (plain " = ") ++ pieces value).dropWhile (· ≠ .outside ' ') =
      pieces (plain " = ") ++ pieces value := rfl
  rw [hdraft, readSetting?, List.takeWhile_append_of_pos hkey, List.dropWhile_append_of_pos hkey,
    htake, hdrop, List.append_nil, plainText?_map, afterWord?_append, String.ofList_toList]
  rfl

/-- The setting of a value that may be absent is read if it is there. -/
theorem mapM_readSetting?_optional {α : Type} {key : String} (h : ' ' ∉ key.toList)
    (value : Option α) (f : α → Draft) :
    ((value.map fun a => setting key (f a)).toList.map pieces).mapM readSetting? =
      some (optionalValue key value f) := by
  cases value with
  | none => rfl
  | some a =>
    rw [Option.map_some, Option.toList_some, List.map_singleton, List.mapM_cons,
      readSetting?_setting h]
    rfl

theorem mapM_readSetting?_partitioning (key : List Column) (p : Partitioning) :
    ((Draft.partitioning key p).map pieces).mapM readSetting? =
      some (partitioningValues key p) := by
  have hpoints : (if p.splitPoints.isEmpty then []
      else [setting "PARTITION_AT_KEYS" (Draft.splitPoints key p.splitPoints)]) =
      ((if p.splitPoints.isEmpty then none else some p.splitPoints).map fun points =>
        setting "PARTITION_AT_KEYS" (Draft.splitPoints key points)).toList := by
    split <;> rfl
  simp only [Draft.partitioning, partitioningFlags, hpoints, List.map_append, partitioningValues]
  exact mapM_append_eq_some (mapM_append_eq_some (mapM_append_eq_some (mapM_append_eq_some
    (mapM_append_eq_some (mapM_append_eq_some
      (mapM_readSetting?_optional (by decide) _ _)
      (mapM_readSetting?_optional (by decide) _ _))
      (mapM_readSetting?_optional (by decide) _ _))
      (mapM_readSetting?_optional (by decide) _ _))
      (mapM_readSetting?_optional (by decide) _ _))
      (mapM_readSetting?_optional (by decide) _ _))
      (mapM_readSetting?_optional (by decide) _ _)

theorem mapM_readSetting?_attributes {a : Attributes}
    (hkeys : ∀ e ∈ a.entries, isAttributeKey e.1 = true) :
    ((Draft.attributes a).map pieces).mapM readSetting? = some (attributeValues a) := by
  rw [Draft.attributes, List.map_map]
  refine mapM_map_eq_some fun e he => readSetting?_setting (fun hblank => ?_) _
  have hkey := hkeys e he
  rw [isAttributeKey, Bool.and_eq_true, List.all_eq_true] at hkey
  exact absurd (hkey.2 ' ' hblank) (by decide)

/-- The settings and attributes of a table are read as what they are set to. -/
theorem mapM_readSetting? {t : Table}
    (hkeys : ∀ e ∈ t.attributes.entries, isAttributeKey e.1 = true) :
    ((Draft.withEntries t).map pieces).mapM readSetting? = some (settingValues t) := by
  have httl : t.settings.ttl.toList.map Draft.ttl =
      (t.ttl.map fun ttl => setting "TTL" (expiry ttl)).toList := by
    rw [Option.toList_map]
    rfl
  have hreplicas : ((t.settings.replication.bind Replication.readReplicas).toList.map
      fun replicas => setting "READ_REPLICAS_SETTINGS" (Draft.text replicas)) =
      ((t.replication.bind Replication.readReplicas).map fun replicas =>
        setting replicasKey (Draft.text replicas)).toList := by
    rw [Option.toList_map]
    rfl
  simp only [Draft.withEntries, Draft.settings, httl, hreplicas, List.map_append, settingValues]
  exact mapM_append_eq_some (mapM_append_eq_some (mapM_append_eq_some
    (mapM_readSetting?_optional (by decide) t.ttl _) (mapM_readSetting?_partitioning _ _))
    (mapM_readSetting?_optional (by decide) _ _)) (mapM_readSetting?_attributes hkeys)

/-- The settings at the end of a creation are read, also where there are none. -/
theorem readSettings?_withBlock {ds : List Draft} {values : List (String × List Piece)}
    (hlist : ∀ d ∈ ds, Listable d) (hread : (ds.map pieces).mapM readSetting? = some values) :
    readSettings? (pieces (withBlock ds ++ plain "\n")) = some values := by
  have hend : pieces (plain "\n") = [.outside '\n'] := rfl
  rw [pieces_append, hend, readSettings?]
  cases ds with
  | nil => exact hread
  | cons d ds =>
    have hdraft : pieces (withBlock (d :: ds)) =
        pieces (plain "\nWITH ") ++ pieces (bracketBlock (d :: ds)) := by
      simp [withBlock]
    have hgroup := group?_bracketBlock (List.cons_ne_nil d ds) hlist [.outside '\n']
    have hne : pieces (plain "\nWITH ")
        ++ (pieces (bracketBlock (d :: ds)) ++ [.outside '\n']) ≠ [.outside '\n'] := by
      simp
    rw [hdraft, List.append_assoc, if_neg hne, afterWord?_append]
    simp only [Option.bind_eq_bind, Option.bind_some, hgroup, if_true]
    exact hread

/-! ## Looking settings up -/

section

variable {α β : Type} {key : String} {read : List Piece → Option β}

/-- A setting is looked up in the first list before the second. -/
theorem setting?_append (l k : List (String × List Piece)) :
    setting? key read (l ++ k) = (setting? key read l).or (setting? key read k) :=
  List.findSome?_append

/-- A value that may be absent is found under its key, as what it is read as. -/
theorem setting?_optional_map {f : α → Draft} {g : α → β}
    (h : ∀ a, read (pieces (f a)) = some (g a)) (value : Option α) :
    setting? key read (optionalValue key value f) = value.map g := by
  cases value with
  | none => rfl
  | some a =>
    rw [optionalValue, Option.map_some, Option.toList_some, setting?, List.findSome?_singleton,
      if_pos rfl, h, Option.map_some]

/-- A value that may be absent is read back from under its key. -/
theorem setting?_optional_self {f : α → Draft} {read : List Piece → Option α}
    (h : ∀ a, read (pieces (f a)) = some a) (value : Option α) :
    setting? key read (optionalValue key value f) = value := by
  rw [setting?_optional_map h, Option.map_id']

theorem setting?_optional_ne {other : String} (h : other ≠ key) (value : Option α)
    (f : α → Draft) : setting? key read (optionalValue other value f) = none := by
  cases value with
  | none => rfl
  | some a =>
    rw [optionalValue, Option.map_some, Option.toList_some, setting?, List.findSome?_singleton,
      if_neg h]

/-- Values that are not read from texts are not read from attributes. -/
theorem setting?_attributes (h : ∀ content, read (pieces (Draft.text content)) = none)
    (a : Attributes) : setting? key read (attributeValues a) = none := by
  refine List.findSome?_eq_none_iff.2 fun e he => ?_
  obtain ⟨entry, -, rfl⟩ := List.mem_map.1 he
  rw [h entry.2, ite_self]

/-- A text is looked up among attributes by its key. -/
theorem setting?_text_attributes (a : Attributes) :
    setting? key (quoted? .text) (attributeValues a) = a.lookup key := by
  rw [attributeValues, Attributes.lookup]
  induction a.entries with
  | nil => rfl
  | cons e entries ih =>
    rw [List.map_cons, setting?, List.findSome?_cons, ← setting?, ih, quoted?_text]
    obtain ⟨other, v⟩ := e
    by_cases hkey : other = key
    · rw [if_pos hkey, hkey, List.lookup_cons_self]
    · rw [if_neg hkey, List.lookup_cons, beq_eq_false_iff_ne.2 (Ne.symm hkey)]

end

/-- The time to live of a table is read back from its settings, whatever its attributes are. -/
theorem readExpiry?_settingValues (t : Table) :
    setting? "TTL" readExpiry? (settingValues t) = t.ttl := by
  have hattributes := @setting?_attributes _ "TTL" readExpiry? (fun _ => rfl) t.attributes
  simp (disch := decide) only [settingValues, partitioningValues, setting?_append,
    setting?_optional_self readExpiry?_expiry, setting?_optional_ne, hattributes, Option.or_none]

/-- Split points are read as they are written, if they can be. -/
theorem setting?_splitPoints {key : List Column} {points : List (List String)} {ps : List Phrase}
    (h : splitPointsEntries key points = .ok ps) :
    (setting? "PARTITION_AT_KEYS" readSplitPoints? (optionalValue "PARTITION_AT_KEYS"
      (if points.isEmpty then none else some points) (Draft.splitPoints key))).getD [] =
      points.map fun point => (key.zip point).map fun e => e.1.writtenLiteral e.2 := by
  unfold splitPointsEntries at h
  cases points with
  | nil => rfl
  | cons point points =>
    simp only [List.isEmpty_cons, Bool.false_eq_true, if_false, bind_eq_ok_iff] at h ⊢
    obtain ⟨p, hp, -⟩ := h
    rw [optionalValue, Option.map_some, Option.toList_some, setting?, List.findSome?_singleton,
      if_pos rfl, readSplitPoints?_splitPoints (List.cons_ne_nil _ _) hp, Option.getD_some]

/-- The partitioning of a table is read back from its settings with its split points as they are
written. -/
theorem readPartitioning_settingValues {t : Table} {ps : List Phrase}
    (h : splitPointsEntries (t.primaryKey.filterMap t.column?)
      (t.partitioning.getD {}).splitPoints = .ok ps) :
    readPartitioning (settingValues t) =
      (t.partitioning.getD {}).created (t.primaryKey.filterMap t.column?) := by
  have htoggle : ∀ key, setting? key readToggle? (attributeValues t.attributes) = none :=
    fun key => setting?_attributes (fun _ => rfl) t.attributes
  have hnumber : ∀ key, setting? key readNumber? (attributeValues t.attributes) = none :=
    fun key => setting?_attributes (fun _ => rfl) t.attributes
  have hpoints : ∀ key, setting? key readSplitPoints? (attributeValues t.attributes) = none :=
    fun key => setting?_attributes (fun _ => rfl) t.attributes
  simp (disch := decide) only [readPartitioning, settingValues, partitioningValues,
    setting?_append, setting?_optional_self readToggle?_toggle,
    setting?_optional_self readNumber?_number, setting?_optional_ne, htoggle, hnumber, hpoints,
    Option.or_none, Option.none_or, setting?_splitPoints h]
  rfl

/-- The replicas are read back from the settings, or from the attribute of the same key where they
are not set. -/
theorem readReplicas_settingValues (t : Table) :
    setting? replicasKey (quoted? .text) (settingValues t) =
      (t.replication.bind Replication.readReplicas).or (t.attributes.lookup replicasKey) := by
  simp (disch := decide) only [settingValues, partitioningValues, setting?_append,
    setting?_optional_self quoted?_text, setting?_optional_ne, setting?_text_attributes,
    Option.none_or]

/-! ## Attributes among settings -/

/-- A setting that is not read as an attribute adds none. -/
theorem attribute?_optional {α : Type} {key : String} {f : α → Draft}
    (h : ∀ a, attribute? (key, pieces (f a)) = none) (value : Option α) :
    (optionalValue key value f).filterMap attribute? = [] := by
  cases value with
  | none => rfl
  | some a =>
    rw [optionalValue, Option.map_some, Option.toList_some, List.filterMap_cons, h a,
      List.filterMap_nil]

/-- Plain words are no attributes. -/
theorem attribute?_plain (key text : String) : attribute? (key, pieces (plain text)) = none := by
  rw [attribute?, pieces_plain, quoted?_map, Option.map_none, ite_self]

/-- The attributes that are read are those not under the key of the replicas. -/
theorem attribute?_attributes (a : Attributes) :
    (attributeValues a).filterMap attribute? = (a.without replicasKey).entries := by
  have hentries : (a.without replicasKey).entries = a.entries.filter fun e => e.1 ≠ replicasKey :=
    rfl
  rw [attributeValues, hentries, List.filterMap_map, ← List.filterMap_eq_filter]
  refine congrArg (List.filterMap · a.entries) (funext fun e => ?_)
  rw [Function.comp_apply, attribute?, quoted?_text]
  by_cases h : e.1 = replicasKey <;> simp [h, Option.guard]

/-- The attributes of a table are read back from its settings but for one under the key of the
replicas. -/
theorem readAttributes_settingValues (t : Table) :
    readAttributes (settingValues t) = t.attributes.without replicasKey := by
  have hnumber : ∀ key n, attribute? (key, pieces (number n)) = none := fun key n =>
    attribute?_plain key _
  have htoggle : ∀ key b, attribute? (key, pieces (toggle b)) = none := fun key b =>
    attribute?_plain key _
  have hexpiry : ∀ key ttl, attribute? (key, pieces (expiry ttl)) = none := fun key ttl => by
    rw [attribute?, show quoted? .text (pieces (expiry ttl)) = none from rfl, Option.map_none,
      ite_self]
  have hpoints : ∀ name key points,
      attribute? (name, pieces (Draft.splitPoints key points)) = none := fun name key points => by
    rw [attribute?, show quoted? .text (pieces (Draft.splitPoints key points)) = none from rfl,
      Option.map_none, ite_self]
  have hreplicas : ∀ replicas, attribute? (replicasKey, pieces (Draft.text replicas)) = none :=
    fun _ => rfl
  rw [readAttributes, settingValues, partitioningValues]
  simp only [List.filterMap_append, attribute?_optional (hnumber _),
    attribute?_optional (htoggle _), attribute?_optional (hexpiry _),
    attribute?_optional (hpoints _ _), attribute?_optional hreplicas, attribute?_attributes,
    List.nil_append, Attributes.ofList_entries]

end SchemaPlan.Ddl

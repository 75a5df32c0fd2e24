import SchemaPlan.Ddl.Spelling
import SchemaPlan.Proofs.Ddl.Literal

/-!
# Literals of types that are spelled differently

The blanks around a type and inside `Optional<>` are dropped; those in front of a question mark are
not. So a type is found again in every tight spelling and in no other (`baseType_spelled`), and
which literals are written is a matter of the type that is found (`typedLiteral_alike`).
`typedLiteral_spelled` : two spellings of a type are interchangeable exactly if both are tight or
neither is, and in a spelling that is not tight no literal is accepted.
-/

namespace SchemaPlan

open Ddl

variable {name : String} {s t : TypeSpelling}

/-! ## The names of types -/

/-- The names of types are words that do not start as `Optional<` does. -/
theorem word_of_mem_literalTypeNames (h : name ∈ literalTypeNames) :
    name.toList ≠ [] ∧ (∀ c ∈ name.toList, c.isAlphanum = true) ∧
      name.toList.head? ≠ some 'O' := by
  have hall : ∀ other ∈ literalTypeNames, other.toList ≠ [] ∧
      other.toList.all Char.isAlphanum = true ∧ other.toList.head? ≠ some 'O' := by
    decide
  obtain ⟨hne, halphanum, hhead⟩ := hall name h
  exact ⟨hne, List.all_eq_true.1 halphanum, hhead⟩

theorem isBlank_of_mem_name (h : name ∈ literalTypeNames) :
    ∀ c ∈ name.toList, Text.isBlank c = false :=
  fun c hc => Text.isBlank_of_isAlphanum ((word_of_mem_literalTypeNames h).2.1 c hc)

/-- A name with blanks after it is no name of a type. -/
theorem lookup_append_blank {after : String} (hne : after ≠ "")
    (hblank : after.toList.all Text.isBlank = true) :
    literalTypes.lookup (name ++ after) = none := by
  cases hlookup : literalTypes.lookup (name ++ after) with
  | none => rfl
  | some type =>
    have hmem : name ++ after ∈ literalTypeNames :=
      List.mem_map.2 ⟨_, mem_of_lookup hlookup, rfl⟩
    obtain ⟨c, hc⟩ := List.exists_mem_of_ne_nil after.toList (by simpa using hne)
    have hsolid := isBlank_of_mem_name hmem c (by simp [hc])
    rw [List.all_eq_true.1 hblank c hc] at hsolid
    cases hsolid

/-! ## The type that is found -/

/-- A type that does not begin like an optional one is not optional. -/
theorem insideOptional?_eq_none {type : List Char} (h : type.head? ≠ some 'O') :
    Column.insideOptional? type = none := by
  rw [Column.insideOptional?, Option.bind_eq_none_iff]
  intro rest hrest
  rw [List.isPrefixOf?_eq_some_iff_append_eq] at hrest
  exact absurd (hrest ▸ rfl) h

/-- What stands inside an optional type is found. -/
theorem insideOptional?_optional (inner : List Char) :
    Column.insideOptional? ("Optional<".toList ++ inner ++ ">".toList) = some inner := by
  rw [Column.insideOptional?, Option.bind_eq_some_iff]
  refine ⟨inner ++ ">".toList, ?_, ?_⟩
  · rw [List.isPrefixOf?_eq_some_iff_append_eq, ← List.append_assoc]
    rfl
  · rw [List.isSuffixOf?_eq_some_iff_append_eq]
    rfl

/-- The blanks around the name of a type are dropped. -/
theorem dropEnds_spaced (h : name ∈ literalTypeNames) (s : TypeSpelling) :
    Text.dropEnds Text.isBlank (s.before.toList ++ name.toList ++ s.after.toList) =
      name.toList := by
  have hsolid := isBlank_of_mem_name h
  rw [Text.dropEnds_append_append (List.all_eq_true.1 s.blank_before)
    (List.all_eq_true.1 s.blank_after)]
  exact Text.dropEnds_eq_self (fun c hc => hsolid c (List.mem_of_mem_head? hc))
    fun c hc => hsolid c (List.mem_of_getLast? hc)

/-- Blanks around the name of a type do not count. -/
theorem baseType_of_bare (h : name ∈ literalTypeNames) (s : TypeSpelling) {c : Column}
    (hc : c.type.toList = s.before.toList ++ name.toList ++ s.after.toList) :
    c.baseType = name := by
  obtain ⟨-, halphanum, hhead⟩ := word_of_mem_literalTypeNames h
  have hmark : ['?'].isSuffixOf? name.toList = none := by
    rw [Option.eq_none_iff_forall_ne_some]
    intro front hfront
    rw [List.isSuffixOf?_eq_some_iff_append_eq] at hfront
    cases halphanum '?' (hfront ▸ List.mem_append_right _ List.mem_cons_self)
  simp only [Column.baseType, hc, dropEnds_spaced h, insideOptional?_eq_none hhead, hmark,
    Option.getD_none, String.ofList_toList]

/-- Blanks between the name of a type and its question mark do count. -/
theorem baseType_of_marked (h : name ∈ literalTypeNames) (s : TypeSpelling) {c : Column}
    (hc : c.type.toList = s.before.toList ++ name.toList ++ s.after.toList ++ ['?']) :
    c.baseType = name ++ s.after := by
  obtain ⟨hne, -, hhead⟩ := word_of_mem_literalTypeNames h
  obtain ⟨first, rest, hname⟩ := List.exists_cons_of_ne_nil hne
  have hfirst : Text.isBlank first = false := isBlank_of_mem_name h first (by simp [hname])
  -- the question mark keeps the blanks in front of it from being dropped
  have hdrop : Text.dropEnds Text.isBlank c.type.toList =
      name.toList ++ s.after.toList ++ ['?'] := by
    have hblank := Text.dropEnds_append_append (List.all_eq_true.1 s.blank_before)
      (List.forall_mem_nil (Text.isBlank · = true)) (first :: (rest ++ s.after.toList ++ ['?']))
    rw [Text.dropEnds_enclosed hfirst (by decide)] at hblank
    simpa [hc, hname] using hblank
  have hnone : Column.insideOptional? (name.toList ++ s.after.toList ++ ['?']) = none :=
    insideOptional?_eq_none (by simpa [hname] using hhead)
  have hmark : ['?'].isSuffixOf? (name.toList ++ s.after.toList ++ ['?']) =
      some (name.toList ++ s.after.toList) :=
    List.isSuffixOf?_eq_some_iff_append_eq.2 rfl
  simp only [Column.baseType, hdrop, hnone, hmark, Option.getD_some, String.ofList_append,
    String.ofList_toList]

/-- Blanks inside an optional type do not count. -/
theorem baseType_of_wrapped (h : name ∈ literalTypeNames) (s : TypeSpelling) {c : Column}
    (hc : c.type.toList = "Optional<".toList ++
      (s.before.toList ++ name.toList ++ s.after.toList) ++ ">".toList) : c.baseType = name := by
  have hdrop : Text.dropEnds Text.isBlank c.type.toList = c.type.toList := by
    rw [hc]
    exact Text.dropEnds_enclosed (by decide) (by decide)
      ("ptional<".toList ++ (s.before.toList ++ name.toList ++ s.after.toList))
  rw [Column.baseType, hdrop, hc, insideOptional?_optional]
  simp only [dropEnds_spaced h, String.ofList_toList]

/-- The type is found again in every spelling, with the blanks in front of a question mark. -/
theorem baseType_spelled (h : name ∈ literalTypeNames) (c : Column) (s : TypeSpelling) :
    (c.spelled s name).baseType = if s.form = .marked then name ++ s.after else name := by
  cases hform : s.form with
  | bare => exact baseType_of_bare h s (by simp [Column.spelled, TypeSpelling.write, hform])
  | marked => exact baseType_of_marked h s (by simp [Column.spelled, TypeSpelling.write, hform])
  | wrapped => exact baseType_of_wrapped h s (by simp [Column.spelled, TypeSpelling.write, hform])

/-- The base type of a tight spelling is the name. -/
theorem baseType_of_tight (h : name ∈ literalTypeNames) (c : Column) (hs : s.Tight) :
    (c.spelled s name).baseType = name := by
  rw [baseType_spelled h]
  split
  · rename_i hmarked
    rw [hs hmarked, String.append_empty]
  · rfl

/-! ## Literals -/

/-- What is written of a literal is a matter of the type that is found. -/
theorem typedLiteral_alike {c d : Column} (h : c.baseType = d.baseType) (literal : String) :
    Alike (· = ·) (fun _ _ => True) (typedLiteral c literal) (typedLiteral d literal) := by
  cases hlookup : literalTypes.lookup d.baseType with
  | none =>
    simp only [typedLiteral, h, hlookup]
    exact .error trivial
  | some type =>
    cases type with
    | integer range =>
      simp only [typedLiteral, h, hlookup]
      cases range.read? (Text.dropEnds Text.isBlank literal.toList) with
      | none => exact .error trivial
      | some i => exact .ok rfl
    | bool =>
      simp only [typedLiteral, h, hlookup]
      cases readBool? literal.toList with
      | none => exact .error trivial
      | some b => exact .ok rfl
    | text =>
      simp only [typedLiteral, h, hlookup]
      cases text literal with
      | error e => exact .error trivial
      | ok p => exact .ok rfl

/-- Every integer type has zero. -/
theorem zero_mem_of_isIntegerType {signed : Bool} {least greatest : Int}
    (h : IsIntegerType name signed least greatest) : least ≤ 0 ∧ 0 ≤ greatest := by
  cases h <;> decide

/-- Every type of split points has a literal that is accepted. -/
theorem exists_typedLiteral {c : Column} (h : c.baseType ∈ literalTypeNames) :
    ∃ literal p, typedLiteral c literal = .ok p := by
  obtain ⟨⟨other, type⟩, hmem, hother⟩ := List.mem_map.1 h
  have hlookup : literalTypes.lookup c.baseType = some type :=
    (lookup_eq_some_iff_mem (by decide)).2 (hother ▸ hmem)
  cases type with
  | integer range =>
    have htype := isIntegerType_of_mem (mem_of_lookup hlookup)
    obtain ⟨hleast, hgreatest⟩ := zero_mem_of_isIntegerType htype
    exact ⟨toString (0 : Int), _, (typedLiteral_eq_ok_iff htype).2
      ⟨0, denotes_toString fun hneg => absurd hneg (lt_irrefl 0), hleast, hgreatest, rfl⟩⟩
  | bool =>
    refine ⟨"true", plain "true", ?_⟩
    rw [typedLiteral, hlookup]
    rfl
  | text =>
    have hempty : ∃ p, text "" = .ok p := ⟨_, rfl⟩
    obtain ⟨p, hp⟩ := hempty
    refine ⟨"", p, ?_⟩
    rw [typedLiteral, hlookup]
    exact hp

/-- In a spelling that is not tight no literal is accepted. -/
theorem typedLiteral_of_not_tight (h : name ∈ literalTypeNames) (c : Column) (hs : ¬s.Tight)
    (literal : String) : typedLiteral (c.spelled s name) literal =
      .error (.invalidLiteral c.name (s.write name) literal) := by
  obtain ⟨hmarked, hafter⟩ := Classical.not_imp.1 hs
  have hlookup : literalTypes.lookup (c.spelled s name).baseType = none := by
    rw [baseType_spelled h, if_pos hmarked]
    exact lookup_append_blank hafter s.blank_after
  rw [typedLiteral, hlookup]
  rfl

/-- What accepts the literals of a tight spelling is tight. -/
theorem tight_of_accepts (h : name ∈ literalTypeNames) (c : Column) (hs : s.Tight)
    (haccepts : ∀ literal, (∃ p, typedLiteral (c.spelled s name) literal = .ok p) →
      ∃ p, typedLiteral (c.spelled t name) literal = .ok p) : t.Tight := by
  by_contra ht
  obtain ⟨literal, haccepted⟩ := exists_typedLiteral ((baseType_of_tight h c hs).symm ▸ h)
  obtain ⟨p, hp⟩ := haccepts literal haccepted
  rw [typedLiteral_of_not_tight h c ht] at hp
  cases hp

/-- Which spellings of a type of split points are interchangeable. In every spelling the type is
found again, with the blanks in front of a question mark, if there are any. Two spellings give the
same result for every literal, a value or an error for both, exactly if both are tight or neither
is; and in a spelling that is not tight every literal is refused. -/
theorem typedLiteral_spelled (h : name ∈ literalTypeNames) (c : Column) :
    (∀ s, (c.spelled s name).baseType = if s.form = .marked then name ++ s.after else name) ∧
    (∀ s t, (∀ literal, Alike (· = ·) (fun _ _ => True) (typedLiteral (c.spelled s name) literal)
      (typedLiteral (c.spelled t name) literal)) ↔ (s.Tight ↔ t.Tight)) ∧
    ∀ s, ¬s.Tight → ∀ literal, typedLiteral (c.spelled s name) literal =
      .error (.invalidLiteral c.name (s.write name) literal) := by
  refine ⟨baseType_spelled h c, fun s t => ⟨fun halike => ⟨fun hs => ?_, fun ht => ?_⟩, ?_⟩,
    fun s => typedLiteral_of_not_tight h c⟩
  · exact tight_of_accepts h c hs fun literal => (halike literal).exists_ok_iff.1
  · exact tight_of_accepts h c ht fun literal => (halike literal).exists_ok_iff.2
  · intro hiff literal
    by_cases hs : s.Tight
    · refine typedLiteral_alike ?_ literal
      rw [baseType_of_tight h c hs, baseType_of_tight h c (hiff.1 hs)]
    · rw [typedLiteral_of_not_tight h c hs, typedLiteral_of_not_tight h c (mt hiff.2 hs)]
      exact .error trivial

/-- A column of a key whose type is spelled out. -/
def keyColumn : Column where
  name := "k"
  type := "Int8"

/-- A form of a type with one blank after the name. -/
def spaced (form : TypeForm) : TypeSpelling where
  form := form
  after := " "

/-- A type inside `Optional<>` among other blanks. -/
def airyOptional : TypeSpelling where
  form := .wrapped
  before := "\t"
  after := "\n "

theorem typedLiteral_spelled_int8 :
    "Int8" ∈ literalTypeNames ∧
    (∀ literal, Alike (· = ·) (fun _ _ => True)
      (typedLiteral (keyColumn.spelled (spaced .bare) "Int8") literal)
      (typedLiteral (keyColumn.spelled airyOptional "Int8") literal)) ∧
    (∀ literal, Alike (· = ·) (fun _ _ => True)
      (typedLiteral (keyColumn.spelled (spaced .bare) "Int8") literal)
      (typedLiteral (keyColumn.spelled { form := .marked } "Int8") literal)) ∧
    ¬∀ literal, Alike (· = ·) (fun _ _ => True)
      (typedLiteral (keyColumn.spelled (spaced .bare) "Int8") literal)
      (typedLiteral (keyColumn.spelled (spaced .marked) "Int8") literal) := by
  have hname : "Int8" ∈ literalTypeNames := by decide
  obtain ⟨-, hiff, -⟩ := typedLiteral_spelled hname keyColumn
  refine ⟨hname, (hiff _ _).2 (by decide), (hiff _ _).2 (by decide), fun halike => ?_⟩
  exact absurd ((hiff _ _).1 halike) (by decide)

/-- With a blank after the name, the literal is accepted in two of the three forms. -/
theorem typedLiteral_blankBeforeMark :
    typedLiteral (keyColumn.spelled (spaced .bare) "Int8") "5" = .ok (plain "5") ∧
    typedLiteral (keyColumn.spelled (spaced .wrapped) "Int8") "5" = .ok (plain "5") ∧
    typedLiteral (keyColumn.spelled (spaced .marked) "Int8") "5" =
      .error (.invalidLiteral "k" "Int8 ?" "5") := by
  decide +kernel

end SchemaPlan

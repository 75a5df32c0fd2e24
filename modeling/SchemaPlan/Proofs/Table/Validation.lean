import SchemaPlan.Proofs.Named
import SchemaPlan.Table.Violation

/-!
# Accepted declarations

`Table.validate_eq_ok_iff` : the declarations that `Table.validate` accepts are those that are
well-formed. So the columns of an accepted declaration have distinct names and are in families that
it declares, and the columns of its key, its indexes and its expiry are among them.
-/

namespace SchemaPlan

theorem Error.ofProblems_eq_ok_iff {table : String} {problems : List TableProblem} :
    Error.ofProblems table problems = .ok () ↔ problems = [] := by
  match problems with
  | [] => simp [ofProblems]
  | [_] => simp [ofProblems]
  | _ :: _ :: _ => simp [ofProblems]

/-- Two problems or more are reported together. -/
theorem Error.ofProblems_of_two_le {table : String} {problems : List TableProblem}
    (h : 2 ≤ problems.length) :
    Error.ofProblems table problems = .error (.manyProblems table problems) := by
  cases problems with
  | nil => simp at h
  | cons problem rest =>
    cases rest with
    | nil => simp at h
    | cons => rfl

namespace Table

variable {t : Table}

/-- No name is undeclared exactly if all of them are declared. -/
theorem undeclared_eq_nil_iff {declared names : List String} :
    undeclared declared names = [] ↔ ∀ name ∈ names, name ∈ declared := by
  simp [undeclared]

theorem problemIf_eq_nil_iff {condition : Bool} {problem : TableProblem} :
    problemIf condition problem = [] ↔ condition = false := by
  cases condition <;> simp [problemIf]

/-- A table with a path, a column and a key has no empty part. -/
theorem emptyParts_eq_nil_iff :
    t.emptyParts = [] ↔ t.path ≠ "" ∧ t.columns ≠ [] ∧ t.primaryKey ≠ [] := by
  simp [emptyParts, problemIf_eq_nil_iff]

/-- Families are right if every column is in a declared one or in none. -/
theorem familyProblems_eq_nil_iff : t.familyProblems = [] ↔
    ∀ c ∈ t.columns, ∀ family, c.family = some family → family ∈ t.families.map Family.name := by
  simp only [familyProblems, List.flatMap_eq_nil_iff, List.map_eq_nil_iff,
    undeclared_eq_nil_iff, Option.mem_toList]

/-- An index is right if it is on some column and all its columns are declared. -/
theorem indexProblems_eq_nil_iff {i : Index} : t.indexProblems i = [] ↔
    i.columns ≠ [] ∧ ∀ column ∈ i.columns ++ i.cover, column ∈ t.columnNames := by
  rw [indexProblems, List.append_eq_nil_iff, problemIf_eq_nil_iff, List.map_eq_nil_iff,
    undeclared_eq_nil_iff, List.isEmpty_eq_false_iff]

/-- The time to live is right if it is of a declared column. -/
theorem ttlProblems_eq_nil_iff :
    t.ttlProblems = [] ↔ ∀ ttl, t.ttl = some ttl → ttl.column ∈ t.columnNames := by
  rw [ttlProblems, List.map_eq_nil_iff, undeclared_eq_nil_iff, List.forall_mem_map]
  simp only [Option.mem_toList]

/-- A declaration is accepted exactly if it is well-formed: each condition is that one of the lists
which make up its problems has no entry. -/
theorem validate_eq_ok_iff : t.validate = .ok () ↔ t.WellFormed := by
  rw [validate, Error.ofProblems_eq_ok_iff, problems]
  simp only [List.append_eq_nil_iff, List.map_eq_nil_iff, repeats_eq_nil_iff,
    undeclared_eq_nil_iff, List.flatMap_eq_nil_iff, emptyParts_eq_nil_iff,
    familyProblems_eq_nil_iff, indexProblems_eq_nil_iff, ttlProblems_eq_nil_iff, and_assoc]
  constructor
  · rintro ⟨hpath, hcolumns, hkey, hnames, hfamilies, hkeyColumns, hindexes, httl⟩
    exact ⟨hpath, hcolumns, hkey, hnames, hfamilies, hkeyColumns, fun i hi => (hindexes i hi).1,
      fun i hi => (hindexes i hi).2, httl⟩
  · rintro ⟨hpath, hcolumns, hkey, hnames, hfamilies, hkeyColumns, hindexes, hindexColumns, httl⟩
    exact ⟨hpath, hcolumns, hkey, hnames, hfamilies, hkeyColumns,
      fun i hi => ⟨hindexes i hi, hindexColumns i hi⟩, httl⟩

theorem nodup_columnNames_of_validate (h : t.validate = .ok ()) : t.columnNames.Nodup :=
  (validate_eq_ok_iff.1 h).columnNames

theorem mem_families_of_column (h : t.validate = .ok ()) {c : Column} (hc : c ∈ t.columns)
    {family : String} (hf : c.family = some family) : family ∈ t.families.map Family.name :=
  (validate_eq_ok_iff.1 h).families c hc family hf

theorem mem_columnNames_of_index (h : t.validate = .ok ()) {i : Index} (hi : i ∈ t.indexes)
    {column : String} (hc : column ∈ i.columns ++ i.cover) : column ∈ t.columnNames :=
  (validate_eq_ok_iff.1 h).indexColumns i hi column hc

theorem mem_columnNames_of_ttl (h : t.validate = .ok ()) {ttl : Ttl} (ht : t.ttl = some ttl) :
    ttl.column ∈ t.columnNames :=
  (validate_eq_ok_iff.1 h).ttl ttl ht

end Table

end SchemaPlan

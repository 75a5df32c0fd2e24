/-!
# Attributes of tables

`Attributes` is a finite map from keys to values, both texts, kept as the list of its entries in
the order of their keys. So two maps with the same entries are equal, and `insert` and `lookup`
are enough to describe one.
-/

namespace SchemaPlan

/-- The entries with the value of `key` set to `v`. -/
def insertEntry (key v : String) : List (String × String) → List (String × String)
  | [] => [(key, v)]
  | e :: entries =>
    if key < e.1 then (key, v) :: e :: entries
    else if key = e.1 then (key, v) :: entries
    else e :: insertEntry key v entries

theorem mem_insertEntry {key v : String} {entries : List (String × String)}
    {e : String × String} (h : e ∈ insertEntry key v entries) : e = (key, v) ∨ e ∈ entries := by
  induction entries with
  | nil => simpa [insertEntry] using h
  | cons d entries ih =>
    simp only [insertEntry] at h
    split at h
    · simpa using h
    · split at h
      · rcases List.mem_cons.1 h with h | h
        · exact .inl h
        · exact .inr (List.mem_cons_of_mem _ h)
      · rcases List.mem_cons.1 h with h | h
        · exact .inr (h ▸ List.mem_cons_self)
        · rcases ih h with h | h
          · exact .inl h
          · exact .inr (List.mem_cons_of_mem _ h)

theorem pairwise_insertEntry {key v : String} {entries : List (String × String)}
    (h : entries.Pairwise fun d e => d.1 < e.1) :
    (insertEntry key v entries).Pairwise fun d e => d.1 < e.1 := by
  induction entries with
  | nil => simp [insertEntry]
  | cons d entries ih =>
    obtain ⟨hd, hs⟩ := List.pairwise_cons.1 h
    simp only [insertEntry]
    split
    · rename_i hlt
      refine List.pairwise_cons.2 ⟨fun e he => ?_, h⟩
      rcases List.mem_cons.1 he with rfl | he
      · exact hlt
      · exact String.lt_trans hlt (hd e he)
    · split
      · rename_i heq
        exact List.pairwise_cons.2 ⟨fun e he => heq ▸ hd e he, hs⟩
      · rename_i hle hne
        refine List.pairwise_cons.2 ⟨fun e he => ?_, ih hs⟩
        rcases mem_insertEntry he with rfl | he
        · exact Std.lt_of_le_of_ne (String.not_lt.1 hle) (Ne.symm hne)
        · exact hd e he

/-- A finite map from keys to values. -/
structure Attributes where
  entries : List (String × String) := []
  sorted : entries.Pairwise (fun d e => d.1 < e.1) := by simp
  deriving DecidableEq

namespace Attributes

/-- The map without entries. -/
def empty : Attributes := {}

/-- The map with the value of `key` set to `v`. -/
def insert (attributes : Attributes) (key v : String) : Attributes :=
  ⟨insertEntry key v attributes.entries, pairwise_insertEntry attributes.sorted⟩

/-- The map of a list of entries; of two with one key the later counts. -/
def ofList (entries : List (String × String)) : Attributes :=
  entries.foldl (fun attributes e => attributes.insert e.1 e.2) empty

/-- The keys in order. -/
def keys (attributes : Attributes) : List String :=
  attributes.entries.map Prod.fst

/-- The value of a key. -/
def lookup (attributes : Attributes) (key : String) : Option String :=
  attributes.entries.lookup key

end Attributes

end SchemaPlan

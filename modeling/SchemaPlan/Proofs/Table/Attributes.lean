import SchemaPlan.Table.Attributes

/-!
# Attributes and their entries

Attributes are the map of their entries (`ofList_entries`) : inserted in the order of their keys,
the entries are put one behind the other. So no key occurs twice (`nodup_keys`).
-/

namespace SchemaPlan.Attributes

/-- An entry with a key after all others is added at the end. -/
theorem insertEntry_last {key v : String} {entries : List (String × String)}
    (h : ∀ e ∈ entries, e.1 < key) : insertEntry key v entries = entries ++ [(key, v)] := by
  induction entries with
  | nil => rfl
  | cons e entries ih =>
    obtain ⟨he, hentries⟩ := List.forall_mem_cons.1 h
    have hne : ¬key = e.1 := fun heq => String.lt_irrefl _ (heq ▸ he)
    have hlt : ¬key < e.1 := fun hlt => String.lt_irrefl _ (String.lt_trans he hlt)
    rw [insertEntry, if_neg hlt, if_neg hne, ih hentries, List.cons_append]

/-- Entries in the order of their keys are inserted as they stand. -/
theorem foldl_insert {a : Attributes} {entries : List (String × String)}
    (h : (a.entries ++ entries).Pairwise fun d e => d.1 < e.1) :
    (entries.foldl (fun a e => a.insert e.1 e.2) a).entries = a.entries ++ entries := by
  induction entries generalizing a with
  | nil => simp
  | cons e entries ih =>
    have hinsert : (a.insert e.1 e.2).entries = a.entries ++ [e] :=
      insertEntry_last fun d hd => (List.pairwise_append.1 h).2.2 d hd e List.mem_cons_self
    have happend : a.entries ++ e :: entries = (a.insert e.1 e.2).entries ++ entries := by
      rw [hinsert, List.append_assoc, List.singleton_append]
    rw [happend] at h ⊢
    exact ih h

theorem eq_of_entries {a b : Attributes} (h : a.entries = b.entries) : a = b := by
  cases a
  cases b
  cases h
  rfl

/-- Attributes are the map of their entries. -/
theorem ofList_entries (a : Attributes) : ofList a.entries = a :=
  eq_of_entries (foldl_insert (a := empty) a.sorted)

/-- No key stands for two values. -/
theorem nodup_keys (a : Attributes) : a.keys.Nodup := by
  rw [keys, List.Nodup, List.pairwise_map]
  exact a.sorted.imp fun {d e} (hlt : d.1 < e.1) (heq : d.1 = e.1) =>
    String.lt_irrefl _ (heq ▸ hlt)

end SchemaPlan.Attributes

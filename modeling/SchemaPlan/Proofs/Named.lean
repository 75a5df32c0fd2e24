import Mathlib.Data.List.Nodup
import SchemaPlan.Named

/-!
# Lists with distinct names

In a list whose names are distinct, the entry that counts for a name is the only one of that
name (`lastNamed?_eq_some_iff`), so looking for a partner by name is looking for any partner
(`any_lastNamed?_iff`). Where names are repeated, a list holds a partner for each of its own entries
if entries of one name agree (`agreeing_iff_any_lastNamed?`).

`replaced same declared observed` is what a list of observed entries becomes when the entries
without a declared partner are dropped and the declared entries without an observed partner are
added. Its names are distinct (`nodup_replaced`), and it and the declared list hold partners for
each other's entries (`exists_same_of_mem_declared`, `exists_same_of_mem_replaced`) : there is
nothing left to drop or to add.
-/

namespace SchemaPlan

variable {α : Type} {nameOf : α → String} {name : String} {l : List α} {a : α}

/-! ## Looking up a name -/

theorem mem_of_lastNamed? (h : lastNamed? nameOf name l = some a) : a ∈ l :=
  List.mem_reverse.1 (List.mem_of_find?_eq_some h)

theorem name_of_lastNamed? (h : lastNamed? nameOf name l = some a) : nameOf a = name := by
  simpa using List.find?_some h

/-- Some entry counts for the name of each entry. -/
theorem exists_lastNamed? (nameOf : α → String) (ha : a ∈ l) :
    ∃ b, lastNamed? nameOf (nameOf a) l = some b := by
  rw [← Option.isSome_iff_exists, lastNamed?, List.find?_isSome]
  exact ⟨a, List.mem_reverse.2 ha, by simp⟩

/-- With distinct names every entry is the one that counts for its name. -/
theorem lastNamed?_eq_some_iff (hl : (l.map nameOf).Nodup) :
    lastNamed? nameOf name l = some a ↔ a ∈ l ∧ nameOf a = name := by
  refine ⟨fun h => ⟨mem_of_lastNamed? h, name_of_lastNamed? h⟩, ?_⟩
  rintro ⟨ha, rfl⟩
  obtain ⟨b, hb⟩ := exists_lastNamed? nameOf ha
  rw [hb, List.inj_on_of_nodup_map hl (mem_of_lastNamed? hb) ha (name_of_lastNamed? hb)]

/-- With distinct names the order of the entries does not matter. -/
theorem lastNamed?_perm {m : List α} (h : l.Perm m) (hl : (l.map nameOf).Nodup) :
    lastNamed? nameOf name l = lastNamed? nameOf name m := by
  have hm : (m.map nameOf).Nodup := (h.map nameOf).nodup_iff.1 hl
  ext b
  rw [lastNamed?_eq_some_iff hl, lastNamed?_eq_some_iff hm, h.mem_iff]

/-- Leaving out entries of other names does not change which entry counts for a name. -/
theorem lastNamed?_filter {p : α → Bool} (hp : ∀ b, nameOf b = name → p b = true) :
    lastNamed? nameOf name (l.filter p) = lastNamed? nameOf name l := by
  rw [lastNamed?, lastNamed?, ← List.filter_reverse, List.find?_filter]
  refine congrArg (List.find? · l.reverse) (funext fun b => ?_)
  by_cases hb : nameOf b = name
  · simp [hb, hp b hb]
  · simp [hb]

/-- With distinct names a look-up finds exactly what is paired with the name. -/
theorem lookup_eq_some_iff_mem {entries : List (String × α)}
    (h : (entries.map Prod.fst).Nodup) : entries.lookup name = some a ↔ (name, a) ∈ entries := by
  have hmem : ∀ b, entries.lookup name = some b → (name, b) ∈ entries := by
    intro b hb
    obtain ⟨before, after, rfl, -⟩ := List.lookup_eq_some_iff.1 hb
    simp
  refine ⟨hmem a, fun ha => ?_⟩
  cases hlookup : entries.lookup name with
  | none => simpa using List.lookup_eq_none_iff.1 hlookup _ ha
  | some b =>
    have heq := List.inj_on_of_nodup_map h (hmem b hlookup) ha rfl
    exact congrArg some (Prod.mk.inj heq).2

/-- What is made of some entries has distinct names if what has one name is made of entries of one
name. -/
theorem nodup_map_filterMap {β : Type} {f : α → Option β} {nameOf' : β → String}
    (hl : (l.map nameOf).Nodup) (hf : ∀ a ∈ l, ∀ b ∈ l, ∀ x, f a = some x → ∀ y, f b = some y →
      nameOf' x = nameOf' y → nameOf a = nameOf b) : ((l.filterMap f).map nameOf').Nodup := by
  rw [List.Nodup, List.pairwise_map] at hl ⊢
  rw [List.pairwise_filterMap]
  exact hl.imp_of_mem fun ha hb hne x hx y hy heq => hne (hf _ ha _ hb x hx y hy heq)

/-- With distinct names, a property of the entry that counts for a name, which only entries of
that name have, is a property of some entry. -/
theorem any_lastNamed?_iff (hl : (l.map nameOf).Nodup) {p : α → Bool}
    (hp : ∀ b, p b = true → nameOf b = name) :
    (lastNamed? nameOf name l).any p = true ↔ ∃ b ∈ l, p b = true := by
  rw [Option.any_eq_true]
  constructor
  · rintro ⟨b, hb, hpb⟩
    exact ⟨b, mem_of_lastNamed? hb, hpb⟩
  · rintro ⟨b, hb, hpb⟩
    exact ⟨b, (lastNamed?_eq_some_iff hl).2 ⟨hb, hp b hpb⟩, hpb⟩

/-! ## Selecting a name -/

/-- Dropping the entries of one name leaves those of another. -/
theorem filter_name_of_drop {other : String} (h : other ≠ name) (l : List α) :
    (l.filter fun b => nameOf b ≠ other).filter (fun b => nameOf b = name) =
      l.filter fun b => nameOf b = name := by
  rw [List.filter_filter]
  refine List.filter_congr fun b _ => ?_
  by_cases hb : nameOf b = name
  · simp [hb, h.symm]
  · simp [hb]

/-- Adding an entry of one name leaves those of another. -/
theorem filter_name_of_add (h : nameOf a ≠ name) (l : List α) :
    (l ++ [a]).filter (fun b => nameOf b = name) = l.filter fun b => nameOf b = name := by
  simp [List.filter_append, h]

/-- Lists with the same entries of a name hold the same entries of that name. -/
theorem mem_of_filter_name_eq {m : List α}
    (h : (m.filter fun b => nameOf b = nameOf a) = l.filter fun b => nameOf b = nameOf a)
    (ha : a ∈ l) : a ∈ m := by
  have hfiltered : a ∈ l.filter fun b => nameOf b = nameOf a :=
    List.mem_filter.2 ⟨ha, decide_eq_true rfl⟩
  rw [← h] at hfiltered
  exact (List.mem_filter.1 hfiltered).1

/-! ## Entries of one name -/

/-- Entries of one name are the same. -/
def Agreeing (nameOf : α → String) (same : α → α → Bool) (l : List α) : Prop :=
  ∀ a ∈ l, ∀ b ∈ l, nameOf a = nameOf b → same a b = true

/-- Entries of distinct names agree. -/
theorem agreeing_of_nodup {same : α → α → Bool} (hrefl : ∀ b, same b b = true)
    (hl : (l.map nameOf).Nodup) : Agreeing nameOf same l := by
  intro a ha b hb hname
  rw [List.inj_on_of_nodup_map hl ha hb hname]
  exact hrefl b

/-- Entries of one name agree exactly if each is the same as the entry that counts for its name. -/
theorem agreeing_iff_any_lastNamed? {same : α → α → Bool}
    (hsymm : ∀ b c, same b c = true → same c b = true)
    (htrans : ∀ b c d, same b c = true → same c d = true → same b d = true) :
    Agreeing nameOf same l ↔ ∀ a ∈ l, (lastNamed? nameOf (nameOf a) l).any (same a) = true := by
  simp only [Option.any_eq_true]
  constructor
  · intro h a ha
    obtain ⟨b, hb⟩ := exists_lastNamed? nameOf ha
    exact ⟨b, hb, h a ha b (mem_of_lastNamed? hb) (name_of_lastNamed? hb).symm⟩
  · intro h a ha b hb hname
    -- the entry that counts for the name stands between the two
    obtain ⟨c, hc, hac⟩ := h a ha
    obtain ⟨d, hd, hbd⟩ := h b hb
    rw [hname, hd, Option.some.injEq] at hc
    exact htrans a d b (hc ▸ hac) (hsymm b d hbd)

/-! ## Repetitions and sets of elements -/

section Elements

variable [DecidableEq α]

/-- Nothing is repeated exactly if the members are distinct, and distinct from what came before. -/
theorem repeatsAfter_eq_nil_iff {seen : List α} :
    repeatsAfter seen l = [] ↔ l.Nodup ∧ ∀ a ∈ l, a ∉ seen := by
  induction l generalizing seen with
  | nil => simp [repeatsAfter]
  | cons a l ih =>
    rw [repeatsAfter]
    split
    · rename_i ha
      simp [ha]
    · rename_i ha
      rw [ih, List.nodup_cons]
      simp only [List.mem_cons, not_or, forall_eq_or_imp, ha, not_false_eq_true, true_and]
      constructor
      · rintro ⟨hl, h⟩
        exact ⟨⟨fun hal => (h a hal).1 rfl, hl⟩, fun b hb => (h b hb).2⟩
      · rintro ⟨⟨hal, hl⟩, h⟩
        exact ⟨hl, fun b hb => ⟨fun hba => hal (hba ▸ hb), h b hb⟩⟩

/-- Nothing is repeated exactly if the members are distinct. -/
theorem repeats_eq_nil_iff : repeats l = [] ↔ l.Nodup := by
  simp [repeats, repeatsAfter_eq_nil_iff]

/-- Two lists have the same elements exactly if they have the same members, in any order. -/
theorem sameElements_iff {m : List α} : sameElements l m = true ↔ ∀ a, a ∈ l ↔ a ∈ m := by
  simp only [sameElements, Bool.and_eq_true, List.all_eq_true, decide_eq_true_eq]
  exact ⟨fun h a => ⟨h.1 a, h.2 a⟩, fun h => ⟨fun a => (h a).1, fun a => (h a).2⟩⟩

@[simp] theorem sameElements_self : sameElements l l = true :=
  sameElements_iff.2 fun _ => Iff.rfl

end Elements

/-! ## Replacing entries -/

/-- The observed entries that have a declared partner, then the declared ones without an
observed partner. -/
def replaced (same : α → α → Bool) (declared observed : List α) : List α :=
  observed.filter (fun o => declared.any fun d => same d o)
    ++ declared.filter fun d => !observed.any fun o => same d o

variable {same : α → α → Bool} {declared observed : List α}

/-- Replacing keeps what is declared alike and adds the declarations that nothing is like. -/
theorem mem_replaced : a ∈ replaced same declared observed ↔
    (a ∈ observed ∧ ∃ d ∈ declared, same d a = true) ∨
      (a ∈ declared ∧ ∀ o ∈ observed, same a o = false) := by
  simp [replaced, List.mem_filter]

/-- Each declaration is met after replacing. -/
theorem exists_same_of_mem_declared (hrefl : ∀ b, same b b = true) (ha : a ∈ declared) :
    ∃ r ∈ replaced same declared observed, same a r = true := by
  by_cases h : ∀ o ∈ observed, same a o = false
  · exact ⟨a, mem_replaced.2 (.inr ⟨ha, h⟩), hrefl a⟩
  · simp only [not_forall, Bool.not_eq_false] at h
    obtain ⟨o, ho, hao⟩ := h
    exact ⟨o, mem_replaced.2 (.inl ⟨ho, a, ha, hao⟩), hao⟩

/-- What is there after replacing is declared. -/
theorem exists_same_of_mem_replaced (hrefl : ∀ b, same b b = true)
    (ha : a ∈ replaced same declared observed) : ∃ d ∈ declared, same d a = true := by
  rcases mem_replaced.1 ha with ⟨-, h⟩ | ⟨h, -⟩
  · exact h
  · exact ⟨a, h, hrefl a⟩

/-- If partners have one name and either list has distinct names, so has the result. -/
theorem nodup_replaced (hd : (declared.map nameOf).Nodup) (ho : (observed.map nameOf).Nodup)
    (hname : ∀ b c, same b c = true → nameOf b = nameOf c) :
    ((replaced same declared observed).map nameOf).Nodup := by
  rw [replaced, List.map_append, List.nodup_append]
  refine ⟨ho.sublist (List.filter_sublist.map _), hd.sublist (List.filter_sublist.map _), ?_⟩
  intro n hn m hm hnm
  subst hnm
  obtain ⟨o, hmem, rfl⟩ := List.mem_map.1 hn
  obtain ⟨d, hmem', hdo⟩ := List.mem_map.1 hm
  simp only [List.mem_filter, List.any_eq_true, Bool.not_eq_true', List.any_eq_false] at hmem hmem'
  obtain ⟨hoo, e, he, heo⟩ := hmem
  -- `o` has a partner of its name, and `d` is the only declared entry of that name
  have hed : e = d := List.inj_on_of_nodup_map hd he hmem'.1 ((hname e o heo).trans hdo.symm)
  exact hmem'.2 o hoo (hed ▸ heo)

end SchemaPlan

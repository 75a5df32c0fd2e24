import Mathlib.Data.List.DropRight
import SchemaPlan.Text.Blank

/-!
# Dropping the ends of texts

What is dropped at the end of a list satisfies the predicate, and nothing is dropped twice. Letters
and digits are never dropped as blanks.
-/

namespace SchemaPlan.Text

variable {α : Type} {p : α → Bool}

theorem dropEndWhile_eq_rdropWhile (p : α → Bool) (l : List α) :
    dropEndWhile p l = l.rdropWhile p :=
  rfl

/-- What is dropped at the end is a run of elements that satisfy `p`. -/
theorem eq_dropEndWhile_append (p : α → Bool) (l : List α) :
    ∃ dropped, l = dropEndWhile p l ++ dropped ∧ ∀ a ∈ dropped, p a = true :=
  ⟨l.rtakeWhile p, List.rdropWhile_append_rtakeWhile.symm, fun _ => List.mem_rtakeWhile_imp⟩

/-- A first element that does not satisfy `p` is left. -/
theorem exists_dropEndWhile_cons {a : α} (ha : p a = false) (l : List α) :
    ∃ rest, dropEndWhile p (a :: l) = a :: rest := by
  cases h : dropEndWhile p (a :: l) with
  | nil =>
    have hall := List.rdropWhile_eq_nil_iff.1 h a List.mem_cons_self
    exact absurd hall (ha ▸ Bool.false_ne_true)
  | cons b rest =>
    have hprefix : b :: rest <+: a :: l := h ▸ List.rdropWhile_prefix p (a :: l)
    exact ⟨rest, by rw [(List.cons_prefix_cons.1 hprefix).1]⟩

/-- If there is nothing to drop at the end, only the run in front is dropped. -/
theorem dropEnds_append {lead : List α} {a : α} (hlead : ∀ b ∈ lead, p b = true)
    (ha : p a = false) (l : List α) :
    dropEnds p (lead ++ dropEndWhile p (a :: l)) = dropEndWhile p (a :: l) := by
  obtain ⟨rest, hrest⟩ := exists_dropEndWhile_cons ha l
  rw [dropEnds, List.dropWhile_append_of_pos hlead, hrest,
    List.dropWhile_cons_of_neg (by simp [ha]), ← hrest, dropEndWhile_eq_rdropWhile,
    dropEndWhile_eq_rdropWhile, List.rdropWhile_idempotent]

theorem dropEnds_eq_nil {l : List α} (h : ∀ a ∈ l, p a = true) : dropEnds p l = [] := by
  rw [dropEnds, List.dropWhile_eq_nil_iff.2 h]
  rfl

/-- What is dropped at the two ends are runs of elements that satisfy `p`. -/
theorem eq_append_dropEnds (p : α → Bool) (l : List α) :
    ∃ lead trail, l = lead ++ dropEnds p l ++ trail ∧ (∀ a ∈ lead, p a = true) ∧
      ∀ a ∈ trail, p a = true := by
  obtain ⟨trail, htrail, hall⟩ := eq_dropEndWhile_append p (l.dropWhile p)
  refine ⟨l.takeWhile p, trail, ?_, fun _ => List.mem_takeWhile_imp, hall⟩
  rw [dropEnds, List.append_assoc, ← htrail, List.takeWhile_append_dropWhile]

/-- Runs at the two ends are dropped with what is dropped there anyway. -/
theorem dropEnds_append_append {lead trail : List α} (hlead : ∀ a ∈ lead, p a = true)
    (htrail : ∀ a ∈ trail, p a = true) (l : List α) :
    dropEnds p (lead ++ l ++ trail) = dropEnds p l := by
  have hdrop : ∀ k : List α, dropEndWhile p (k ++ trail) = dropEndWhile p k := fun k => by
    rw [dropEndWhile, List.reverse_append,
      List.dropWhile_append_of_pos fun a ha => htrail a (List.mem_reverse.1 ha), ← dropEndWhile]
  rw [dropEnds, List.append_assoc, List.dropWhile_append_of_pos hlead, List.dropWhile_append]
  split
  · rename_i hnil
    rw [dropEnds, List.isEmpty_iff.1 hnil, List.dropWhile_eq_nil_iff.2 htrail]
  · exact hdrop _

/-- Nothing is dropped if neither the first nor the last element satisfies `p`. -/
theorem dropEnds_eq_self {l : List α} (hhead : ∀ a ∈ l.head?, p a = false)
    (hlast : ∀ a ∈ l.getLast?, p a = false) : dropEnds p l = l := by
  have hfront : l.dropWhile p = l := by
    cases l with
    | nil => rfl
    | cons a l => exact List.dropWhile_cons_of_neg (by simp [hhead a rfl])
  rw [dropEnds, hfront, dropEndWhile_eq_rdropWhile, List.rdropWhile_eq_self_iff]
  intro hne
  simp [hlast _ (List.getLast?_eq_some_getLast hne)]

/-- Nothing is dropped between a first and a last element that do not satisfy `p`. -/
theorem dropEnds_enclosed {a b : α} (ha : p a = false) (hb : p b = false) (l : List α) :
    dropEnds p (a :: (l ++ [b])) = a :: (l ++ [b]) := by
  refine dropEnds_eq_self (fun c hc => ?_) fun c hc => ?_
  · rw [List.head?_cons, Option.mem_some_iff] at hc
    exact hc ▸ ha
  · rw [← List.cons_append, List.getLast?_concat, Option.mem_some_iff] at hc
    exact hc ▸ hb

/-- What is left does not start with a character that is dropped. -/
theorem head?_dropEnds {l : List α} {a : α} (h : a ∈ (dropEnds p l).head?) : p a = false := by
  rw [dropEnds] at h
  cases hrest : l.dropWhile p with
  | nil => simp [hrest, dropEndWhile] at h
  | cons b rest =>
    have hb : p b = false := by
      have hhead := List.head?_dropWhile_not p l
      rw [hrest] at hhead
      simpa using hhead
    obtain ⟨rest', hrest'⟩ := exists_dropEndWhile_cons hb rest
    rw [hrest, hrest'] at h
    exact Option.some.inj h ▸ hb

theorem getLast?_dropEnds {l : List α} {a : α} (h : a ∈ (dropEnds p l).getLast?) :
    p a = false := by
  obtain ⟨hne, rfl⟩ := List.mem_getLast?_eq_getLast h
  exact Bool.eq_false_iff.2 (List.rdropWhile_last_not p (l.dropWhile p) hne)

/-! ## Visible characters -/

/-- The visible characters of ASCII are not blank. -/
theorem isBlank_of_visible {c : Char} (hlow : 0x21 ≤ c.toNat) (hhigh : c.toNat ≤ 0x7E) :
    isBlank c = false := by
  simp only [isBlank, Ranges.contains, blankRanges, List.any_cons, List.any_nil, Bool.or_false,
    Bool.or_eq_false_iff, Bool.and_eq_false_iff, decide_eq_false_iff_not]
  omega

theorem isBlank_of_isAlphanum {c : Char} (h : c.isAlphanum = true) : isBlank c = false := by
  have hranges : (decide ('A' ≤ c ∧ c ≤ 'Z') || ('a' ≤ c && c ≤ 'z')
      || ('0' ≤ c && c ≤ '9')) = true := h
  simp only [Bool.or_eq_true, Bool.and_eq_true, decide_eq_true_eq, Char.le_def,
    UInt32.le_iff_toNat_le, Char.toNat_val, Char.reduceToNat] at hranges
  exact isBlank_of_visible (by omega) (by omega)

end SchemaPlan.Text

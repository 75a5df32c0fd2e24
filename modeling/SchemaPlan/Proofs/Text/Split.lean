import Mathlib.Data.List.Basic
import SchemaPlan.Text.Split

/-!
# Marks and separators of a text

`splitFirst?_append` : if none of the marks occurs in `before`, then `before ++ mark ++ rest` is
split at `mark`. An occurrence that starts in `before` and ends after it would hold the first
character of `mark` past its own first, which `Separating` excludes. In the other direction, none of
the marks occurs before the split (`eq_append_of_splitFirst?`), and `splitNth?` splits at the one
separator with as many before it as were asked for (`splitNth?_eq_some_iff`). Parts without a
separator are what `splitOn` finds between the separators (`splitOn_intercalate`).
-/

namespace SchemaPlan.Text

variable {marks : List (List Char)} {mark text before rest : List Char}

/-! ## Marks at the front -/

/-- There is nothing after a mark exactly if the text starts with none. -/
theorem afterMark?_eq_none_iff : afterMark? marks text = none ↔ ∀ m ∈ marks, ¬m <+: text := by
  rw [afterMark?, List.findSome?_eq_none_iff]
  refine forall₂_congr fun m _ => ?_
  simp only [Option.eq_none_iff_forall_ne_some, ne_eq, List.isPrefixOf?_eq_some_iff_append_eq]
  exact not_exists.symm

theorem exists_mark_of_afterMark? (h : afterMark? marks text = some rest) :
    ∃ m ∈ marks, text = m ++ rest := by
  obtain ⟨m, hm, hrest⟩ := List.exists_of_findSome?_eq_some h
  exact ⟨m, hm, (List.isPrefixOf?_eq_some_iff_append_eq.1 hrest).symm⟩

/-! ## Absence -/

/-- No mark occurs in the text. -/
def Absent (marks : List (List Char)) (text : List Char) : Prop :=
  ∀ m ∈ marks, ¬m <:+: text

/-- Marks that are absent from a text are absent from its parts. -/
theorem Absent.of_part {part : List Char} (h : Absent marks text) (hpart : part <:+: text) :
    Absent marks part :=
  fun m hm hin => h m hm (hin.trans hpart)

/-- A text without one character of each mark has none of the marks. -/
theorem absent_of_forall_mem (h : ∀ m ∈ marks, ∃ c ∈ m, c ∉ text) : Absent marks text := by
  intro m hm hin
  obtain ⟨c, hc, hnot⟩ := h m hm
  exact hnot (hin.subset hc)

theorem absent_cons {c : Char} :
    Absent marks (c :: text) ↔ (∀ m ∈ marks, ¬m <+: c :: text) ∧ Absent marks text := by
  simp only [Absent, List.infix_cons_iff, not_or, ← forall_and]

/-- No mark is found exactly if none occurs. -/
theorem splitFirst?_eq_none_iff : splitFirst? marks text = none ↔ Absent marks text := by
  induction text with
  | nil =>
    rw [splitFirst?, Option.map_eq_none_iff, afterMark?_eq_none_iff, Absent]
    simp only [List.infix_nil, List.prefix_nil]
  | cons c text ih =>
    rw [splitFirst?, absent_cons, ← ih]
    cases h : afterMark? marks (c :: text) with
    | none =>
      rw [Option.map_eq_none_iff]
      exact (and_iff_right (afterMark?_eq_none_iff.1 h)).symm
    | some rest =>
      obtain ⟨m, hm, htext⟩ := exists_mark_of_afterMark? h
      exact iff_of_false (by simp) fun hnot => hnot.1 m hm ⟨rest, htext.symm⟩

/-! ## Splitting at marks -/

/-- Marks of one length, none of which holds the first character of one past its own first. -/
def Separating (marks : List (List Char)) : Prop :=
  [] ∉ marks ∧ ∀ m ∈ marks, ∀ n ∈ marks, m.length = n.length ∧ ∀ c ∈ n.head?, c ∉ m.tail

/-- A mark at the start is found, whatever follows. -/
theorem afterMark?_append (hsep : Separating marks) (hmark : mark ∈ marks) :
    afterMark? marks (mark ++ rest) = some rest := by
  cases h : afterMark? marks (mark ++ rest) with
  | none => exact absurd (List.prefix_append mark rest) (afterMark?_eq_none_iff.1 h mark hmark)
  | some found =>
    obtain ⟨m, hm, heq⟩ := exists_mark_of_afterMark? h
    rw [(List.append_inj heq (hsep.2 mark hmark m hm).1).2]

/-- Marks that are absent from `before` do not straddle its end. -/
theorem not_prefix_append (hsep : Separating marks) (hmark : mark ∈ marks) {c : Char}
    (habsent : Absent marks (c :: before)) {m : List Char} (hm : m ∈ marks) :
    ¬m <+: c :: (before ++ mark ++ rest) := by
  intro hpre
  have hfree : ¬m <+: c :: before := (absent_cons.1 habsent).1 m hm
  have hpre' : c :: before <+: c :: (before ++ mark ++ rest) :=
    ⟨mark ++ rest, by simp⟩
  rcases List.prefix_or_prefix_of_prefix hpre hpre' with h | ⟨excess, hexcess⟩
  · exact hfree h
  · cases excess with
    | nil => exact hfree ⟨[], by simp [← hexcess]⟩
    | cons d excess =>
      -- what `m` holds past `before` starts with the first character of `mark`
      have hd : d :: excess <+: mark ++ rest := by
        rw [← hexcess, List.append_assoc, ← List.cons_append] at hpre
        exact (List.prefix_append_right_inj _).1 hpre
      cases mark with
      | nil => exact hsep.1 hmark
      | cons first mark =>
        obtain ⟨rfl, -⟩ := List.cons_prefix_cons.1 hd
        refine (hsep.2 m hm _ hmark).2 d rfl ?_
        simp [← hexcess]

/-- A text is split at the first mark that occurs in it. -/
theorem splitFirst?_append (hsep : Separating marks) (hmark : mark ∈ marks)
    (habsent : Absent marks before) :
    splitFirst? marks (before ++ mark ++ rest) = some (before, rest) := by
  induction before with
  | nil =>
    have hfound : afterMark? marks (mark ++ rest) = some rest := afterMark?_append hsep hmark
    cases hm : mark with
    | nil => exact absurd (hm ▸ hmark) hsep.1
    | cons c mark =>
      subst hm
      rw [List.nil_append, List.cons_append, splitFirst?]
      rw [List.cons_append] at hfound
      rw [hfound]
  | cons c before ih =>
    have hnone : afterMark? marks (c :: (before ++ mark ++ rest)) = none :=
      afterMark?_eq_none_iff.2 fun m hm => not_prefix_append hsep hmark habsent hm
    rw [List.cons_append, List.cons_append, splitFirst?, hnone, ih (absent_cons.1 habsent).2]
    rfl

/-- A split is at a mark, and there is no mark before it. -/
theorem eq_append_of_splitFirst? (hne : [] ∉ marks)
    (h : splitFirst? marks text = some (before, rest)) :
    (∃ m ∈ marks, text = before ++ m ++ rest) ∧ Absent marks before := by
  induction text generalizing before with
  | nil =>
    rw [splitFirst?, Option.map_eq_some_iff] at h
    obtain ⟨found, hfound, heq⟩ := h
    obtain ⟨rfl, rfl⟩ := Prod.mk.inj heq
    obtain ⟨m, hm, htext⟩ := exists_mark_of_afterMark? hfound
    exact ⟨⟨m, hm, htext⟩, fun n hn hin => hne (List.infix_nil.1 hin ▸ hn)⟩
  | cons c text ih =>
    rw [splitFirst?] at h
    cases hfront : afterMark? marks (c :: text) with
    | some found =>
      rw [hfront] at h
      obtain ⟨rfl, rfl⟩ := Prod.mk.inj (Option.some.inj h)
      obtain ⟨m, hm, htext⟩ := exists_mark_of_afterMark? hfront
      exact ⟨⟨m, hm, htext⟩, fun n hn hin => hne (List.infix_nil.1 hin ▸ hn)⟩
    | none =>
      rw [hfront] at h
      obtain ⟨⟨before', rest'⟩, hsplit, heq⟩ := Option.map_eq_some_iff.1 h
      obtain ⟨rfl, rfl⟩ := Prod.mk.inj heq
      obtain ⟨⟨m, hm, rfl⟩, habsent⟩ := ih hsplit
      refine ⟨⟨m, hm, rfl⟩, absent_cons.2 ⟨fun n hn hpre => ?_, habsent⟩⟩
      refine afterMark?_eq_none_iff.1 hfront n hn (hpre.trans ⟨m ++ rest', ?_⟩)
      simp

/-- With separating marks, a split is at a mark with none before it, and at nothing else. -/
theorem splitFirst?_eq_some_iff (hsep : Separating marks) :
    splitFirst? marks text = some (before, rest) ↔
      (∃ m ∈ marks, text = before ++ m ++ rest) ∧ Absent marks before := by
  refine ⟨eq_append_of_splitFirst? hsep.1, ?_⟩
  rintro ⟨⟨m, hm, rfl⟩, habsent⟩
  exact splitFirst?_append hsep hm habsent

/-- No mark occurs in what stands before the leftmost occurrence of one. -/
theorem absent_of_leftmost (hne : [] ∉ marks)
    (hleft : ∀ m ∈ marks, ∀ front back, before ++ mark ++ rest = front ++ m ++ back →
      before.length ≤ front.length) : Absent marks before := by
  rintro m hm ⟨front, back, rfl⟩
  have hle := hleft m hm front (back ++ mark ++ rest) (by simp only [List.append_assoc])
  have hpos : 0 < m.length := List.length_pos_of_ne_nil fun hnil => hne (hnil ▸ hm)
  simp only [List.length_append] at hle
  omega

/-- Where no mark occurs before the split, no occurrence starts to its left. -/
theorem leftmost_of_absent (hsep : Separating marks) (hmark : mark ∈ marks)
    (habsent : Absent marks before) {m front back : List Char} (hm : m ∈ marks)
    (h : before ++ mark ++ rest = front ++ m ++ back) : before.length ≤ front.length := by
  by_contra hlt
  -- `before` goes on after `front`, and there the occurrence would straddle its end
  rw [List.append_assoc, List.append_assoc] at h
  obtain ⟨later, rfl⟩ : front <+: before :=
    List.prefix_of_prefix_length_le ⟨_, rfl⟩ ⟨_, h⟩ (by omega)
  rw [List.append_assoc, List.append_cancel_left_eq] at h
  cases later with
  | nil => simp at hlt
  | cons c later =>
    have hpart : Absent marks (c :: later) := habsent.of_part (List.suffix_append _ _).isInfix
    have hin : m <+: c :: (later ++ mark ++ rest) :=
      ⟨back, by rw [← h, List.cons_append, List.append_assoc]⟩
    exact not_prefix_append hsep hmark hpart hm hin

/-- The split is at one separator, which has `n` separators before it. -/
theorem splitNth?_eq_some_iff {sep : Char} {n : Nat} :
    splitNth? sep n text = some (before, rest) ↔
      text = before ++ sep :: rest ∧ before.count sep = n := by
  induction text generalizing n before with
  | nil => simp [splitNth?]
  | cons c text ih =>
    -- a character that does not end the split stands first in what precedes the separator
    have hstep : ∀ {k : Nat}, (splitNth? sep k text).map (fun parts => (c :: parts.1, parts.2)) =
        some (before, rest) ↔
        ∃ later, before = c :: later ∧ text = later ++ sep :: rest ∧ later.count sep = k := by
      intro k
      rw [Option.map_eq_some_iff]
      constructor
      · rintro ⟨⟨later, rest'⟩, hsplit, heq⟩
        obtain ⟨rfl, rfl⟩ := Prod.mk.inj heq
        exact ⟨later, rfl, ih.1 hsplit⟩
      · rintro ⟨later, rfl, hsplit⟩
        exact ⟨(later, rest), ih.2 hsplit, rfl⟩
    -- and then the text starts with it
    have hfront : ∀ {k : Nat}, (∃ later, before = c :: later ∧ text = later ++ sep :: rest ∧
        later.count sep = k) ↔ before ≠ [] ∧ c :: text = before ++ sep :: rest ∧
          before.count sep = if c = sep then k + 1 else k := by
      intro k
      cases before with
      | nil => simp
      | cons d before =>
        simp only [List.cons.injEq, List.cons_append, ne_eq, reduceCtorEq, not_false_eq_true,
          true_and, and_assoc, List.count_cons, beq_iff_eq]
        constructor
        · rintro ⟨later, rfl, rfl, rfl, rfl⟩
          exact ⟨rfl, rfl, by split <;> rfl⟩
        · rintro ⟨rfl, rfl, hcount⟩
          exact ⟨before, rfl, rfl, rfl, by split at hcount <;> omega⟩
    by_cases hc : c = sep
    · subst hc
      cases n with
      | zero =>
        simp only [splitNth?, if_true, Option.some.injEq, Prod.mk.injEq]
        cases before with
        | nil => simp
        | cons d before => simp +contextual [eq_comm]
      | succ n =>
        simp only [splitNth?, if_true, hstep, hfront]
        refine and_iff_right_of_imp ?_
        rintro ⟨-, hcount⟩ rfl
        simp at hcount
    · simp only [splitNth?, if_neg hc, hstep, hfront]
      refine and_iff_right_of_imp ?_
      rintro ⟨htext, -⟩ rfl
      exact hc (List.cons.inj htext).1

/-! ## All separators -/

section

variable {sep : Char} {part piece : List Char}

/-- A part without the separator is not split. -/
theorem splitOn_of_not_mem (h : sep ∉ part) : splitOn sep part = [part] := by
  induction part with
  | nil => rfl
  | cons c part ih =>
    rw [List.mem_cons, not_or] at h
    rw [splitOn, if_neg (Ne.symm h.1), ih h.2]

theorem splitOn_ne_nil (text : List Char) : splitOn sep text ≠ [] := by
  cases text with
  | nil => simp [splitOn]
  | cons c text =>
    rw [splitOn]
    split
    · exact List.cons_ne_nil _ _
    · split <;> exact List.cons_ne_nil _ _

/-- The pieces around a separator are those before it and those after it. -/
theorem splitOn_append_cons (before rest : List Char) :
    splitOn sep (before ++ sep :: rest) = splitOn sep before ++ splitOn sep rest := by
  induction before with
  | nil => simp [splitOn]
  | cons c before ih =>
    rw [List.cons_append, splitOn, splitOn, ih]
    by_cases hc : c = sep
    · rw [if_pos hc, if_pos hc, List.cons_append]
    · rw [if_neg hc, if_neg hc]
      cases hpieces : splitOn sep before with
      | nil => exact absurd hpieces (splitOn_ne_nil before)
      | cons piece pieces => rfl

theorem eq_nil_of_mem_splitOn {run : List Char} (hrun : ∀ c ∈ run, c = sep)
    (h : piece ∈ splitOn sep run) : piece = [] := by
  induction run with
  | nil => exact List.mem_singleton.1 h
  | cons c run ih =>
    obtain ⟨rfl, hrun⟩ := List.forall_mem_cons.1 hrun
    rw [splitOn, if_pos rfl, List.mem_cons] at h
    exact h.elim id (ih hrun)

/-- Separators at the two ends of a text only add empty pieces. -/
theorem mem_splitOn_padded {lead trail : List Char} (hpiece : piece ≠ [])
    (hlead : ∀ c ∈ lead, c = sep) (htrail : ∀ c ∈ trail, c = sep) :
    piece ∈ splitOn sep (lead ++ text ++ trail) ↔ piece ∈ splitOn sep text := by
  induction lead with
  | nil =>
    cases trail with
    | nil => rw [List.nil_append, List.append_nil]
    | cons c trail =>
      obtain ⟨rfl, htrail⟩ := List.forall_mem_cons.1 htrail
      rw [List.nil_append, splitOn_append_cons, List.mem_append]
      exact or_iff_left fun h => hpiece (eq_nil_of_mem_splitOn htrail h)
  | cons c lead ih =>
    obtain ⟨rfl, hlead⟩ := List.forall_mem_cons.1 hlead
    rw [List.cons_append, List.cons_append, splitOn, if_pos rfl, List.mem_cons, ih hlead]
    exact or_iff_right hpiece

/-- What stands behind the last separator goes on with a text that has no separator. -/
theorem splitOn_append_of_not_mem {tail : List Char} (h : sep ∉ tail) (text : List Char) :
    ∃ front last, splitOn sep text = front ++ [last] ∧
      splitOn sep (text ++ tail) = front ++ [last ++ tail] := by
  induction text with
  | nil => exact ⟨[], [], rfl, splitOn_of_not_mem h⟩
  | cons c text ih =>
    obtain ⟨front, last, htext, happend⟩ := ih
    rw [List.cons_append, splitOn, splitOn, htext, happend]
    by_cases hc : c = sep
    · exact ⟨[] :: front, last, by simp [hc], by simp [hc]⟩
    · cases front with
      | nil => exact ⟨[], c :: last, by simp [hc], by simp [hc]⟩
      | cons piece front => exact ⟨(c :: piece) :: front, last, by simp [hc], by simp [hc]⟩

/-- Parts without the separator are found again. -/
theorem splitOn_intercalate {parts : List (List Char)} (hne : parts ≠ [])
    (h : ∀ part ∈ parts, sep ∉ part) : splitOn sep ([sep].intercalate parts) = parts := by
  induction parts with
  | nil => exact absurd rfl hne
  | cons part parts ih =>
    obtain ⟨hpart, hparts⟩ := List.forall_mem_cons.1 h
    cases parts with
    | nil => rw [List.intercalate_singleton, splitOn_of_not_mem hpart]
    | cons next parts =>
      rw [List.intercalate_cons_cons, List.append_assoc, List.singleton_append,
        splitOn_append_cons, splitOn_of_not_mem hpart, ih (List.cons_ne_nil _ _) hparts]
      rfl

end

theorem all_intercalate {p : Char → Bool} {separator : List Char} {parts : List (List Char)}
    (hseparator : separator.all p = true) (h : ∀ part ∈ parts, part.all p = true) :
    (separator.intercalate parts).all p = true := by
  induction parts with
  | nil => rfl
  | cons part parts ih =>
    obtain ⟨hpart, hparts⟩ := List.forall_mem_cons.1 h
    cases parts with
    | nil => simpa using hpart
    | cons next parts =>
      rw [List.intercalate_cons_cons, List.all_append, List.all_append, hpart, hseparator,
        ih hparts]
      rfl

end SchemaPlan.Text

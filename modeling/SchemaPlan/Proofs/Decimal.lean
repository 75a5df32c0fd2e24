import Mathlib.Data.List.Induction
import Mathlib.Tactic.IntervalCases
import SchemaPlan.Decimal

/-!
# Decimal numerals

The numeral of a natural number is a run of ASCII digits, which denotes the number, also with zeros
in front of it (`value_padded`). Padded to a width that the number fits in, it has just this width
(`length_padded`). The numerals of integers are those of the library (`ofInt_eq_toString`).
-/

namespace SchemaPlan.Decimal

theorem isDigit_digit {n : Nat} (h : n < 10) : (digit n).isDigit = true := by
  interval_cases n <;> rfl

/-- A numeral consists of digits. -/
theorem isDigit_of_mem_digits {n : Nat} {c : Char} (hc : c ∈ digits n) : c.isDigit = true := by
  induction n using digits.induct with
  | case1 n hlt =>
    rw [digits, if_pos hlt, List.mem_singleton] at hc
    exact hc ▸ isDigit_digit hlt
  | case2 n hge ih =>
    rw [digits, if_neg hge, List.mem_append, List.mem_singleton] at hc
    rcases hc with hc | rfl
    · exact ih hc
    · exact isDigit_digit (Nat.mod_lt n (by decide))

/-- A numeral is not empty. -/
theorem digits_ne_nil (n : Nat) : digits n ≠ [] := by
  rw [digits]
  split
  · exact List.cons_ne_nil _ _
  · exact List.append_ne_nil_of_right_ne_nil _ (List.cons_ne_nil _ _)

theorem digitValue_digit {n : Nat} (h : n < 10) : digitValue (digit n) = n := by
  interval_cases n <;> rfl

theorem digitValue_lt {c : Char} (hc : c.isDigit = true) : digitValue c < 10 := by
  simp only [Char.isDigit, Bool.and_eq_true, decide_eq_true_eq, UInt32.le_iff_toNat_le] at hc
  have hhigh : c.toNat ≤ 57 := hc.2
  have hzero : '0'.toNat = 48 := rfl
  rw [digitValue, hzero]
  omega

/-- A further digit multiplies by ten and adds its value. -/
theorem value_concat (ds : List Char) (c : Char) :
    value (ds ++ [c]) = 10 * value ds + digitValue c := by
  rw [value, List.foldl_append, List.foldl_cons, List.foldl_nil, ← value]

/-- So many digits denote a number below this power of ten. -/
theorem value_lt {ds : List Char} (hds : ∀ c ∈ ds, c.isDigit = true) :
    value ds < 10 ^ ds.length := by
  induction ds using List.reverseRecOn with
  | nil => decide
  | append_singleton ds c ih =>
    obtain ⟨hds, hc⟩ := List.forall_mem_append.1 hds
    have hdigit := digitValue_lt (hc c (List.mem_singleton_self c))
    have hvalue := ih hds
    rw [value_concat, List.length_append, List.length_singleton, Nat.pow_succ]
    omega

/-- The numeral of a number denotes the number. -/
theorem value_digits (n : Nat) : value (digits n) = n := by
  induction n using digits.induct with
  | case1 n hlt =>
    rw [digits, if_pos hlt, value, List.foldl_cons, List.foldl_nil, digitValue_digit hlt]
    omega
  | case2 n hge ih =>
    rw [digits, if_neg hge, value_concat, ih, digitValue_digit (Nat.mod_lt n (by decide))]
    omega

/-- The numeral of a number is read as the number. -/
theorem value?_digits (n : Nat) : value? (digits n) = some n := by
  have hdigits : (digits n).all Char.isDigit = true :=
    List.all_eq_true.2 fun _ => isDigit_of_mem_digits
  rw [value?, hdigits, decide_eq_true (digits_ne_nil n), value_digits]
  rfl

/-! ## The numerals of the library -/

theorem digit_eq_digitChar {n : Nat} (h : n < 10) : digit n = n.digitChar := by
  interval_cases n <;> rfl

/-- Numerals are those of the library. -/
theorem digits_eq_toDigits (n : Nat) : digits n = Nat.toDigits 10 n := by
  induction n using digits.induct with
  | case1 n hlt => rw [digits, if_pos hlt, digit_eq_digitChar hlt, Nat.toDigits_of_lt_base hlt]
  | case2 n hge ih =>
    rw [digits, if_neg hge, ih, digit_eq_digitChar (Nat.mod_lt n (by decide)),
      ← Nat.toDigits_of_base_le (by decide) (Nat.not_lt.1 hge)]

theorem ofInt_eq_toString (i : Int) : ofInt i = toString i := by
  cases i with
  | ofNat n => rw [ofInt, ofNat, digits_eq_toDigits, ← Nat.repr_eq_ofList_toDigits]; rfl
  | negSucc n =>
    rw [ofInt, digits_eq_toDigits, String.ofList_cons, ← Nat.repr_eq_ofList_toDigits]
    rfl

/-! ## Zeros in front -/

/-- Zeros in front do not change what a numeral denotes. -/
theorem value_replicate_append (k : Nat) (ds : List Char) :
    value (List.replicate k '0' ++ ds) = value ds := by
  induction k with
  | zero => rfl
  | succ k ih => exact ih

/-- A padded numeral denotes the number. -/
theorem value_padded (width n : Nat) : value (padded width n) = n := by
  rw [padded, value_replicate_append, value_digits]

/-- A padded numeral consists of digits. -/
theorem isDigit_of_mem_padded {width n : Nat} {c : Char} (hc : c ∈ padded width n) :
    c.isDigit = true := by
  rcases List.mem_append.1 hc with hc | hc
  · rw [(List.mem_replicate.1 hc).2]
    rfl
  · exact isDigit_of_mem_digits hc

theorem padded_ne_nil (width n : Nat) : padded width n ≠ [] :=
  List.append_ne_nil_of_right_ne_nil _ (digits_ne_nil n)

/-- A number below a power of ten has no more digits than the power. -/
theorem length_digits_le {width n : Nat} (hwidth : 0 < width) (h : n < 10 ^ width) :
    (digits n).length ≤ width := by
  induction n using digits.induct generalizing width with
  | case1 n hlt =>
    rw [digits, if_pos hlt]
    exact hwidth
  | case2 n hge ih =>
    obtain ⟨w, rfl⟩ := Nat.exists_eq_succ_of_ne_zero hwidth.ne'
    have hdiv : n / 10 < 10 ^ w := by
      rw [Nat.pow_succ] at h
      omega
    have hw : 0 < w := by
      rcases Nat.eq_zero_or_pos w with rfl | hw
      · omega
      · exact hw
    have hlength := ih hw hdiv
    rw [digits, if_neg hge, List.length_append, List.length_singleton]
    omega

/-- A number that fits into the width is padded to just this width. -/
theorem length_padded {width n : Nat} (hwidth : 0 < width) (h : n < 10 ^ width) :
    (padded width n).length = width := by
  have hlength := length_digits_le hwidth h
  rw [padded, List.length_append, List.length_replicate]
  omega

end SchemaPlan.Decimal

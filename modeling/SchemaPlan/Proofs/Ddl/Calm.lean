import SchemaPlan.Ddl.Table
import SchemaPlan.Proofs.Ddl.Fragment
import SchemaPlan.Proofs.Decimal

/-!
# Calm text

What stands outside quotes must not end a statement or begin a comment, whatever is next to it.
`CalmText` says this of one text and is kept by putting texts together (`calmText_append`), so
`Calm`, which says it of every plain part of a draft, is a matter of each part alone.
-/

namespace SchemaPlan.Ddl

/-! ## Calm texts -/

/-- The characters that open quotes, escape, end a statement or can be a part of `/*`. -/
def disruptive : List Char :=
  ['\x60', '"', '\\', ';', '/', '*']

/-- No character is disruptive, and a dash stands before a character that is no dash. -/
def CalmText (l : List Char) : Prop :=
  (∀ c ∈ l, c ∉ disruptive) ∧ l.IsChain (fun c d => c = '-' → d ≠ '-') ∧ l.getLast? ≠ some '-'

-- the characters of the text are looked at one by one, not every character there is
instance : DecidablePred CalmText := fun l =>
  @instDecidableAnd _ _ (List.decidableBAll _ l) (inferInstanceAs (Decidable (_ ∧ _)))

/-- Calm texts stay calm when one follows the other. -/
theorem calmText_append {l k : List Char} (hl : CalmText l) (hk : CalmText k) :
    CalmText (l ++ k) := by
  obtain ⟨hfree, hchain, hlast⟩ := hl
  obtain ⟨hfree', hchain', hlast'⟩ := hk
  refine ⟨fun c hc => ?_, ?_, ?_⟩
  · rcases List.mem_append.1 hc with hc | hc
    · exact hfree c hc
    · exact hfree' c hc
  · refine List.isChain_append.2 ⟨hchain, hchain', fun c hc d _ heq => ?_⟩
    exact absurd (heq ▸ hc) hlast
  · rw [List.getLast?_append]
    cases h : k.getLast? with
    | none => exact hlast
    | some d => rwa [h] at hlast'

/-- A text without dashes is calm if no character is disruptive. -/
theorem calmText_of_forall {l : List Char} (h : ∀ c ∈ l, c ∉ '-' :: disruptive) : CalmText l := by
  refine ⟨fun c hc hmem => h c hc (List.mem_cons_of_mem _ hmem), ?_, ?_⟩
  · have hdash : ∀ c ∈ l, c ≠ '-' := fun c hc heq => h c hc (heq ▸ List.mem_cons_self)
    have hall : l.Pairwise fun c d => c = '-' → d ≠ '-' :=
      List.pairwise_of_forall_mem_list fun c hc _ _ heq => absurd heq (hdash c hc)
    exact hall.isChain
  · intro hlast
    exact h _ (List.mem_of_getLast? hlast) List.mem_cons_self

/-- A calm text does not open a comment. -/
theorem CalmText.no_dashes {l : List Char} (h : CalmText l) : ¬['-', '-'] <:+: l := by
  rintro ⟨before, after, rfl⟩
  have hdashes := (List.isChain_append.1 (List.isChain_append.1 h.2.1).1).2.1
  exact List.isChain_pair.1 hdashes rfl rfl

/-- A calm text opens no quotes, escapes nothing and ends no statement. -/
theorem CalmText.not_mem {l : List Char} (h : CalmText l) {c : Char} (hc : c ∈ disruptive) :
    c ∉ l :=
  fun hmem => h.1 c hmem hc

/-! ## Types and numerals -/

/-- Texts of characters that types may have are calm. -/
theorem calmText_of_typeChars {l : List Char} (h : ∀ c ∈ l, isTypeChar c = true) :
    CalmText l := by
  have hnone : ('-' :: disruptive).all (fun d => !isTypeChar d) = true := rfl
  refine calmText_of_forall fun c hc hmem => ?_
  have hfalse := List.all_eq_true.1 hnone c hmem
  rw [h c hc] at hfalse
  exact Bool.false_ne_true hfalse

/-- Numerals are calm. -/
theorem calmText_digits (n : Nat) : CalmText (Decimal.digits n) := by
  refine calmText_of_typeChars fun c hc => ?_
  rw [isTypeChar, Char.isAlphanum, Decimal.isDigit_of_mem_digits hc, Bool.or_true, Bool.true_or]

/-- A dash in front of another character does no harm. -/
theorem calmText_dash {c : Char} {l : List Char} (hc : c ≠ '-') (h : CalmText (c :: l)) :
    CalmText ('-' :: c :: l) := by
  obtain ⟨hfree, hchain, hlast⟩ := h
  refine ⟨fun d hd => ?_, List.isChain_cons_cons.2 ⟨fun _ => hc, hchain⟩, ?_⟩
  · rcases List.mem_cons.1 hd with rfl | hd
    · decide
    · exact hfree d hd
  · rwa [List.getLast?_cons_cons]

/-- Numerals with a sign are calm: one dash is not a comment. -/
theorem calmText_ofInt (i : Int) : CalmText (Decimal.ofInt i).toList := by
  cases i with
  | ofNat n =>
    rw [Decimal.ofInt, Decimal.ofNat, String.toList_ofList]
    exact calmText_digits n
  | negSucc n =>
    rw [Decimal.ofInt, String.toList_ofList]
    have hcalm := calmText_digits (n + 1)
    have hdigit := fun c => Decimal.isDigit_of_mem_digits (n := n + 1) (c := c)
    cases h : Decimal.digits (n + 1) with
    | nil => exact absurd h (Decimal.digits_ne_nil _)
    | cons c l =>
      rw [h] at hcalm
      refine calmText_dash ?_ hcalm
      rintro rfl
      exact absurd (hdigit '-' (h ▸ List.mem_cons_self)) (by decide)

/-! ## Calm drafts -/

variable {Q : Type}

/-- Every plain part is calm. -/
def Calm (d : List (Fragment Q)) : Prop :=
  ∀ text, .plain text ∈ d → CalmText text.toList

theorem calm_nil : Calm (Q := Q) [] :=
  fun _ h => absurd h List.not_mem_nil

theorem calm_plain {text : String} (h : CalmText text.toList) : Calm (Q := Q) (plain text) := by
  intro t ht
  rw [plain, List.mem_singleton] at ht
  cases ht
  exact h

theorem calm_quoted (q : Q) : Calm [.quoted q] := by
  intro t ht
  cases List.mem_singleton.1 ht

theorem calm_append {c d : List (Fragment Q)} (hc : Calm c) (hd : Calm d) : Calm (c ++ d) := by
  intro t ht
  rcases List.mem_append.1 ht with ht | ht
  · exact hc t ht
  · exact hd t ht

end SchemaPlan.Ddl

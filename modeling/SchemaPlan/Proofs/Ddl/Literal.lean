import SchemaPlan.Ddl.SplitPoint
import SchemaPlan.Proofs.Ddl.Settings
import SchemaPlan.Proofs.Named

/-!
# Literals and what they denote

`typedLiteral_eq_ok_iff` : a literal of a type of integers is written exactly if it denotes an
integer of the range of the type, and then as the decimal text of this integer.
`hasValue_of_typedLiteral` : whatever is written of a literal is a value of the type of its column.
-/

namespace SchemaPlan

namespace Ddl

/-! ## Integers -/

section

variable {signed : Bool} {least greatest i : Int} {text : List Char} {literal name : String}

theorem isDigit_iff {c : Char} : c.isDigit = true ↔ '0' ≤ c ∧ c ≤ '9' := by
  simp [Char.isDigit, Char.le_def]

/-- A text is read as a number exactly if it is a numeral that denotes the number. -/
theorem value?_eq_some_iff {n : Nat} :
    Decimal.value? text = some n ↔ IsNumeral text ∧ Nat.ofDigitChars 10 text 0 = n := by
  have hvalue : Decimal.value text = Nat.ofDigitChars 10 text 0 := rfl
  simp [Decimal.value?, IsNumeral, hvalue, isDigit_iff, and_assoc]

theorem not_isNumeral_cons {c : Char} (hc : c.isDigit = false) : ¬IsNumeral (c :: text) := by
  intro h
  rw [isDigit_iff.2 (h.2 c List.mem_cons_self)] at hc
  cases hc

/-- After a plus stands a numeral of the number. -/
theorem isSignedNumeral_plus_iff : IsSignedNumeral signed ('+' :: text) i ↔
    IsNumeral text ∧ (Nat.ofDigitChars 10 text 0 : Int) = i := by
  constructor
  · rintro (h | h)
    · exact absurd h (not_isNumeral_cons rfl)
    · exact ⟨h, rfl⟩
  · rintro ⟨h, rfl⟩
    exact .plus h

/-- After a minus stands a numeral of the opposite number, if signs are allowed. -/
theorem isSignedNumeral_minus_iff : IsSignedNumeral signed ('-' :: text) i ↔
    signed = true ∧ IsNumeral text ∧ -(Nat.ofDigitChars 10 text 0 : Int) = i := by
  constructor
  · rintro (h | _ | ⟨hsigned, h⟩)
    · exact absurd h (not_isNumeral_cons rfl)
    · exact ⟨hsigned, h, rfl⟩
  · rintro ⟨hsigned, h, rfl⟩
    exact .minus hsigned h

/-- A numeral without a sign denotes what its digits denote. -/
theorem isSignedNumeral_bare_iff (hplus : ∀ ds, text ≠ '+' :: ds)
    (hminus : ∀ ds, text ≠ '-' :: ds) : IsSignedNumeral signed text i ↔
      IsNumeral text ∧ (Nat.ofDigitChars 10 text 0 : Int) = i := by
  constructor
  · intro h
    cases h with
    | bare h => exact ⟨h, rfl⟩
    | plus h => exact absurd rfl (hplus _)
    | minus _ h => exact absurd rfl (hminus _)
  · rintro ⟨h, rfl⟩
    exact .bare h

/-- What is read in a range are the signed numerals of its numbers. -/
theorem read?_eq_some_iff {range : Decimal.IntegerRange} : range.read? text = some i ↔
    IsSignedNumeral range.signed text i ∧ range.least ≤ i ∧ i ≤ range.greatest := by
  have hcontains : ∀ found : Option Int,
      (found.bind fun j => if range.contains j then some j else none) = some i ↔
        found = some i ∧ range.least ≤ i ∧ i ≤ range.greatest := by
    intro found
    cases found with
    | none => simp
    | some j =>
      simp only [Option.bind_some, Option.ite_none_right_eq_some, Option.some.injEq,
        Decimal.IntegerRange.contains, Bool.and_eq_true, decide_eq_true_eq]
      constructor
      · rintro ⟨h, rfl⟩
        exact ⟨rfl, h⟩
      · rintro ⟨rfl, h⟩
        exact ⟨h, rfl⟩
  have hread : ∀ ds, (Decimal.value? ds).map Int.ofNat = some i ↔
      IsNumeral ds ∧ (Nat.ofDigitChars 10 ds 0 : Int) = i := by
    simp [value?_eq_some_iff]
  unfold Decimal.IntegerRange.read?
  split
  · rw [isSignedNumeral_plus_iff, ← hread]
    exact hcontains _
  · rename_i ds
    have hsigned : (if range.signed then (Decimal.value? ds).map fun n => -Int.ofNat n else none) =
        some i ↔ IsSignedNumeral range.signed ('-' :: ds) i := by
      rw [isSignedNumeral_minus_iff]
      simp [value?_eq_some_iff]
    rw [← hsigned, ← hcontains]
    split <;> rfl
  · rename_i hplus hminus
    rw [isSignedNumeral_bare_iff hplus hminus, ← hread]
    exact hcontains _

/-- There is no blank in a numeral. -/
theorem isBlank_of_isSignedNumeral (h : IsSignedNumeral signed text i) :
    ∀ c ∈ text, Text.isBlank c = false := by
  have hdigits : ∀ {ds : List Char}, IsNumeral ds → ∀ c ∈ ds, Text.isBlank c = false :=
    fun hds c hc => Text.isBlank_of_isAlphanum
      (by rw [Char.isAlphanum, isDigit_iff.2 (hds.2 c hc), Bool.or_true])
  cases h with
  | bare h => exact hdigits h
  | plus h => exact List.forall_mem_cons.2 ⟨by decide, hdigits h⟩
  | minus _ h => exact List.forall_mem_cons.2 ⟨by decide, hdigits h⟩

/-- Of the blanks around a numeral, all are dropped and nothing else. -/
theorem denotes_iff : Denotes signed literal i ↔
    IsSignedNumeral signed (Text.dropEnds Text.isBlank literal.toList) i := by
  constructor
  · rintro ⟨before, numeral, after, hliteral, hblank, h⟩
    have hsolid := isBlank_of_isSignedNumeral h
    have hself : Text.dropEnds Text.isBlank numeral = numeral :=
      Text.dropEnds_eq_self (fun c hc => hsolid c (List.mem_of_mem_head? hc))
        fun c hc => hsolid c (List.mem_of_getLast? hc)
    obtain ⟨hbefore, hafter⟩ := List.forall_mem_append.1 hblank
    rwa [hliteral, Text.dropEnds_append_append hbefore hafter, hself]
  · intro h
    obtain ⟨before, after, hliteral, hbefore, hafter⟩ :=
      Text.eq_append_dropEnds Text.isBlank literal.toList
    exact ⟨before, _, after, hliteral, List.forall_mem_append.2 ⟨hbefore, hafter⟩, h⟩

/-- The decimal text of an integer denotes it. -/
theorem denotes_toString (hsigned : i < 0 → signed = true) : Denotes signed (toString i) i := by
  have hnumeral : ∀ n, IsNumeral (Decimal.digits n) := fun n =>
    ⟨Decimal.digits_ne_nil n, fun c hc => isDigit_iff.1 (Decimal.isDigit_of_mem_digits hc)⟩
  have hvalue : ∀ n, Nat.ofDigitChars 10 (Decimal.digits n) 0 = n := Decimal.value_digits
  refine ⟨[], (toString i).toList, [], by simp, by simp, ?_⟩
  rw [← Decimal.ofInt_eq_toString]
  cases i with
  | ofNat n =>
    rw [Decimal.ofInt, Decimal.ofNat, String.toList_ofList]
    have h := @IsSignedNumeral.bare signed _ (hnumeral n)
    rwa [hvalue] at h
  | negSucc n =>
    rw [Decimal.ofInt, String.toList_ofList]
    have h := IsSignedNumeral.minus (hsigned (Int.negSucc_lt_zero n)) (hnumeral (n + 1))
    rwa [hvalue] at h

/-! ## Types -/

/-- Each integer type has its range in the table of types. -/
theorem lookup_of_isIntegerType (h : IsIntegerType name signed least greatest) :
    literalTypes.lookup name = some (.integer ⟨least, greatest, signed⟩) := by
  cases h <;> decide

/-- Each range in the table of types is that of an integer type. -/
theorem isIntegerType_of_mem {range : Decimal.IntegerRange}
    (h : (name, .integer range) ∈ literalTypes) :
    IsIntegerType name range.signed range.least range.greatest := by
  simp only [literalTypes, List.mem_cons, Prod.mk.injEq, LiteralType.integer.injEq, reduceCtorEq,
    and_false, or_false, List.not_mem_nil] at h
  rcases h with ⟨rfl, rfl⟩ | ⟨rfl, rfl⟩ | ⟨rfl, rfl⟩ | ⟨rfl, rfl⟩ | ⟨rfl, rfl⟩ | ⟨rfl, rfl⟩ |
    ⟨rfl, rfl⟩ | ⟨rfl, rfl⟩
  · exact .int8
  · exact .int16
  · exact .int32
  · exact .int64
  · exact .uint8
  · exact .uint16
  · exact .uint32
  · exact .uint64

theorem mem_of_lookup {type : LiteralType} (h : literalTypes.lookup name = some type) :
    (name, type) ∈ literalTypes :=
  (lookup_eq_some_iff_mem (by decide)).1 h

/-- There is one type of truth values. -/
theorem eq_bool_of_mem (h : (name, .bool) ∈ literalTypes) : name = "Bool" := by
  simpa [literalTypes] using h

/-- The types of texts in the table are the types of texts. -/
theorem mem_textTypes_of_mem (h : (name, .text) ∈ literalTypes) : name ∈ textTypes := by
  simpa [literalTypes, textTypes] using h

/-- Only signed types have negative numbers. -/
theorem IsIntegerType.signed_of_neg (h : IsIntegerType name signed least greatest)
    (hleast : least ≤ i) (hneg : i < 0) : signed = true := by
  cases h <;> first | rfl | omega

end

/-! ## Literals -/

section

variable {c : Column} {literal : String} {p : Phrase} {signed : Bool} {least greatest : Int}

theorem write_plain (text : String) : Phrase.write (plain text) = text := by
  rw [Phrase.write, Phrase.chars, plain, List.flatMap_singleton, Fragment.chars,
    String.ofList_toList]

/-- What is read as a truth value is its word in any case, with blanks around it. -/
theorem word_of_readBool? {b : Bool} (h : readBool? literal.toList = some b) :
    (Text.trim literal).toList.map Char.toLower = (toString b).toList := by
  rw [Text.trim, String.toList_ofList]
  simp only [readBool?] at h
  split at h
  · rename_i hword
    cases h
    exact hword
  · split at h
    · rename_i hword
      cases h
      exact hword
    · cases h

/-- What is written of a literal of a type of integers. -/
theorem typedLiteral_eq_ok_iff (h : IsIntegerType c.baseType signed least greatest) :
    typedLiteral c literal = .ok p ↔
      ∃ i, Denotes signed literal i ∧ least ≤ i ∧ i ≤ greatest ∧ p = plain (toString i) := by
  have hread : ∀ i, (⟨least, greatest, signed⟩ : Decimal.IntegerRange).read?
      (Text.dropEnds Text.isBlank literal.toList) = some i ↔
        Denotes signed literal i ∧ least ≤ i ∧ i ≤ greatest := fun i => by
    rw [read?_eq_some_iff, denotes_iff]
  simp only [typedLiteral, lookup_of_isIntegerType h, ← Decimal.ofInt_eq_toString]
  constructor
  · intro hok
    split at hok
    · rename_i i hi
      cases hok
      obtain ⟨hdenotes, hleast, hgreatest⟩ := (hread i).1 hi
      exact ⟨i, hdenotes, hleast, hgreatest, rfl⟩
    · cases hok
  · rintro ⟨i, hdenotes, hleast, hgreatest, rfl⟩
    rw [(hread i).2 ⟨hdenotes, hleast, hgreatest⟩]

/-- What is written of a literal of a type of integers is a literal that is written as it is. -/
theorem typedLiteral_write (h : IsIntegerType c.baseType signed least greatest)
    (hp : typedLiteral c literal = .ok p) : typedLiteral c p.write = .ok p := by
  obtain ⟨i, -, hleast, hgreatest, rfl⟩ := (typedLiteral_eq_ok_iff h).1 hp
  rw [write_plain]
  exact (typedLiteral_eq_ok_iff h).2
    ⟨i, denotes_toString (h.signed_of_neg hleast), hleast, hgreatest, rfl⟩

/-- A value that can be written is of the type of its column. -/
theorem hasValue_of_typedLiteral (h : typedLiteral c literal = .ok p) :
    c.HasValue literal (pieces (Draft.literal c literal)) := by
  unfold typedLiteral at h
  unfold Draft.literal
  cases hlookup : literalTypes.lookup c.baseType with
  | none => rw [hlookup] at h; cases h
  | some type =>
    cases type with
    | integer range =>
      simp only [hlookup] at h ⊢
      cases hread : range.read? (Text.dropEnds Text.isBlank literal.toList) with
      | none => rw [hread] at h; cases h
      | some i =>
        obtain ⟨hnumeral, hleast, hgreatest⟩ := read?_eq_some_iff.1 hread
        simp only [pieces_plain, Decimal.ofInt_eq_toString]
        exact .integer (isIntegerType_of_mem (mem_of_lookup hlookup)) (denotes_iff.2 hnumeral)
          hleast hgreatest
    | bool =>
      simp only [hlookup] at h ⊢
      cases hread : readBool? literal.toList with
      | none => rw [hread] at h; cases h
      | some b =>
        have hwrite : writeBool b = toString b := by cases b <;> rfl
        simp only [pieces_plain, hwrite]
        exact .bool (eq_bool_of_mem (mem_of_lookup hlookup)) (word_of_readBool? hread)
    | text => exact .text (mem_textTypes_of_mem (mem_of_lookup hlookup))

/-- A literal of any other type is refused. -/
theorem typedLiteral_eq_error (hinteger : ∀ signed least greatest,
      ¬IsIntegerType c.baseType signed least greatest)
    (hbool : c.baseType ≠ "Bool") (htext : c.baseType ∉ textTypes) (literal : String) :
    typedLiteral c literal = .error (.invalidLiteral c.name c.type literal) := by
  have hlookup : literalTypes.lookup c.baseType = none := by
    cases h : literalTypes.lookup c.baseType with
    | none => rfl
    | some type =>
      cases type with
      | integer range => exact absurd (isIntegerType_of_mem (mem_of_lookup h)) (hinteger _ _ _)
      | bool => exact absurd (eq_bool_of_mem (mem_of_lookup h)) hbool
      | text => exact absurd (mem_textTypes_of_mem (mem_of_lookup h)) htext
  rw [typedLiteral, hlookup]

end

end Ddl

end SchemaPlan

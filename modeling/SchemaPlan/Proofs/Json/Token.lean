import Mathlib.Data.List.Chain
import Mathlib.Data.List.TakeWhile
import SchemaPlan.Json.Token
import SchemaPlan.Proofs.Decimal

/-!
# Tokens read back

`tokensFrom?_chars` : the characters of a token that is not a spelled number are read as the token,
and what follows is read on its own. Words and numbers have no mark at their end, so for them what
follows has to end them (`EndsBare`).
-/

namespace SchemaPlan.Json

/-! ## Strings -/

theorem not_isLeading_toNat (c : Char) : isLeading c.toNat = false := by
  have hvalid : c.toNat < 0xD800 ∨ 0xDFFF < c.toNat ∧ c.toNat < 0x110000 := c.valid
  simp only [isLeading, Bool.and_eq_false_iff, decide_eq_false_iff_not]
  omega

theorem not_isTrailing_toNat (c : Char) : isTrailing c.toNat = false := by
  have hvalid : c.toNat < 0xD800 ∨ 0xDFFF < c.toNat ∧ c.toNat < 0x110000 := c.valid
  simp only [isTrailing, Bool.and_eq_false_iff, decide_eq_false_iff_not]
  omega

/-- No character is half a character. -/
theorem charsOfCodes?_map_toNat (cs : List Char) :
    charsOfCodes? (cs.map Char.toNat) = some cs := by
  induction cs with
  | nil => rfl
  | cons c cs ih =>
    cases cs with
    | nil => simp [charsOfCodes?, not_isLeading_toNat, not_isTrailing_toNat]
    | cons d cs =>
      simp only [List.map_cons, charsOfCodes?, not_isLeading_toNat, not_isTrailing_toNat] at ih ⊢
      simp [ih]

/-- A character that completes no token. -/
theorem tokensFrom?_cons {mode next : Mode} {c : Char} (h : mode.step c = some ([], next))
    (text : List Char) : tokensFrom? mode (c :: text) = tokensFrom? next text := by
  rw [tokensFrom?, h]
  cases htext : tokensFrom? next text <;> simp [htext]

/-- A short escape stands for its code. -/
theorem tokensFrom?_escape {codes : List Nat} {c : Char} {code : Nat}
    (h : escapedCode? c = some code) (hc : c ≠ 'u') (text : List Char) :
    tokensFrom? (.quoted codes) ('\\' :: c :: text) =
      tokensFrom? (.quoted (code :: codes)) text := by
  have hbackslash : (Mode.quoted codes).step '\\' = some ([], .escaped codes) := rfl
  rw [tokensFrom?_cons hbackslash, tokensFrom?_cons]
  rw [Mode.step, if_neg hc, h, Option.map_some]

theorem hexValue?_digitChar {n : Nat} (h : n < 16) : hexValue? (Nat.digitChar n) = some n := by
  decide +revert

/-- A hexadecimal digit is added to the code, and the last one completes it. -/
theorem tokensFrom?_hex {codes : List Nat} {code left n : Nat} (hn : n < 16) (text : List Char) :
    tokensFrom? (.hex codes code left) (Nat.digitChar n :: text) =
      tokensFrom? (if left ≤ 1 then .quoted ((16 * code + n) :: codes)
        else .hex codes (16 * code + n) (left - 1)) text := by
  refine tokensFrom?_cons ?_ text
  rw [Mode.step, hexValue?_digitChar hn]
  by_cases hleft : left ≤ 1 <;> simp [hleft]

/-- A character of a string is read as its code. -/
theorem tokensFrom?_writeChar (codes : List Nat) (c : Char) (text : List Char) :
    tokensFrom? (.quoted codes) (writeChar c ++ text) =
      tokensFrom? (.quoted (c.toNat :: codes)) text := by
  unfold writeChar
  split
  · next h =>
    simp only [Bool.or_eq_true, decide_eq_true_eq] at h
    rcases h with rfl | rfl
    · exact tokensFrom?_escape rfl (by decide) text
    · exact tokensFrom?_escape rfl (by decide) text
  split
  · next h => exact h ▸ tokensFrom?_escape rfl (by decide) text
  split
  · next h => exact h ▸ tokensFrom?_escape rfl (by decide) text
  split
  · next h => exact h ▸ tokensFrom?_escape rfl (by decide) text
  split
  · next h => exact h ▸ tokensFrom?_escape rfl (by decide) text
  split
  · next h => exact h ▸ tokensFrom?_escape rfl (by decide) text
  split
  · next h =>
    have hbackslash : (Mode.quoted codes).step '\\' = some ([], .escaped codes) := rfl
    have hu : (Mode.escaped codes).step 'u' = some ([], .hex codes 0 4) := rfl
    have hzero : '0' = Nat.digitChar 0 := rfl
    have hcode : 16 * (c.toNat / 16) + c.toNat % 16 = c.toNat := Nat.div_add_mod ..
    simp only [List.cons_append, List.nil_append]
    rw [tokensFrom?_cons hbackslash, tokensFrom?_cons hu, hzero]
    simp [tokensFrom?_hex, Nat.mod_lt, show c.toNat / 16 < 16 by omega, hcode]
  · next hquote _ _ _ _ _ hcontrol =>
    simp only [Bool.or_eq_true, decide_eq_true_eq, not_or] at hquote
    refine tokensFrom?_cons ?_ text
    rw [Mode.step, if_neg hquote.1, if_neg hquote.2, if_neg hcontrol]

/-- Characters of a string are read back one by one. -/
theorem tokensFrom?_writeChars (codes : List Nat) (cs text : List Char) :
    tokensFrom? (.quoted codes) (cs.flatMap writeChar ++ text) =
      tokensFrom? (.quoted ((cs.map Char.toNat).reverse ++ codes)) text := by
  induction cs generalizing codes with
  | nil => rfl
  | cons c cs ih =>
    rw [List.flatMap_cons, List.append_assoc, tokensFrom?_writeChar, ih]
    simp

theorem chars_string (s : String) :
    (Token.string (some s)).chars = '"' :: s.toList.flatMap writeChar ++ ['"'] :=
  rfl

theorem tokensFrom?_string (s : String) (text : List Char) :
    tokensFrom? .between ((Token.string (some s)).chars ++ text) =
      (tokensFrom? .between text).map (.string (some s) :: ·) := by
  have hopen : Mode.between.step '"' = some ([], .quoted []) := by
    simp [Mode.step, openStep, isSpace]
  have hclose : (Mode.quoted (s.toList.map Char.toNat).reverse).step '"' =
      some ([.string (some s)], .between) := by
    simp [Mode.step, charsOfCodes?_map_toNat]
  rw [chars_string, List.append_assoc, List.cons_append, tokensFrom?_cons hopen,
    tokensFrom?_writeChars, List.append_nil, List.singleton_append, tokensFrom?, hclose]
  cases htext : tokensFrom? .between text <;> simp [htext]

/-! ## Words and numbers -/

/-- Whether a character ends the word or number in front of it. -/
def endsBare (c : Char) : Bool :=
  isSpace c || c = '"' || (punctuation? c).isSome

/-- A word or number in front of the text ends there. -/
def EndsBare (text : List Char) : Prop :=
  ∀ c ∈ text.head?, endsBare c = true

/-- Characters that do not end a word are read into it. -/
theorem tokensFrom?_bare {word : List Char} (h : ∀ c ∈ word, endsBare c = false)
    (chars text : List Char) : tokensFrom? (.bare chars) (word ++ text) =
      tokensFrom? (.bare (word.reverse ++ chars)) text := by
  induction word generalizing chars with
  | nil => rfl
  | cons c word ih =>
    obtain ⟨hc, hword⟩ := List.forall_mem_cons.1 h
    have hstep : (Mode.bare chars).step c = some ([], .bare (c :: chars)) :=
      if_neg (Bool.eq_false_iff.1 hc)
    rw [List.cons_append, tokensFrom?_cons hstep, ih hword]
    simp

/-- A word ends where no character of it can follow. -/
theorem tokensFrom?_bare_of_endsBare {chars text : List Char} {token : Token}
    (h : bare? chars.reverse = some token) (htext : EndsBare text) :
    tokensFrom? (.bare chars) text = (tokensFrom? .between text).map (token :: ·) := by
  cases text with
  | nil => simp [tokensFrom?, Mode.finish?, h]
  | cons c text =>
    have hc : endsBare c = true := htext c rfl
    have hstep : (Mode.bare chars).step c =
        (openStep c).map fun r => (token :: r.1, r.2) := by
      unfold endsBare at hc
      rw [Mode.step, if_pos hc, h]
      cases openStep c <;> rfl
    rw [tokensFrom?, tokensFrom?, hstep, Mode.step]
    cases openStep c with
    | none => rfl
    | some r => cases hrest : tokensFrom? r.2 text <;> simp [hrest]

/-- A word or number that ends where it is followed is read as the token it is. -/
theorem tokensFrom?_word {c : Char} {word text : List Char} {token : Token}
    (hany : (c :: word).any endsBare = false) (h : bare? (c :: word) = some token)
    (htext : EndsBare text) : tokensFrom? .between (c :: word ++ text) =
      (tokensFrom? .between text).map (token :: ·) := by
  obtain ⟨hc, hword⟩ : endsBare c = false ∧ ∀ d ∈ word, endsBare d = false := by simpa using hany
  have hopen : Mode.between.step c = some ([], .bare [c]) := by
    simp only [endsBare, Bool.or_eq_false_iff, decide_eq_false_iff_not, Option.isSome_eq_false_iff,
      Option.isNone_iff_eq_none] at hc
    simp [Mode.step, openStep, hc]
  rw [List.cons_append, tokensFrom?_cons hopen, tokensFrom?_bare hword]
  exact tokensFrom?_bare_of_endsBare (by simpa using h) htext

theorem endsBare_eq_false_of_isDigit {c : Char} (h : c.isDigit = true) : endsBare c = false := by
  have hne : ∀ d : Char, d.isDigit = false → c ≠ d := by
    rintro d hd rfl
    rw [h] at hd
    cases hd
  unfold endsBare isSpace punctuation?
  simp [hne]

/-- A numeral does not start with a zero, unless it is zero. -/
theorem digits_eq_cons_zero {n : Nat} {ds : List Char} (h : Decimal.digits n = '0' :: ds) :
    ds = [] := by
  induction n using Decimal.digits.induct generalizing ds with
  | case1 n hlt =>
    rw [Decimal.digits, if_pos hlt] at h
    exact (List.cons.inj h).2.symm
  | case2 n hge ih =>
    rw [Decimal.digits, if_neg hge] at h
    obtain ⟨c, cs, hcons⟩ := List.exists_cons_of_ne_nil (Decimal.digits_ne_nil (n / 10))
    rw [hcons, List.cons_append] at h
    obtain ⟨rfl, -⟩ := List.cons.inj h
    obtain rfl := ih hcons
    have hzero := Decimal.value_digits (n / 10)
    rw [hcons, show Decimal.value ['0'] = 0 from rfl] at hzero
    omega

theorem isNumber_digits (n : Nat) : isNumber (Decimal.digits n) = true := by
  obtain ⟨c, ds, hcons⟩ := List.exists_cons_of_ne_nil (Decimal.digits_ne_nil n)
  have hdigits : ∀ d ∈ c :: ds, d.isDigit = true := fun d hd =>
    Decimal.isDigit_of_mem_digits (hcons ▸ hd)
  obtain ⟨hc, hds⟩ := List.forall_mem_cons.1 hdigits
  have hminus : c ≠ '-' := by
    rintro rfl
    cases hc
  have hwhole : afterWhole? (c :: ds) = some [] := by
    rw [afterWhole?]
    split
    · next hzero =>
      have hnone : ds = [] := digits_eq_cons_zero (hzero ▸ hcons)
      rw [hnone]
    · rw [List.dropWhile_eq_nil_iff.2 hds]
  have hunsigned : isUnsigned (c :: ds) = true := by
    rw [isUnsigned, hwhole]
    rfl
  rw [hcons, isNumber]
  · exact hunsigned
  · simpa using hminus

/-- The digits of a natural number are read as the number. -/
theorem bare?_digits (n : Nat) : bare? (Decimal.digits n) = some (.natural n) := by
  have hword : ∀ {c : Char} {word : List Char}, c.isDigit = false →
      Decimal.digits n ≠ c :: word := by
    intro c word hc h
    have hdigit := @Decimal.isDigit_of_mem_digits n c (h ▸ List.mem_cons_self)
    rw [hc] at hdigit
    cases hdigit
  have hnull : Decimal.digits n ≠ "null".toList := hword rfl
  have htrue : Decimal.digits n ≠ "true".toList := hword rfl
  have hfalse : Decimal.digits n ≠ "false".toList := hword rfl
  rw [bare?, if_neg hnull, if_neg htrue, if_neg hfalse, if_pos (isNumber_digits n),
    Decimal.value?_digits]

/-! ## Tokens -/

/-- A character that is a token on its own. -/
theorem tokensFrom?_mark {c : Char} {token : Token}
    (h : Mode.between.step c = some ([token], .between)) (text : List Char) :
    tokensFrom? .between (c :: text) = (tokensFrom? .between text).map (token :: ·) := by
  rw [tokensFrom?, h]
  cases htext : tokensFrom? .between text <;> simp [htext]

/-- A string with half a character. -/
theorem tokensFrom?_halfString (text : List Char) :
    tokensFrom? .between ((Token.string none).chars ++ text) =
      (tokensFrom? .between text).map (.string none :: ·) := by
  have hchars : (Token.string none).chars = ['"', '\\', 'u', 'd', '8', '0', '0', '"'] := by decide
  have hopen : Mode.between.step '"' = some ([], .quoted []) := by decide
  have hbackslash : (Mode.quoted []).step '\\' = some ([], .escaped []) := by decide
  have hu : (Mode.escaped []).step 'u' = some ([], .hex [] 0 4) := by decide
  have hd : (Mode.hex [] 0 4).step 'd' = some ([], .hex [] 0xD 3) := by decide
  have h8 : (Mode.hex [] 0xD 3).step '8' = some ([], .hex [] 0xD8 2) := by decide
  have h0 : (Mode.hex [] 0xD8 2).step '0' = some ([], .hex [] 0xD80 1) := by decide
  have h00 : (Mode.hex [] 0xD80 1).step '0' = some ([], .quoted [0xD800]) := by decide
  have hclose : (Mode.quoted [0xD800]).step '"' = some ([.string none], .between) := by decide
  simp only [hchars, List.cons_append, List.nil_append, tokensFrom?_cons hopen,
    tokensFrom?_cons hbackslash, tokensFrom?_cons hu, tokensFrom?_cons hd, tokensFrom?_cons h8,
    tokensFrom?_cons h0, tokensFrom?_cons h00]
  rw [tokensFrom?, hclose]
  cases htext : tokensFrom? .between text <;> simp [htext]

/-- Whether a token is a word or a number. -/
def Token.isBare : Token → Bool
  | null => true
  | bool _ => true
  | natural _ => true
  | number _ => true
  | _ => false

/-- The characters of a token are read as the token, if it is not a spelled number, and if what
follows a word or a number ends it. -/
theorem tokensFrom?_chars {token : Token} (h : ∀ spelling, token ≠ .number spelling)
    {text : List Char} (htext : token.isBare = true → EndsBare text) :
    tokensFrom? .between (token.chars ++ text) =
      (tokensFrom? .between text).map (token :: ·) := by
  cases token with
  | openObject => exact tokensFrom?_mark (by decide) text
  | closeObject => exact tokensFrom?_mark (by decide) text
  | openArray => exact tokensFrom?_mark (by decide) text
  | closeArray => exact tokensFrom?_mark (by decide) text
  | comma => exact tokensFrom?_mark (by decide) text
  | colon => exact tokensFrom?_mark (by decide) text
  | null => exact tokensFrom?_word (by decide) (by decide) (htext rfl)
  | bool b =>
    cases b with
    | true => exact tokensFrom?_word (by decide) (by decide) (htext rfl)
    | false => exact tokensFrom?_word (by decide) (by decide) (htext rfl)
  | natural n =>
    obtain ⟨c, ds, hcons⟩ := List.exists_cons_of_ne_nil (Decimal.digits_ne_nil n)
    have hdigits : (c :: ds).any endsBare = false := List.any_eq_false.2 fun d hd => by
      simp [endsBare_eq_false_of_isDigit (Decimal.isDigit_of_mem_digits (hcons ▸ hd))]
    have hchars : (Token.natural n).chars = c :: ds := hcons
    rw [hchars]
    exact tokensFrom?_word hdigits (hcons ▸ bare?_digits n) (htext rfl)
  | number spelling => exact absurd rfl (h spelling)
  | string s =>
    cases s with
    | some s => exact tokensFrom?_string s text
    | none => exact tokensFrom?_halfString text

/-! ## Lists of tokens -/

/-- Two tokens that may stand next to each other: not both are words or numbers. -/
def Apart (first second : Token) : Prop :=
  first.isBare = true → second.isBare = false

/-- A token that is no word or number ends the one in front of it. -/
theorem endsBare_chars {token : Token} (h : token.isBare = false) (text : List Char) :
    EndsBare (token.chars ++ text) := by
  cases token with
  | string s => cases s <;> · rintro c ⟨⟩; decide
  | null => cases h
  | bool => cases h
  | natural => cases h
  | number => cases h
  | _ => rintro c ⟨⟩; decide

/-- A list of tokens is read back from its characters, if no two words or numbers stand next to
each other in it. -/
theorem tokens?_flatMap_chars {tokens : List Token} (h : ∀ spelling, .number spelling ∉ tokens)
    (hchain : tokens.IsChain Apart) : tokens? (tokens.flatMap Token.chars) = some tokens := by
  rw [tokens?]
  induction tokens with
  | nil => rfl
  | cons token tokens ih =>
    obtain ⟨hnext, hchain⟩ := List.isChain_cons.1 hchain
    have htoken : ∀ spelling, token ≠ .number spelling := by
      rintro spelling rfl
      exact h spelling List.mem_cons_self
    have hends : token.isBare = true → EndsBare (tokens.flatMap Token.chars) := fun hbare => by
      cases tokens with
      | nil => simp [EndsBare]
      | cons next tokens => exact endsBare_chars (hnext next rfl hbare) _
    rw [List.flatMap_cons, tokensFrom?_chars htoken hends,
      ih (fun spelling hmem => h spelling (List.mem_cons_of_mem _ hmem)) hchain, Option.map_some]

end SchemaPlan.Json

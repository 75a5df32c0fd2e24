import SchemaPlan.Json.Reader
import SchemaPlan.Proofs.Json.Token

/-!
# Documents read back

`read?_write` : what is written of a value is read as the value, unless it has a spelled number. The
tokens of a value are apart, so they are found in the text again (`isChain_tokens`), and they lead
from a state in which a value is expected to the one in which it is complete (`run_tokens`).
-/

namespace SchemaPlan.Json

/-! ## Tokens of values -/

/-- Tokens that may follow any token: they are apart and do not start with a word or number. -/
structure Following (tokens : List Token) : Prop where
  apart : tokens.IsChain Apart
  first : ∀ token ∈ tokens.head?, token.isBare = false

/-- A token that is no word or number may follow any token. -/
theorem following_cons {token : Token} {tokens : List Token} (htoken : token.isBare = false)
    (htokens : tokens.IsChain Apart) : Following (token :: tokens) where
  apart := List.isChain_cons.2 ⟨fun _ _ hbare => absurd hbare (by simp [htoken]), htokens⟩
  first _ h := by
    cases h
    exact htoken

/-- Tokens that are apart stay so in front of tokens that may follow any. -/
theorem isChain_append {tokens rest : List Token} (htokens : tokens.IsChain Apart)
    (hrest : Following rest) : (tokens ++ rest).IsChain Apart :=
  List.isChain_append.2 ⟨htokens, hrest.apart, fun _ _ next hnext _ => hrest.first next hnext⟩

mutual

/-- No two words or numbers stand next to each other in the tokens of a value. -/
theorem isChain_tokens : ∀ v : Value, v.tokens.IsChain Apart
  | .null => by simp [Value.tokens]
  | .bool _ => by simp [Value.tokens]
  | .natural _ => by simp [Value.tokens]
  | .number _ => by simp [Value.tokens]
  | .string _ => by simp [Value.tokens]
  | .malformed => by simp [Value.tokens]
  | .array [] => by simp [Value.tokens, Apart, Token.isBare]
  | .array (v :: items) => by
    rw [Value.tokens, List.append_assoc]
    exact (following_cons rfl (isChain_append (isChain_tokens v) (following_moreItems items))).apart
  | .object [] => by simp [Value.tokens, Apart, Token.isBare]
  | .object ((_, v) :: members) => by
    rw [Value.tokens, List.append_assoc]
    have hvalue := isChain_append (isChain_tokens v) (following_moreMembers members)
    exact (following_cons rfl (following_cons rfl (following_cons rfl hvalue).apart).apart).apart

/-- The items that follow the first one may follow any token. -/
theorem following_moreItems : ∀ items : List Value, Following (moreItems items ++ [.closeArray])
  | [] => following_cons rfl .nil
  | v :: items => by
    rw [moreItems, List.cons_append, List.append_assoc]
    exact following_cons rfl (isChain_append (isChain_tokens v) (following_moreItems items))

theorem following_moreMembers : ∀ members : List (String × Value),
    Following (moreMembers members ++ [.closeObject])
  | [] => following_cons rfl .nil
  | (_, v) :: members => by
    rw [moreMembers, List.cons_append, List.cons_append, List.cons_append, List.append_assoc]
    have hvalue := isChain_append (isChain_tokens v) (following_moreMembers members)
    exact following_cons rfl (following_cons rfl (following_cons rfl hvalue).apart).apart

end

/-! ## States -/

mutual

/-- The tokens of a value complete it. -/
theorem run_tokens : ∀ (v : Value) (frames : List Frame) (fresh : Bool) (rest : List Token),
    State.run (.item frames fresh) (v.tokens ++ rest) = State.run (.complete frames v) rest
  | .null, _, _, _ => rfl
  | .bool _, _, _, _ => rfl
  | .natural _, _, _, _ => rfl
  | .number _, _, _, _ => rfl
  | .string _, _, _, _ => rfl
  | .malformed, _, _, _ => rfl
  | .array [], _, _, _ => rfl
  | .array (v :: items), frames, fresh, rest => by
    have hopen : State.run (.item frames fresh) (Value.tokens (.array (v :: items)) ++ rest) =
        State.run (.item (.array [] :: frames) true)
          (v.tokens ++ (moreItems items ++ .closeArray :: rest)) := by
      simp [Value.tokens, State.run, State.step, State.stepItem]
    rw [hopen, run_tokens v, run_moreItems items]
    rfl
  | .object [], _, _, _ => rfl
  | .object ((key, v) :: members), frames, fresh, rest => by
    have hopen : State.run (.item frames fresh)
        (Value.tokens (.object ((key, v) :: members)) ++ rest) =
        State.run (.item (.object (some []) (some key) :: frames) false)
          (v.tokens ++ (moreMembers members ++ .closeObject :: rest)) := by
      simp [Value.tokens, State.run, State.step, State.stepItem]
    rw [hopen, run_tokens v, run_moreMembers members]
    rfl

/-- The tokens of further items complete the array. -/
theorem run_moreItems : ∀ (items : List Value) (before : List Value) (v : Value)
    (frames : List Frame) (rest : List Token),
    State.run (.complete (.array before :: frames) v) (moreItems items ++ .closeArray :: rest) =
      State.run (.complete frames (.array (before.reverse ++ v :: items))) rest
  | [], before, v, frames, rest => by
    simp [moreItems, State.run, State.step, State.stepComplete]
  | next :: items, before, v, frames, rest => by
    have hcomma : State.run (.complete (.array before :: frames) v)
        (moreItems (next :: items) ++ .closeArray :: rest) =
        State.run (.item (.array (v :: before) :: frames) false)
          (next.tokens ++ (moreItems items ++ .closeArray :: rest)) := by
      simp [moreItems, State.run, State.step, State.stepComplete]
    rw [hcomma, run_tokens next, run_moreItems items]
    simp

/-- The tokens of further members complete the object. -/
theorem run_moreMembers : ∀ (members before : List (String × Value)) (key : String) (v : Value)
    (frames : List Frame) (rest : List Token),
    State.run (.complete (.object (some before) (some key) :: frames) v)
        (moreMembers members ++ .closeObject :: rest) =
      State.run (.complete frames (.object (before.reverse ++ (key, v) :: members))) rest
  | [], before, key, v, frames, rest => by
    simp [moreMembers, State.run, State.step, State.stepComplete, Members.add, Members.close]
  | (next, w) :: members, before, key, v, frames, rest => by
    have hcomma : State.run (.complete (.object (some before) (some key) :: frames) v)
        (moreMembers ((next, w) :: members) ++ .closeObject :: rest) =
        State.run (.item (.object (some ((key, v) :: before)) (some next) :: frames) false)
          (w.tokens ++ (moreMembers members ++ .closeObject :: rest)) := by
      simp [moreMembers, State.run, State.step, State.stepComplete, Members.add]
    rw [hcomma, run_tokens w, run_moreMembers members]
    simp

end

/-- A value is read back from its tokens. -/
theorem ofTokens?_tokens (v : Value) : ofTokens? v.tokens = some v := by
  have hrun := run_tokens v [] false []
  rw [List.append_nil] at hrun
  rw [ofTokens?, hrun]
  rfl

/-! ## Documents -/

/-- Every number in a value is a natural number. -/
def Value.OnlyNaturals (v : Value) : Prop :=
  ∀ spelling, .number spelling ∉ v.tokens

/-- What is written of a value is read as the value, as long as it keeps no spelling of a number. -/
theorem read?_write {v : Value} (h : v.OnlyNaturals) : read? v.write = some v := by
  rw [read?, Value.write, String.toList_ofList, tokens?_flatMap_chars h (isChain_tokens v),
    Option.bind_some, ofTokens?_tokens]

end SchemaPlan.Json

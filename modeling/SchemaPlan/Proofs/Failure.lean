import SchemaPlan.Proofs.Step

/-!
# Steps that fail

`FailsFor E x` : the step `x` fails exactly if there is an error among `E`, and then with one of
them. Where several parts of a chain may fail, which error is reported depends on their order; the
set of errors does not. So the errors of a chain are those of its parts together, and
`FailsFor.bind`, `FailsFor.refuse` and `FailsFor.mapM` collect them.
-/

namespace SchemaPlan

variable {ε α β : Type}

/-- Two steps fail with the error of the first, or with that of the second where the first succeeds.
-/
theorem bind_eq_error_iff {step : Except ε α} {next : α → Except ε β} {e : ε} :
    step >>= next = .error e ↔ step = .error e ∨ ∃ a, step = .ok a ∧ next a = .error e := by
  cases step with
  | error d => simp [bind, Except.bind]
  | ok a => simp [bind, Except.bind]

/-- A guard fails with its error where its condition holds, and else what follows may fail. -/
theorem refuse_eq_error_iff {c : Prop} [Decidable c] {d e : ε} {next : Except ε β} :
    (if c then (throw d : Except ε α) >>= fun _ => next else next) = .error e ↔
      (c ∧ d = e) ∨ (¬c ∧ next = .error e) := by
  by_cases h : c
  · simp [h, bind_eq_error_iff, throw, throwThe, MonadExceptOf.throw]
  · simp [h]

/-- A step fails exactly if there is an error among `E`, and then with one of them. -/
structure FailsFor (E : ε → Prop) (x : Except ε α) : Prop where
  cause : ∀ e, x = .error e → E e
  fails : ∀ e, E e → ∃ d, x = .error d

namespace FailsFor

variable {E F : ε → Prop} {x : Except ε α}

theorem ok (a : α) : FailsFor (fun _ => False) (.ok a : Except ε α) where
  cause _ h := by cases h
  fails _ h := h.elim

theorem error (e : ε) : FailsFor (· = e) (.error e : Except ε α) where
  cause _ h := by cases h; rfl
  fails _ _ := ⟨e, rfl⟩

theorem congr (h : FailsFor E x) (hEF : ∀ e, F e ↔ E e) : FailsFor F x where
  cause e he := (hEF e).2 (h.cause e he)
  fails e he := h.fails e ((hEF e).1 he)

/-- Something fails exactly if there is a reason. -/
theorem exists_error_iff (h : FailsFor E x) : (∃ e, x = .error e) ↔ ∃ e, E e :=
  ⟨fun ⟨e, he⟩ => ⟨e, h.cause e he⟩, fun ⟨e, he⟩ => h.fails e he⟩

/-- Two steps fail for the reasons of the first and, where it succeeds, for those of the second. -/
theorem bind {f : α → Except ε β} (hx : FailsFor E x)
    (hf : ∀ a, x = .ok a → FailsFor F (f a)) : FailsFor (fun e => E e ∨ F e) (x >>= f) := by
  cases hx' : x with
  | error d => exact ⟨fun e he => .inl (by cases he; exact hx.cause d hx'), fun _ _ => ⟨d, rfl⟩⟩
  | ok a =>
    refine ⟨fun e he => .inr ((hf a hx').cause e he), fun e he => he.elim (fun he => ?_) ?_⟩
    · obtain ⟨d, hd⟩ := hx.fails e he
      rw [hx'] at hd
      cases hd
    · exact (hf a hx').fails e

/-- What is made of the result of a step cannot fail. -/
theorem bind_pure {f : α → β} (hx : FailsFor E x) :
    FailsFor E (x >>= fun a => (pure (f a) : Except ε β)) :=
  (hx.bind fun a _ => ok (f a)).congr fun _ => (or_false _).symm.to_iff

/-- What is done with a result gives no further reason. -/
theorem map {f : α → β} (hx : FailsFor E x) : FailsFor E (x.map f) :=
  hx.bind_pure

/-- A chain that starts with a refusal. -/
theorem refuse {c : Prop} [Decidable c] {d : ε} {next : Except ε β} (h : FailsFor E next) :
    FailsFor (fun e => (c ∧ e = d) ∨ E e)
      (if c then (throw d : Except ε α) >>= fun _ => next else next) := by
  by_cases hc : c
  · rw [if_pos hc]
    exact ⟨fun e he => .inl ⟨hc, by cases he; rfl⟩, fun _ _ => ⟨d, rfl⟩⟩
  · rw [if_neg hc]
    exact h.congr fun e => ⟨fun he => he.resolve_left fun hce => hc hce.1, .inr⟩

/-- A refusal that does not apply. -/
theorem of_not_refused {c : Prop} [Decidable c] {d : ε} {next : Except ε β} (hc : ¬c)
    (h : FailsFor E next) :
    FailsFor E (if c then (throw d : Except ε α) >>= fun _ => next else next) := by
  rwa [if_neg hc]

/-- A list of steps fails for the reasons of its members. -/
theorem mapM {f : α → Except ε β} {l : List α} {E : α → ε → Prop}
    (h : ∀ a ∈ l, FailsFor (E a) (f a)) : FailsFor (fun e => ∃ a ∈ l, E a e) (l.mapM f) where
  cause e he := by
    obtain ⟨a, ha, hfa⟩ := exists_of_mapM_eq_error he
    exact ⟨a, ha, (h a ha).cause e hfa⟩
  fails e := by
    rintro ⟨a, ha, he⟩
    cases hl : l.mapM f with
    | error d => exact ⟨d, rfl⟩
    | ok bs =>
      obtain ⟨b, -, hb⟩ := exists_mem_of_mapM hl ha
      obtain ⟨d, hd⟩ := (h a ha).fails e he
      rw [hb] at hd
      cases hd

end FailsFor

end SchemaPlan

import Mathlib.Data.List.Forall2

/-!
# Steps that succeed

Planning and writing are chains of steps that may fail. These lemmas read off what each step of
a chain returned from the fact that the whole chain returned something. `Alike` compares two
chains : both succeed or both fail, as long as their steps do.
-/

namespace SchemaPlan

variable {ε α β : Type}

/-- Two steps give a result exactly if both do. -/
theorem bind_eq_ok_iff {step : Except ε α} {next : α → Except ε β} {b : β} :
    step >>= next = .ok b ↔ ∃ a, step = .ok a ∧ next a = .ok b := by
  cases step with
  | error e => simp [bind, Except.bind]
  | ok a => simp [bind, Except.bind]

theorem pure_eq_ok_iff {a b : α} : (pure a : Except ε α) = .ok b ↔ a = b := by
  simp [pure, Except.pure]

theorem throw_ne_ok {e : ε} {b : β} : (throw e : Except ε β) ≠ .ok b := by
  simp [throw, throwThe, MonadExceptOf.throw]

/-- A chain that starts with a refusal succeeds if the refusal does not apply and the rest of the
chain succeeds. -/
theorem refuse_eq_ok_iff {c : Prop} [Decidable c] {e : ε} {next : Except ε β} {b : β} :
    (if c then (throw e : Except ε α) >>= fun _ => next else next) = .ok b ↔
      ¬c ∧ next = .ok b := by
  by_cases h : c
  · simp [h, bind_eq_ok_iff, throw_ne_ok]
  · simp [h]

/-- What is done with a result is done exactly where there is one. -/
theorem map_eq_ok_iff {step : Except ε α} {f : α → β} {b : β} :
    step.map f = .ok b ↔ ∃ a, step = .ok a ∧ f a = b := by
  cases step with
  | error e => simp [Except.map]
  | ok a => simp [Except.map]

/-! ## Steps inside a monad -/

section

variable {m : Type → Type} [Monad m]

theorem liftM_ok {ε α : Type} (a : α) :
    (liftM (.ok a : Except ε α) : ExceptT ε m α) = pure a :=
  rfl

theorem liftM_error {ε α : Type} (e : ε) :
    (liftM (.error e : Except ε α) : ExceptT ε m α) = throw e :=
  rfl

end

/-- A step that needs no effects has its result in any run. -/
theorem liftM_eq_pure_iff {ε α : Type} {step : Except ε α} {b : α} :
    (liftM step : ExceptT ε Id α) = pure b ↔ step = .ok b := by
  cases step with
  | error e => exact Iff.rfl
  | ok b' => exact Iff.rfl

/-! ## Traversals -/

/-- A traversal succeeds with the results of its steps, one for each element. -/
theorem mapM_eq_ok_iff {f : α → Except ε β} {l : List α} {bs : List β} :
    l.mapM f = .ok bs ↔ List.Forall₂ (fun a b => f a = .ok b) l bs := by
  induction l generalizing bs with
  | nil =>
    rw [List.mapM_nil, pure_eq_ok_iff, List.forall₂_nil_left_iff]
    exact eq_comm
  | cons a l ih =>
    simp only [List.mapM_cons, bind_eq_ok_iff, pure_eq_ok_iff, ih, List.forall₂_cons_left_iff]
    constructor
    · rintro ⟨b, hb, cs, hcs, rfl⟩
      exact ⟨b, cs, hb, hcs, rfl⟩
    · rintro ⟨b, cs, hb, hcs, rfl⟩
      exact ⟨b, hb, cs, hcs, rfl⟩

/-- Each result of a list of steps is that of some member. -/
theorem exists_of_mem_mapM {f : α → Except ε β} {l : List α} {bs : List β} {b : β}
    (h : l.mapM f = .ok bs) (hb : b ∈ bs) : ∃ a ∈ l, f a = .ok b := by
  have hall := mapM_eq_ok_iff.1 h
  clear h
  induction hall with
  | nil => exact absurd hb List.not_mem_nil
  | @cons a c l bs hac _ ih =>
    rcases List.mem_cons.1 hb with rfl | hb
    · exact ⟨a, List.mem_cons_self, hac⟩
    · obtain ⟨a', ha', hfa⟩ := ih hb
      exact ⟨a', List.mem_cons_of_mem _ ha', hfa⟩

/-- Each member of a list of steps has its result among theirs. -/
theorem exists_mem_of_mapM {f : α → Except ε β} {l : List α} {bs : List β} {a : α}
    (h : l.mapM f = .ok bs) (ha : a ∈ l) : ∃ b ∈ bs, f a = .ok b := by
  have hall := mapM_eq_ok_iff.1 h
  clear h
  induction hall with
  | nil => exact absurd ha List.not_mem_nil
  | @cons c b l bs hcb _ ih =>
    rcases List.mem_cons.1 ha with rfl | ha
    · exact ⟨b, List.mem_cons_self, hcb⟩
    · obtain ⟨b', hb', hfb⟩ := ih ha
      exact ⟨b', List.mem_cons_of_mem _ hb', hfb⟩

/-- A list of steps succeeds if each of them does. -/
theorem exists_mapM_eq_ok {f : α → Except ε β} {l : List α} (h : ∀ a ∈ l, ∃ b, f a = .ok b) :
    ∃ bs, l.mapM f = .ok bs := by
  induction l with
  | nil => exact ⟨[], rfl⟩
  | cons a l ih =>
    obtain ⟨⟨b, hb⟩, hl⟩ := List.forall_mem_cons.1 h
    obtain ⟨bs, hbs⟩ := ih hl
    exact ⟨b :: bs, mapM_eq_ok_iff.2 (.cons hb (mapM_eq_ok_iff.1 hbs))⟩

/-- A traversal that fails has failed at one of its elements. -/
theorem exists_of_mapM_eq_error {f : α → Except ε β} {l : List α} {e : ε}
    (h : l.mapM f = .error e) : ∃ a ∈ l, f a = .error e := by
  induction l with
  | nil => cases h
  | cons a l ih =>
    rw [List.mapM_cons] at h
    cases ha : f a with
    | error d =>
      rw [ha] at h
      cases h
      exact ⟨a, List.mem_cons_self, ha⟩
    | ok b =>
      cases hl : l.mapM f with
      | error d =>
        rw [ha, hl] at h
        cases h
        obtain ⟨c, hc, hfc⟩ := ih hl
        exact ⟨c, List.mem_cons_of_mem a hc, hfc⟩
      | ok bs =>
        rw [ha, hl] at h
        cases h

/-- A traversal of written values, each of which is read. -/
theorem mapM_map_eq_some {γ : Type} {l : List α} {f : β → Option γ} {g : α → β} {r : α → γ}
    (h : ∀ a ∈ l, f (g a) = some (r a)) : (l.map g).mapM f = some (l.map r) := by
  induction l with
  | nil => rfl
  | cons a l ih =>
    obtain ⟨ha, hl⟩ := List.forall_mem_cons.1 h
    simp only [List.map_cons, List.mapM_cons, ha, ih hl, Option.pure_def, Option.bind_eq_bind,
      Option.bind_some]

/-! ## Two steps -/

/-- Both steps succeed, with results that are related, or both fail, with errors that are. -/
inductive Alike (R : α → β → Prop) (E : ε → ε → Prop) : Except ε α → Except ε β → Prop
  | ok {a : α} {b : β} (h : R a b) : Alike R E (.ok a) (.ok b)
  | error {d e : ε} (h : E d e) : Alike R E (.error d) (.error e)

namespace Alike

variable {γ δ : Type} {R : α → β → Prop} {S : γ → δ → Prop} {E : ε → ε → Prop}
  {x : Except ε α} {y : Except ε β}

/-- What follows alike steps, for results that correspond, is alike. -/
theorem bind (h : Alike R E x y) {f : α → Except ε γ} {g : β → Except ε δ}
    (hnext : ∀ a b, R a b → Alike S E (f a) (g b)) : Alike S E (x >>= f) (y >>= g) := by
  cases h with
  | ok h => exact hnext _ _ h
  | error h => exact .error h

/-- Of alike steps one succeeds exactly if the other does. -/
theorem exists_ok_iff (h : Alike R E x y) : (∃ a, x = .ok a) ↔ ∃ b, y = .ok b := by
  cases h with
  | ok h => exact iff_of_true ⟨_, rfl⟩ ⟨_, rfl⟩
  | error h => simp

/-- Two steps of which each succeeds if the other does, whatever the errors. -/
theorem of_ok_iff (hok : (∃ a, x = .ok a) ↔ ∃ b, y = .ok b)
    (h : ∀ a b, x = .ok a → y = .ok b → R a b) : Alike R (fun _ _ => True) x y := by
  cases x with
  | ok a =>
    obtain ⟨b, rfl⟩ := hok.1 ⟨a, rfl⟩
    exact .ok (h a b rfl rfl)
  | error d =>
    cases y with
    | ok b =>
      obtain ⟨a, ha⟩ := hok.2 ⟨b, rfl⟩
      cases ha
    | error e => exact .error trivial

/-- Results that are each other's partners come from both steps or from none. -/
theorem eq_ok_iff (h : Alike R E x y) {a' : α} {b' : β}
    (hpartner : ∀ a b, R a b → (a = a' ↔ b = b')) : x = .ok a' ↔ y = .ok b' := by
  cases h with
  | ok h => simpa using hpartner _ _ h
  | error h => simp

/-- Alike steps have results that correspond. -/
theorem exists_of_ok (h : Alike R E x y) {a : α} (hx : x = .ok a) : ∃ b, y = .ok b ∧ R a b := by
  cases h with
  | ok h =>
    cases hx
    exact ⟨_, rfl, h⟩
  | error h => cases hx

/-- Alike steps have errors that correspond. -/
theorem exists_of_error (h : Alike R E x y) {d : ε} (hx : x = .error d) :
    ∃ e, y = .error e ∧ E d e := by
  cases h with
  | ok h => cases hx
  | error h =>
    cases hx
    exact ⟨_, rfl, h⟩

end Alike

end SchemaPlan

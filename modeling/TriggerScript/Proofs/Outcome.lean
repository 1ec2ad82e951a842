/-!
# Computations that succeed

What a computation that ends well says about its steps.
-/

namespace TriggerScript

variable {ε α β : Type}

/-- A computation that succeeds went through its first step. -/
theorem bind_eq_ok {x : Except ε α} {f : α → Except ε β} {b : β} :
    (x >>= f) = .ok b ↔ ∃ a, x = .ok a ∧ f a = .ok b := by
  constructor
  · intro h
    cases x with
    | error e => cases h
    | ok a => exact ⟨a, rfl, h⟩
  · rintro ⟨a, rfl, h⟩
    exact h

/-- A computation that fails does so in its first step or after it. -/
theorem bind_eq_error {x : Except ε α} {f : α → Except ε β} {error : ε} :
    (x >>= f) = .error error ↔ x = .error error ∨ ∃ a, x = .ok a ∧ f a = .error error := by
  constructor
  · intro h
    cases x with
    | error e => exact .inl (congrArg _ (Except.error.inj h))
    | ok a => exact .inr ⟨a, rfl, h⟩
  · rintro (rfl | ⟨a, rfl, h⟩)
    · rfl
    · exact h

/-- A result that was made from another one. -/
theorem map_eq_ok {x : Except ε α} {f : α → β} {b : β} : f <$> x = .ok b ↔ ∃ a, x = .ok a ∧ f a = b := by
  cases x with
  | error e => exact ⟨nofun, nofun⟩
  | ok a =>
    constructor
    · intro h
      exact ⟨a, rfl, Except.ok.inj h⟩
    · rintro ⟨_, hok, rfl⟩
      obtain rfl := Except.ok.inj hok
      rfl

/-- Another wording of errors makes no difference to results. -/
theorem mapError_eq_ok {δ : Type} {x : Except ε α} {f : ε → δ} {a : α} : x.mapError f = .ok a ↔ x = .ok a := by
  cases x with
  | error e => exact ⟨nofun, nofun⟩
  | ok a' => exact ⟨fun h => congrArg _ (Except.ok.inj h), fun h => congrArg _ (Except.ok.inj h)⟩

/-- What every step keeps, a computation of many steps keeps. -/
theorem foldlM_induction {f : β → α → Except ε β} {motive : β → Prop} {xs : List α}
    (hstep : ∀ x ∈ xs, ∀ b b', motive b → f b x = .ok b' → motive b') {b b' : β} (h : xs.foldlM f b = .ok b')
    (hb : motive b) : motive b' := by
  induction xs generalizing b with
  | nil =>
    obtain rfl := Except.ok.inj h
    exact hb
  | cons x xs ih =>
    rw [List.forall_mem_cons] at hstep
    rw [List.foldlM_cons] at h
    obtain ⟨next, hnext, h⟩ := bind_eq_ok.mp h
    exact ih hstep.2 h (hstep.1 b next hb hnext)

/-- A computation of many steps succeeds if each step does and keeps what the next one needs. -/
theorem exists_foldlM_eq_ok {f : β → α → Except ε β} {motive : β → Prop}
    (hstep : ∀ b x, motive b → ∃ b', f b x = .ok b' ∧ motive b') {b : β} (hb : motive b) (xs : List α) :
    ∃ b', xs.foldlM f b = .ok b' := by
  induction xs generalizing b with
  | nil => exact ⟨b, rfl⟩
  | cons x xs ih =>
    obtain ⟨next, hnext, hmotive⟩ := hstep b x hb
    rw [List.foldlM_cons, hnext]
    exact ih hmotive

end TriggerScript

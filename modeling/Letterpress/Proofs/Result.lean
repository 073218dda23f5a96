import Letterpress.Error

/-! Results that may be errors: what two steps one after the other come to, and which errors a computation
    can end in. -/

namespace Letterpress

/-! ### Steps -/

theorem bind_eq_ok {ε α β : Type} {first : Except ε α} {next : α → Except ε β} {out : β} :
    (first >>= next) = .ok out ↔ ∃ found, first = .ok found ∧ next found = .ok out := by
  rcases first with fault | found
  · constructor
    · rintro ⟨⟩
    · rintro ⟨_, ⟨⟩, _⟩
  · constructor
    · exact fun h => ⟨found, rfl, h⟩
    · rintro ⟨_, ⟨⟩, h⟩
      exact h

theorem bind_pure_eq_ok {ε α β : Type} {x : Except ε α} {g : α → β} {out : β} :
    (x >>= fun a => pure (g a)) = .ok out ↔ ∃ a, x = .ok a ∧ out = g a := by
  rw [bind_eq_ok]
  constructor
  · rintro ⟨a, hx, ⟨⟩⟩
    exact ⟨a, hx, rfl⟩
  · rintro ⟨a, hx, rfl⟩
    exact ⟨a, hx, rfl⟩

/-- Two steps of which the second one does not depend on the first. -/
theorem bind_both_eq_ok {ε α β γ : Type} {x : Except ε α} {y : Except ε β} {g : α → β → γ} {out : γ} :
    (x >>= fun a => y >>= fun b => pure (g a b)) = .ok out ↔ ∃ a b, x = .ok a ∧ y = .ok b ∧ out = g a b := by
  rw [bind_eq_ok]
  constructor
  · rintro ⟨a, hx, h⟩
    obtain ⟨b, hy, rfl⟩ := bind_pure_eq_ok.mp h
    exact ⟨a, b, hx, hy, rfl⟩
  · rintro ⟨a, b, hx, hy, rfl⟩
    exact ⟨a, hx, bind_pure_eq_ok.mpr ⟨b, hy, rfl⟩⟩

theorem mapError_eq_ok {ε ε' α : Type} {x : Except ε α} {g : ε → ε'} {a : α} : x.mapError g = .ok a ↔ x = .ok a := by
  cases x with
  | error fault =>
    constructor
    · rintro ⟨⟩
    · rintro ⟨⟩
  | ok found =>
    constructor
    · rintro ⟨⟩
      rfl
    · rintro ⟨⟩
      rfl

theorem eq_ok_of_toOption {ε α : Type} {x : Except ε α} {a : α} (h : x.toOption = some a) : x = .ok a := by
  cases x with
  | error fault => cases h
  | ok found =>
    cases h
    rfl

theorem bind_eq_error {ε α β : Type} {x : Except ε α} {f : α → Except ε β} {fault : ε} :
    (x >>= f) = .error fault ↔ x = .error fault ∨ ∃ a, x = .ok a ∧ f a = .error fault := by
  cases x with
  | error found =>
    constructor
    · rintro ⟨⟩
      exact Or.inl rfl
    · rintro (⟨⟨⟩⟩ | ⟨_, ⟨⟩, _⟩)
      rfl
  | ok a =>
    constructor
    · exact fun h => Or.inr ⟨a, rfl, h⟩
    · rintro (⟨⟨⟩⟩ | ⟨_, ⟨⟩, h⟩)
      exact h

theorem mapM_cons_eq_ok {ε α β : Type} {f : α → Except ε β} {x : α} {xs : List α} {out : List β} :
    (x :: xs).mapM f = .ok out ↔ ∃ y ys, f x = .ok y ∧ xs.mapM f = .ok ys ∧ out = y :: ys := by
  rw [List.mapM_cons]
  exact bind_both_eq_ok

/-- The error that the result is, if it is one. -/
def fault? {α : Type} : Except Error α → Option Error
  | .error fault => some fault
  | .ok _ => none

theorem eq_error_of_fault? {α : Type} {x : Except Error α} {fault : Error} (h : fault? x = some fault) :
    x = .error fault := by
  cases x with
  | error found =>
    cases h
    rfl
  | ok a => cases h

/-! ### Errors -/

/-- If the result is an error, then one with the property. -/
def FailsWith {α : Type} (P : Error → Prop) (x : Except Error α) : Prop :=
  ∀ fault, x = .error fault → P fault

namespace FailsWith

variable {α β : Type} {P : Error → Prop} {x : Except Error α}

theorem ok (a : α) : FailsWith P (.ok a : Except Error α) := nofun

theorem error {fault : Error} (h : P fault) : FailsWith P (.error fault : Except Error α) := by
  rintro _ ⟨⟩
  exact h

theorem bind {f : α → Except Error β} (hx : FailsWith P x) (hf : ∀ a, x = .ok a → FailsWith P (f a)) :
    FailsWith P (x >>= f) := by
  cases x with
  | error fault => exact error (hx fault rfl)
  | ok a => exact hf a rfl

theorem mapError {ε : Type} {y : Except ε α} {g : ε → Error} (hg : ∀ fault, P (g fault)) :
    FailsWith P (y.mapError g) := by
  cases y with
  | error fault => exact error (hg fault)
  | ok a => exact ok a

end FailsWith
end Letterpress

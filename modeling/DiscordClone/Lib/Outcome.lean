import Mathlib.Logic.Function.Basic

/-!
# Outcomes

A computation in `Except` ends with a result or with an error. `Meets Q E x` says that a result of `x` has `Q` and an
error of `x` has `E`: the postconditions of the two ways out. `Meets.bind` is the rule of composition.
-/

namespace Outcome

variable {ε ε' α β : Type} {E E' : ε → Prop} {P Q : α → Prop}

/-- A result has `Q`, and an error has `E`. -/
def Meets (Q : α → Prop) (E : ε → Prop) : Except ε α → Prop
  | .ok a => Q a
  | .error e => E e

@[simp] theorem meets_ok {a : α} : Meets Q E (.ok a) ↔ Q a := Iff.rfl

@[simp] theorem meets_error {e : ε} : Meets Q E (.error e : Except ε α) ↔ E e := Iff.rfl

/-- **The rule of composition.** -/
theorem Meets.bind {x : Except ε α} {f : α → Except ε β} {Q : β → Prop} (hx : Meets P E x)
    (hf : ∀ a, P a → Meets Q E (f a)) : Meets Q E (x >>= f) := by
  cases x with
  | error e => exact hx
  | ok a => exact hf a hx

theorem Meets.mono {x : Except ε α} (h : Meets P E x) (hq : ∀ a, P a → Q a) (he : ∀ e, E e → E' e) : Meets Q E' x := by
  cases x with
  | error e => exact he e h
  | ok a => exact hq a h

theorem Meets.map {x : Except ε α} {f : α → β} {Q : β → Prop} (h : Meets (fun a => Q (f a)) E x) :
    Meets Q E (x.map f) := by
  cases x <;> exact h

theorem Meets.mapError {x : Except ε α} {f : ε → ε'} {E : ε' → Prop} (h : Meets Q (fun e => E (f e)) x) :
    Meets Q E (x.mapError f) := by
  cases x <;> exact h

theorem Meets.ite {c : Prop} [Decidable c] {x y : Except ε α} (hx : c → Meets Q E x) (hy : ¬c → Meets Q E y) :
    Meets Q E (if c then x else y) := by
  split
  · exact hx ‹_›
  · exact hy ‹_›

/-- What is known of the two ways out. -/
theorem Meets.of_ok {x : Except ε α} (h : Meets Q E x) {a : α} (hx : x = .ok a) : Q a := by
  rw [hx] at h
  exact h

/-- A result is the one that it is. -/
theorem Meets.self {x : Except ε α} (h : Meets Q E x) : Meets (fun a => x = .ok a) E x := by
  cases x with
  | error e => exact h
  | ok a => rfl

end Outcome

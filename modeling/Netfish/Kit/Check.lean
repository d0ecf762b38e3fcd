import Mathlib.Logic.Basic

/-!
# Checked steps

A C++ `assert` is a step of an `Except` computation: it passes, or the computation ends with the
name of the assertion. `check` is that step and the `ok` lemmas take a successful computation
apart, one step at a time, without unfolding it.
-/

set_option autoImplicit false

namespace Netfish.Kit

universe u v

variable {ε : Type u} {α β : Type v}

/-- `assert(p)`: passes, or stops with the name of the assertion. -/
def check (name : ε) (p : Prop) [Decidable p] : Except ε PUnit :=
  if p then .ok ⟨⟩ else .error name

theorem check_pos {name : ε} {p : Prop} [Decidable p] (h : p) : check name p = .ok ⟨⟩ :=
  if_pos h

theorem check_neg {name : ε} {p : Prop} [Decidable p] (h : ¬ p) : check name p = .error name :=
  if_neg h

@[simp] theorem check_eq_ok {name : ε} {p : Prop} [Decidable p] {r : PUnit} :
    check name p = .ok r ↔ p := by
  unfold check
  split <;> simp [*]

@[simp] theorem ok_bind (a : α) (f : α → Except ε β) : (Except.ok a >>= f) = f a := rfl

@[simp] theorem error_bind (e : ε) (f : α → Except ε β) : (Except.error e >>= f) = .error e := rfl

theorem bind_eq_ok {x : Except ε α} {f : α → Except ε β} {b : β} :
    (x >>= f) = .ok b ↔ ∃ a, x = .ok a ∧ f a = .ok b := by
  cases x <;> simp

theorem map_eq_ok {x : Except ε α} {f : α → β} {b : β} :
    x.map f = .ok b ↔ ∃ a, x = .ok a ∧ f a = b := by
  cases x <;> simp [Except.map]

/-- A view of the result fails as the computation does. -/
theorem map_eq_error {x : Except ε α} {f : α → β} {e : ε} : x.map f = .error e ↔ x = .error e := by
  cases x <;> simp [Except.map]

theorem toOption_eq_some {x : Except ε α} {a : α} : x.toOption = some a ↔ x = .ok a := by
  cases x <;> simp [Except.toOption]

/-- What follows an assertion is computed exactly when the assertion holds. -/
theorem check_bind_eq_ok {name : ε} {p : Prop} [Decidable p] {f : PUnit → Except ε β} {b : β} :
    (check name p >>= f) = .ok b ↔ p ∧ f ⟨⟩ = .ok b := by
  by_cases h : p
  · rw [check_pos h]
    exact ⟨fun hb => ⟨h, hb⟩, fun hb => hb.2⟩
  · rw [check_neg h]
    exact ⟨(nomatch ·), fun hb => absurd hb.1 h⟩

end Netfish.Kit

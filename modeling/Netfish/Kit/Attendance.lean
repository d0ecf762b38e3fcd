import Mathlib.Data.List.Basic
import Mathlib.Logic.Function.Basic

/-!
# Attendance

How many of the parties `0` to `n - 1` are there, as they come and go one at a time: what a counter shows that
each of them increments as it comes and decrements as it goes.
-/

set_option autoImplicit false

namespace Netfish.Kit

variable {n i : Nat} {there : Nat → Bool}

def attendance (n : Nat) (there : Nat → Bool) : Nat := (List.range n).countP there

theorem attendance_succ (n : Nat) (there : Nat → Bool) :
    attendance (n + 1) there = attendance n there + (there n).toNat := by
  rw [attendance, List.range_succ, List.countP_append, List.countP_singleton]
  cases there n <;> rfl

theorem attendance_congr {there' : Nat → Bool} (h : ∀ j, j < n → there j = there' j) :
    attendance n there = attendance n there' :=
  List.countP_congr fun j hj => by rw [h j (List.mem_range.mp hj)]

theorem attendance_le (n : Nat) (there : Nat → Bool) : attendance n there ≤ n := by
  have hle := List.countP_le_length (p := there) (l := List.range n)
  rwa [List.length_range] at hle

theorem attendance_eq_all : attendance n there = n ↔ ∀ j, j < n → there j = true := by
  have hall := List.countP_eq_length (p := there) (l := List.range n)
  rw [List.length_range] at hall
  simpa [attendance] using hall

/-- One party comes, or goes, or stays. -/
theorem attendance_update (hi : i < n) (there : Nat → Bool) (b : Bool) :
    attendance n (Function.update there i b) + (there i).toNat = attendance n there + b.toNat := by
  induction n with
  | zero => exact absurd hi (Nat.not_lt_zero i)
  | succ n ih =>
    rw [attendance_succ, attendance_succ]
    rcases Nat.lt_succ_iff_lt_or_eq.mp hi with hlt | rfl
    · rw [Function.update_of_ne (Nat.ne_of_gt hlt)]
      have hrest := ih hlt
      omega
    · have hrest : attendance i (Function.update there i b) = attendance i there :=
        attendance_congr fun j hj => Function.update_of_ne (Nat.ne_of_lt hj) ..
      rw [Function.update_self, hrest]
      omega

end Netfish.Kit

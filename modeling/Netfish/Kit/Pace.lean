import Mathlib.Algebra.Order.Ring.Int
import Mathlib.Data.List.Basic

/-!
# Jobs that run at a pace

`Paced` is the history of one job: it is due at a first time, and, if it repeats, a fixed interval after each
run. No run comes before it is due; how late one comes is left open, and a late run puts off all that follow.
`Paced.apart` and `Paced.length_le` are what this means for the times of the runs, whatever the clock does.
-/

set_option autoImplicit false

namespace Netfish.Kit

/-- When the job is due after these runs. -/
def nextDue (interval : Nat) (due : Int) (runs : List Int) : Int :=
  match runs.getLast? with
  | some last => last + interval
  | none => due

@[simp] theorem nextDue_nil (interval : Nat) (due : Int) : nextDue interval due [] = due := rfl

@[simp] theorem nextDue_concat (interval : Nat) (due : Int) (runs : List Int) (last : Int) :
    nextDue interval due (runs ++ [last]) = last + interval := by
  simp [nextDue]

/-- The runs of a job, none before it is due, and none after the first one unless it repeats. -/
inductive Paced (interval : Nat) (repeats : Bool) (due : Int) : List Int → Prop
  | nil : Paced interval repeats due []
  | concat {runs : List Int} {now : Int} (h : Paced interval repeats due runs)
      (hdue : nextDue interval due runs ≤ now) (hagain : runs ≠ [] → repeats = true) :
      Paced interval repeats due (runs ++ [now])

variable {interval : Nat} {repeats : Bool} {due : Int} {runs : List Int}

/-- A job that does not repeat runs once. -/
theorem Paced.once (h : Paced interval repeats due runs) (hrepeats : repeats = false) : runs.length ≤ 1 := by
  cases h with
  | nil => exact Nat.zero_le 1
  | @concat runs now _ _ hagain =>
    have hnil : runs = [] := by
      by_contra hne
      cases (hagain hne).symm.trans hrepeats
    rw [hnil]
    exact Nat.le_refl 1

/-- The runs so far are an interval before the next one is due. -/
theorem Paced.le_nextDue (h : Paced interval repeats due runs) :
    due ≤ nextDue interval due runs ∧ ∀ t ∈ runs, t + interval ≤ nextDue interval due runs := by
  induction h with
  | nil => exact ⟨Int.le_refl due, fun t ht => absurd ht List.not_mem_nil⟩
  | @concat runs now _ hdue _ ih =>
    rw [nextDue_concat]
    refine ⟨by omega, ?_⟩
    intro t ht
    rcases List.mem_append.mp ht with ht | ht
    · have hle := ih.2 t ht
      omega
    · rw [List.mem_singleton.mp ht]

/-- No run is early. -/
theorem Paced.le (h : Paced interval repeats due runs) : ∀ t ∈ runs, due ≤ t := by
  induction h with
  | nil => exact fun t ht => absurd ht List.not_mem_nil
  | @concat runs now h hdue _ ih =>
    intro t ht
    rcases List.mem_append.mp ht with ht | ht
    · exact ih t ht
    · rw [List.mem_singleton.mp ht]
      exact h.le_nextDue.1.trans hdue

/-- Two runs are an interval apart, the later one being later on the clock too. -/
theorem Paced.apart (h : Paced interval repeats due runs) :
    runs.Pairwise fun t t' : Int => t + interval ≤ t' := by
  induction h with
  | nil => exact .nil
  | @concat runs now h hdue _ ih =>
    refine List.pairwise_append.mpr ⟨ih, List.pairwise_singleton .., ?_⟩
    intro t ht t' ht'
    rw [List.mem_singleton.mp ht']
    exact (h.le_nextDue.2 t ht).trans hdue

/-- As many intervals have gone by as there were runs, when the next one is due. -/
theorem Paced.length_le (h : Paced interval repeats due runs) :
    due + runs.length * interval ≤ nextDue interval due runs := by
  induction h with
  | nil => simp
  | @concat runs now h hdue _ ih =>
    rw [nextDue_concat, List.length_append, List.length_singleton]
    push_cast
    calc due + (runs.length + 1) * interval
        = due + runs.length * interval + interval := by
          rw [add_mul, one_mul, ← add_assoc]
      _ ≤ nextDue interval due runs + interval := Int.add_le_add_right ih _
      _ ≤ now + interval := Int.add_le_add_right hdue _

end Netfish.Kit

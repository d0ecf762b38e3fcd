import Mathlib.Algebra.BigOperators.Group.Finset.Piecewise
import Mathlib.Algebra.Order.Group.Multiset

/-!
# Tickets

A counter that several parties take numbers from, one number a step, and a list of the numbers handed in.
`Tickets` says that the numbers given out so far are, each once, with their holders or in the list; so when
nobody holds one the list is all of them, in some order. What is on a ticket may repeat (`number`), as on a
counter that wraps around.
-/

set_option autoImplicit false

namespace Netfish.Kit

universe u

variable {β : Type u} {number : Nat → β} {count n : Nat} {held : Nat → Option β} {back : List β}

/-- What a party holds. -/
def inHand (o : Option β) : Multiset β := o.elim 0 ({·})

/-- The first `count` tickets are with the first `n` parties or in the list. -/
def Tickets (number : Nat → β) (count n : Nat) (held : Nat → Option β) (back : List β) : Prop :=
  (back : Multiset β) + ∑ i ∈ Finset.range n, inHand (held i) = (Multiset.range count).map number

/-- What one party holds, and the others. -/
theorem sum_inHand_update {i : Nat} (hi : i < n) (held : Nat → Option β) (o : Option β) :
    ∑ j ∈ Finset.range n, inHand (Function.update held i o j) =
      inHand o + ∑ j ∈ Finset.range n \ {i}, inHand (held j) := by
  have hmap : (fun j => inHand (Function.update held i o j)) =
      Function.update (fun j => inHand (held j)) i (inHand o) := by
    ext j : 1
    by_cases hj : j = i
    · subst hj
      simp
    · simp [hj]
  rw [hmap, Finset.sum_update_of_mem (Finset.mem_range.mpr hi)]

/-- A party takes the next ticket. -/
theorem Tickets.take (h : Tickets number count n held back) {i : Nat} (hi : i < n) (hnone : held i = none) :
    Tickets number (count + 1) n (Function.update held i (some (number count))) back := by
  unfold Tickets at h ⊢
  rw [Finset.sum_eq_add_sum_sdiff_singleton_of_mem (Finset.mem_range.mpr hi), hnone,
    show inHand (none : Option β) = 0 from rfl, zero_add] at h
  rw [sum_inHand_update hi, Multiset.range_succ, Multiset.map_cons, ← h,
    show inHand (some (number count)) = {number count} from rfl, Multiset.singleton_add, Multiset.add_cons]

/-- A party hands its ticket in. -/
theorem Tickets.handIn (h : Tickets number count n held back) {i : Nat} (hi : i < n) {b : β}
    (hsome : held i = some b) : Tickets number count n (Function.update held i none) (back ++ [b]) := by
  unfold Tickets at h ⊢
  rw [Finset.sum_eq_add_sum_sdiff_singleton_of_mem (Finset.mem_range.mpr hi), hsome,
    show inHand (some b) = {b} from rfl] at h
  rw [sum_inHand_update hi, ← h, show inHand (none : Option β) = 0 from rfl, zero_add, ← Multiset.coe_add,
    Multiset.coe_singleton, add_assoc]

end Netfish.Kit

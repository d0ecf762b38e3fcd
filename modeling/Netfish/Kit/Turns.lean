import Mathlib.Data.Int.CardIntervalMod

/-!
# Taking turns

`turns xs m` is what comes out of a list read round and round, `m` elements long. The element at `k` is
the one at `k` modulo the length, and of distinct elements no one comes more than once more often than
another.
-/

set_option autoImplicit false

namespace Netfish.Kit

universe u

variable {α : Type u}

/-- The first `m` elements of the list repeated without end. -/
def turns (xs : List α) (m : Nat) : List α :=
  (List.range m).filterMap fun k => xs[k % xs.length]?

variable {xs : List α}

@[simp] theorem turns_zero : turns xs 0 = [] := rfl

/-- One more turn. -/
theorem turns_succ {m i : Nat} (hi : i < xs.length) (hm : m % xs.length = i) :
    turns xs (m + 1) = turns xs m ++ [xs[i]] := by
  subst hm
  simp only [turns, List.range_succ, List.filterMap_append, List.filterMap_cons,
    List.getElem?_eq_getElem hi, List.filterMap_nil]

theorem length_turns (hne : xs ≠ []) (m : Nat) : (turns xs m).length = m := by
  induction m with
  | zero => rfl
  | succ m ih =>
    rw [turns_succ (Nat.mod_lt m (List.length_pos_iff.mpr hne)) rfl, List.length_append, ih]
    rfl

theorem getElem?_turns (hne : xs ≠ []) {k m : Nat} (hk : k < m) :
    (turns xs m)[k]? = xs[k % xs.length]? := by
  induction m with
  | zero => cases hk
  | succ m ih =>
    have hlt := Nat.mod_lt m (List.length_pos_iff.mpr hne)
    have hlen := length_turns hne m
    rw [turns_succ hlt rfl]
    rcases Nat.lt_succ_iff_lt_or_eq.mp hk with hk | rfl
    · rw [List.getElem?_append_left (by omega), ih hk]
    · rw [List.getElem?_append_right (by omega), hlen, Nat.sub_self,
        List.getElem?_eq_getElem hlt]
      rfl

section Count

variable [DecidableEq α]

/-- Each of distinct elements has its turn once a round. -/
theorem count_turns (h : xs.Nodup) {i : Nat} (hi : i < xs.length) (m : Nat) :
    (turns xs m).count xs[i] = m.count (· ≡ i [MOD xs.length]) := by
  induction m with
  | zero => rfl
  | succ m ih =>
    have hlt : m % xs.length < xs.length := Nat.mod_lt m (by omega)
    have hmod : i % xs.length = i := Nat.mod_eq_of_lt hi
    rw [turns_succ hlt rfl, List.count_append, ih, Nat.count_succ, List.count_singleton]
    congr 1
    simp only [beq_iff_eq, h.getElem_inj_iff, Nat.ModEq, hmod]

/-- No one is more than one turn ahead. -/
theorem count_turns_le (h : xs.Nodup) {a b : α} (ha : a ∈ xs) (hb : b ∈ xs) (m : Nat) :
    (turns xs m).count a ≤ (turns xs m).count b + 1 := by
  obtain ⟨i, hi, rfl⟩ := List.mem_iff_getElem.mp ha
  obtain ⟨j, hj, rfl⟩ := List.mem_iff_getElem.mp hb
  have hpos : 0 < xs.length := by omega
  rw [count_turns h hi, count_turns h hj, Nat.count_modEq_card m hpos, Nat.count_modEq_card m hpos]
  split <;> split <;> omega

end Count

end Netfish.Kit

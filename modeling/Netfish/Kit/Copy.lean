import Mathlib.Data.List.Basic

/-!
# Element-wise copies

`std::copy` stores one element at a time, from the first to the last. `store` copies from outside
the array; `copyWithin` copies inside one array, where each store is already visible to the reads
after it. `copyWithin_eq` is the reason a forward copy may overlap: towards the front, an element is
read before anything overwrites it.
-/

set_option autoImplicit false

namespace Netfish.Kit

universe u

variable {α : Type u}

/-- Store `bs` element by element from position `i` on. -/
def store (l : List α) (i : Nat) : List α → List α
  | [] => l
  | b :: bs => store (l.set i b) (i + 1) bs

/-- Copy `n` elements from `src` on to `dst` on, element by element in increasing order. -/
def copyWithin (l : List α) (src dst : Nat) : Nat → List α
  | 0 => l
  | n + 1 =>
    match l[src]? with
    | some b => copyWithin (l.set dst b) (src + 1) (dst + 1) n
    | none => l

@[simp] theorem store_length (bs : List α) : ∀ (l : List α) (i : Nat),
    (store l i bs).length = l.length := by
  induction bs with
  | nil => intro l i; rfl
  | cons b bs ih => intro l i; rw [store, ih, List.length_set]

@[simp] theorem copyWithin_length (n : Nat) : ∀ (l : List α) (src dst : Nat),
    (copyWithin l src dst n).length = l.length := by
  induction n with
  | zero =>
    intro l src dst
    rfl
  | succ n ih =>
    intro l src dst
    rw [copyWithin]
    split
    · rw [ih, List.length_set]
    · rfl

private theorem take_succ_set {l : List α} {i : Nat} (b : α) (h : i < l.length) :
    (l.set i b).take (i + 1) = l.take i ++ [b] := by
  rw [List.take_add_one, List.take_set_of_le (Nat.le_refl i), List.getElem?_set_self h]
  rfl

/-- The array after a store: what was before, the stored elements, what was behind. -/
theorem store_eq (bs : List α) : ∀ {l : List α} {i : Nat}, i + bs.length ≤ l.length →
    store l i bs = l.take i ++ bs ++ l.drop (i + bs.length) := by
  induction bs with
  | nil => intro l i _; simp [store]
  | cons b bs ih =>
    intro l i h
    rw [List.length_cons] at h
    rw [store, ih (by rw [List.length_set]; omega), take_succ_set b (by omega),
      List.drop_set_of_lt (by omega), List.length_cons, Nat.add_right_comm i 1]
    simp only [List.append_assoc, List.cons_append, List.nil_append, Nat.add_assoc]

/-- A copy towards the front moves the elements whole, however far source and destination overlap. -/
theorem copyWithin_eq (n : Nat) : ∀ {l : List α} {src dst : Nat}, dst ≤ src → src + n ≤ l.length →
    copyWithin l src dst n = l.take dst ++ (l.drop src).take n ++ l.drop (dst + n) := by
  induction n with
  | zero => intro l src dst _ _; simp [copyWithin]
  | succ n ih =>
    intro l src dst hle hlen
    have hsrc : src < l.length := by omega
    rw [copyWithin, List.getElem?_eq_getElem hsrc]
    -- the element at `src` has not been overwritten yet, and nothing behind `src` is by this store
    dsimp only
    rw [ih (by omega) (by rw [List.length_set]; omega), take_succ_set _ (by omega),
      List.drop_set_of_lt (by omega), List.drop_set_of_lt (by omega),
      List.drop_eq_getElem_cons hsrc, List.take_succ_cons, Nat.add_right_comm dst 1]
    simp only [List.append_assoc, List.cons_append, Nat.add_assoc]
    rfl

end Netfish.Kit

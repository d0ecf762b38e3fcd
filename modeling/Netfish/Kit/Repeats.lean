import Mathlib.Data.List.Rotate

/-!
# Lists that repeat a block

`Repeats m l` says that `l` is the block `m` over and over, broken off anywhere. What is read of such a list
from the front is one again, and so is the list with one more block before it; the element at each place is
that of the block at the remainder (`Repeats.getElem?_eq`). In rows of one width it is found by row and column
(`getElem?_flatMap_rows`). Of a block that goes round, what is left between two
readings is the block again, rotated (`eq_rotate_of_append_eq`).
-/

set_option autoImplicit false

namespace Netfish.Kit

universe u

variable {α : Type u} {m l l' : List α}

/-- The list is a prefix of copies of the block. -/
def Repeats (m l : List α) : Prop := ∃ k, l <+: (List.replicate k m).flatten

theorem repeats_nil (m : List α) : Repeats m [] := ⟨0, List.nil_prefix⟩

theorem repeats_replicate (m : List α) (k : Nat) : Repeats m (List.replicate k m).flatten :=
  ⟨k, List.prefix_rfl⟩

theorem Repeats.of_beginning (h : Repeats m l) (hl : l' <+: l) : Repeats m l' := by
  obtain ⟨k, hk⟩ := h
  exact ⟨k, hl.trans hk⟩

/-- One more block in front. -/
theorem Repeats.append (h : Repeats m l) : Repeats m (m ++ l) := by
  obtain ⟨k, hk⟩ := h
  refine ⟨k + 1, ?_⟩
  rw [List.replicate_succ, List.flatten_cons]
  exact (List.prefix_append_right_inj m).mpr hk

theorem repeats_self (m : List α) : Repeats m m := by
  have h := (repeats_nil m).append
  rwa [List.append_nil] at h

/-- Without a block there is nothing. -/
theorem Repeats.eq_nil (h : Repeats [] l) : l = [] := by
  obtain ⟨k, hk⟩ := h
  have hnil : (List.replicate k ([] : List α)).flatten = [] := by simp
  rw [hnil] at hk
  exact List.prefix_nil.mp hk

theorem getElem?_flatten_replicate (m : List α) {k i : Nat} (hi : i < k * m.length) :
    (List.replicate k m).flatten[i]? = m[i % m.length]? := by
  induction k generalizing i with
  | zero => omega
  | succ k ih =>
    rw [List.replicate_succ, List.flatten_cons]
    by_cases hlt : i < m.length
    · rw [List.getElem?_append_left hlt, Nat.mod_eq_of_lt hlt]
    · have hge : m.length ≤ i := Nat.le_of_not_lt hlt
      have hrest : i - m.length < k * m.length := by
        rw [Nat.succ_mul] at hi
        omega
      rw [List.getElem?_append_right hge, ih hrest, Nat.mod_eq_sub_mod hge]

/-- The element at each place is that of the block at the remainder. -/
theorem Repeats.getElem?_eq (h : Repeats m l) {i : Nat} (hi : i < l.length) :
    l[i]? = m[i % m.length]? := by
  obtain ⟨k, hk⟩ := h
  have hlen : (List.replicate k m).flatten.length = k * m.length := by simp
  have hlt : i < k * m.length := hlen ▸ Nat.lt_of_lt_of_le hi hk.length_le
  rw [← getElem?_flatten_replicate m hlt, List.getElem?_eq_getElem hi,
    List.getElem?_eq_getElem (hlen ▸ hlt), hk.getElem hi]

/-- The element at a place of rows of one width. -/
theorem getElem?_flatMap_rows {β : Type u} {f : Nat → List β} {w n i j : Nat}
    (hw : ∀ i, i < n → (f i).length = w) (hi : i < n) (hj : j < w) :
    ((List.range n).flatMap f)[i * w + j]? = (f i)[j]? := by
  induction n with
  | zero => cases hi
  | succ n ih =>
    have hlen : ((List.range n).flatMap f).length = n * w := by
      rw [List.length_flatMap, List.map_congr_left (g := fun _ => w)]
      · simp
      · intro i hi
        exact hw i (Nat.lt_succ_of_lt (List.mem_range.mp hi))
    rw [List.range_succ, List.flatMap_append, List.flatMap_singleton]
    by_cases hlt : i < n
    · have hin : i * w + j < n * w := calc
        i * w + j < i * w + w := Nat.add_lt_add_left hj _
        _ = (i + 1) * w := (Nat.succ_mul i w).symm
        _ ≤ n * w := Nat.mul_le_mul_right w hlt
      rw [List.getElem?_append_left (hlen ▸ hin)]
      exact ih (fun i hi => hw i (Nat.lt_succ_of_lt hi)) hlt
    · obtain rfl : i = n := by omega
      rw [List.getElem?_append_right (hlen ▸ Nat.le_add_right ..), hlen, Nat.add_sub_cancel_left]

/-- What is behind `t`, when the block before it is as good as something behind it. -/
theorem eq_rotate_of_append_eq {t x : List α} (h : m ++ t = t ++ x) : x = m.rotate t.length := by
  induction t generalizing m with
  | nil =>
    rw [List.append_nil, List.nil_append] at h
    rw [← h]
    exact (List.rotate_zero m).symm
  | cons a t ih =>
    cases m with
    | nil =>
      rw [List.nil_append] at h
      rw [List.self_eq_append_right.mp h, List.rotate_nil]
    | cons b m =>
      rw [List.cons_append, List.cons_append] at h
      obtain ⟨rfl, htail⟩ := List.cons_eq_cons.mp h
      rw [List.length_cons, List.rotate_cons_succ]
      apply ih
      rw [List.append_assoc]
      exact htail

end Netfish.Kit

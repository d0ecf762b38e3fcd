import Mathlib.Algebra.Ring.Nat
import Mathlib.Data.List.Basic
import Mathlib.Data.List.Lex

/-!
# Decimal texts

What a reader of decimal numbers needs of `Nat.toDigits`: a number followed by something that is not a digit
is read back, and a digit more is ten times as much. Fixed width fields, as `printf` pads them, are ordered as
texts as their numbers are, and so is a record of such fields (`render_lt_iff`): compared field by field.
-/

set_option autoImplicit false

namespace Netfish.Kit

universe u

/-! ## Digits -/

theorem exists_digit {ch : Char} (h : ch.isDigit = true) : ∃ d, d < 10 ∧ ch = d.digitChar := by
  have hlow : 48 ≤ ch.toNat ∧ ch.toNat ≤ 57 := by
    simpa [Char.isDigit, UInt32.le_iff_toNat_le] using h
  refine ⟨ch.toNat - 48, by omega, ?_⟩
  apply Char.toNat_inj.mp
  rw [Nat.toNat_digitChar_of_lt_ten (by omega)]
  omega

theorem toDigits_snoc {n d : Nat} (hn : n ≠ 0) (hd : d < 10) :
    Nat.toDigits 10 n ++ [d.digitChar] = Nat.toDigits 10 (n * 10 + d) := by
  rw [Nat.mul_comm, ← Nat.toDigits_append_toDigits (by decide) (Nat.pos_of_ne_zero hn) hd,
    Nat.toDigits_of_lt_base hd]

theorem toDigits_inj {m n : Nat} (h : Nat.toDigits 10 m = Nat.toDigits 10 n) : m = n := by
  have hvalue := congrArg (fun text => Nat.ofDigitChars 10 text 0) h
  simpa only [Nat.ofDigitChars_ten_toDigits] using hvalue

theorem isDigit_of_mem {n : Nat} {ch : Char} (h : ch ∈ Nat.toDigits 10 n) : ch.isDigit = true :=
  Nat.isDigit_of_mem_toDigits (by decide) (by decide) h

/-- A list up to the first element that fails a test. -/
theorem takeWhile_stop {α : Type u} {p : α → Bool} {xs s : List α} {a : α} (hxs : ∀ x ∈ xs, p x = true)
    (ha : p a = false) : (xs ++ a :: s).takeWhile p = xs := by
  rw [List.takeWhile_append_of_pos hxs, List.takeWhile_cons_of_neg (by simp [ha]), List.append_nil]

/-- Two numbers, each with a separator after it. -/
theorem toDigits_sep_inj {m n : Nat} {a b : Char} {s t : List Char} (ha : a.isDigit = false)
    (hb : b.isDigit = false) (h : Nat.toDigits 10 m ++ a :: s = Nat.toDigits 10 n ++ b :: t) :
    m = n ∧ a :: s = b :: t := by
  have htext := congrArg (List.takeWhile Char.isDigit) h
  rw [takeWhile_stop (fun _ => isDigit_of_mem) ha, takeWhile_stop (fun _ => isDigit_of_mem) hb] at htext
  obtain rfl := toDigits_inj htext
  exact ⟨rfl, List.append_cancel_left h⟩

/-! ## Fixed width -/

/-- What `snprintf` leaves of a text in a buffer of `size` characters, one of them the NUL. -/
def snprintf (size : Nat) (text : List Char) : List Char := text.take (size - 1)

/-- `%0wd` of a number that is not negative. -/
def zeroPadded (width n : Nat) : List Char := List.leftpad width '0' (Nat.toDigits 10 n)

theorem zeroPadded_length {width n : Nat} (hwidth : 0 < width) (hn : n < 10 ^ width) :
    (zeroPadded width n).length = width := by
  have hlen := (Nat.length_toDigits_le_iff (by decide : 1 < 10) hwidth).mpr hn
  rw [zeroPadded, List.leftpad, List.length_append, List.length_replicate]
  omega

/-- The last digit apart. -/
theorem zeroPadded_succ (width n : Nat) : zeroPadded (width + 2) n =
    zeroPadded (width + 1) (n / 10) ++ [(n % 10).digitChar] := by
  unfold zeroPadded List.leftpad
  by_cases hn : n < 10
  · rw [Nat.toDigits_of_lt_base hn, Nat.div_eq_of_lt hn, Nat.mod_eq_of_lt hn, Nat.toDigits_zero]
    simp only [List.length_singleton, Nat.add_sub_cancel]
    rw [show width + 2 - 1 = width + 1 from rfl, List.replicate_succ']
  · rw [Nat.toDigits_of_base_le (by decide) (Nat.le_of_not_lt hn), List.length_append, List.length_singleton,
      ← List.append_assoc, Nat.add_sub_add_right (width + 1) 1]

theorem digitChar_lt {m n : Nat} (h : m < n) (hn : n < 10) : m.digitChar < n.digitChar := by
  have hm : m.digitChar.toNat < n.digitChar.toNat := by
    rw [Nat.toNat_digitChar_of_lt_ten (by omega), Nat.toNat_digitChar_of_lt_ten hn]
    omega
  exact hm

/-- Texts of one length, followed by others. -/
theorem append_lt_append {α : Type u} [LT α] {xs ys s t : List α} (hlen : xs.length = ys.length)
    (h : xs < ys) : xs ++ s < ys ++ t := by
  induction xs generalizing ys with
  | nil =>
    obtain rfl := List.eq_nil_of_length_eq_zero hlen.symm
    exact absurd h (List.not_lt_nil _)
  | cons x xs ih =>
    cases ys with
    | nil => cases hlen
    | cons y ys =>
      rw [List.cons_append, List.cons_append, List.cons_lt_cons_iff]
      rcases List.cons_lt_cons_iff.mp h with hxy | ⟨rfl, hrest⟩
      · exact .inl hxy
      · exact .inr ⟨rfl, ih (Nat.succ.inj hlen) hrest⟩

theorem zeroPadded_lt {width m n : Nat} (hwidth : 0 < width) (h : m < n) (hn : n < 10 ^ width) :
    zeroPadded width m < zeroPadded width n := by
  obtain ⟨width, rfl⟩ := Nat.exists_eq_succ_of_ne_zero (Nat.ne_of_gt hwidth)
  induction width generalizing m n with
  | zero =>
    have hn : n < 10 := by simpa using hn
    rw [zeroPadded, zeroPadded, Nat.toDigits_of_lt_base hn, Nat.toDigits_of_lt_base (h.trans hn)]
    exact List.cons_lt_cons_iff.mpr (.inl (digitChar_lt h hn))
  | succ width ih =>
    have hn' : n / 10 < 10 ^ (width + 1) := by
      rw [Nat.div_lt_iff_lt_mul (by decide), ← Nat.pow_succ]
      exact hn
    rw [zeroPadded_succ, zeroPadded_succ]
    rcases Nat.lt_or_ge (m / 10) (n / 10) with hlt | hge
    · refine append_lt_append ?_ (ih hlt (Nat.succ_pos _) hn')
      rw [zeroPadded_length (Nat.succ_pos _) (hlt.trans hn'), zeroPadded_length (Nat.succ_pos _) hn']
    · have heq : m / 10 = n / 10 := by omega
      rw [heq]
      exact List.append_left_lt (List.cons_lt_cons_iff.mpr (.inl (digitChar_lt (by omega) (by omega))))

/-! ## Records of fields -/

/-- Numbers in fields of given widths, each with what stands after it. -/
def render : List (Nat × List Char) → List Nat → List Char
  | (width, sep) :: fields, n :: ns => zeroPadded width n ++ sep ++ render fields ns
  | _, _ => []

/-- The numbers have room in the fields. -/
def FitsFields (fields : List (Nat × List Char)) (ns : List Nat) : Prop :=
  List.Forall₂ (fun field n => 0 < field.1 ∧ n < 10 ^ field.1) fields ns

variable {fields : List (Nat × List Char)} {ms ns : List Nat}

theorem render_length (h : FitsFields fields ns) :
    (render fields ns).length = (fields.map fun field => field.1 + field.2.length).sum := by
  induction h with
  | nil => rfl
  | cons hfield _ ih =>
    simp only [render, List.length_append, zeroPadded_length hfield.1 hfield.2, ih, List.map_cons,
      List.sum_cons]

theorem render_lt (hm : FitsFields fields ms) (hn : FitsFields fields ns) (h : ms < ns) :
    render fields ms < render fields ns := by
  induction hm generalizing ns with
  | nil =>
    cases hn
    exact absurd h (List.lt_irrefl _)
  | @cons field m fields ms hfield _ ih =>
    cases hn with
    | @cons _ n _ ns hfield' hn =>
      rw [render, render, List.append_assoc, List.append_assoc]
      rcases List.cons_lt_cons_iff.mp h with hlt | ⟨rfl, hrest⟩
      · refine append_lt_append ?_ (zeroPadded_lt hfield.1 hlt hfield'.2)
        rw [zeroPadded_length hfield.1 hfield.2, zeroPadded_length hfield.1 hfield'.2]
      · exact List.append_left_lt (List.append_left_lt (ih hn hrest))

/-- Records are ordered as texts as they are as lists of numbers. -/
theorem render_lt_iff (hm : FitsFields fields ms) (hn : FitsFields fields ns) :
    render fields ms < render fields ns ↔ ms < ns := by
  refine ⟨fun h => ?_, render_lt hm hn⟩
  rcases lt_trichotomy ms ns with hlt | rfl | hgt
  · exact hlt
  · exact absurd h (List.lt_irrefl _)
  · exact absurd (List.lt_trans h (render_lt hn hm hgt)) (List.lt_irrefl _)

end Netfish.Kit

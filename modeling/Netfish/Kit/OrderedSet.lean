import Mathlib.Data.List.Sort
import Mathlib.Data.Prod.Lex

/-!
# Ordered sets

`OrderedSet` is a set kept as its strictly sorted list of elements, with the operations of an
ordered container: insertion and erasure that report whether they changed anything, the least
element, and the cut at a lower bound. `Pair` is the pair type its keys are often made of, ordered
by the first component and then by the second.

Each operation has a membership law and a size law. The sorted list is a field, so an unsorted set
cannot be built.
-/

set_option autoImplicit false

namespace Netfish.Kit

universe u v

/-! ## Pairs -/

@[ext]
structure Pair (α : Type u) (β : Type v) where
  first : α
  second : β
deriving DecidableEq, Repr

namespace Pair

variable {α : Type u} {β : Type v} [LinearOrder α] [LinearOrder β]

instance : LinearOrder (Pair α β) :=
  LinearOrder.lift' (fun p => toLex (p.first, p.second)) fun p q h => by
    obtain ⟨h₁, h₂⟩ := Prod.mk.inj (toLex.injective h)
    exact Pair.ext h₁ h₂

theorem lt_iff {p q : Pair α β} :
    p < q ↔ p.first < q.first ∨ p.first = q.first ∧ p.second < q.second :=
  Prod.Lex.toLex_lt_toLex

/-- Pairs are sorted by their first components, not strictly. -/
theorem first_le_of_lt {p q : Pair α β} (h : p < q) : p.first ≤ q.first :=
  (lt_iff.mp h).elim le_of_lt fun h => le_of_eq h.1

theorem first_le_of_le {p q : Pair α β} (h : p ≤ q) : p.first ≤ q.first := by
  rcases h.eq_or_lt with rfl | h
  · exact le_rfl
  · exact first_le_of_lt h

end Pair

/-! ## Strictly sorted lists -/

section Lists

variable {α : Type u} [LinearOrder α]

/-- Insertion that keeps an element already there. -/
def insertList (a : α) : List α → List α
  | [] => [a]
  | b :: l => if a < b then a :: b :: l else if a = b then b :: l else b :: insertList a l

theorem mem_insertList {a x : α} {l : List α} : x ∈ insertList a l ↔ x = a ∨ x ∈ l := by
  induction l with
  | nil => simp [insertList]
  | cons b l ih =>
    rw [insertList]
    split
    · simp
    split
    · next hab => simp [hab]
    · simp [ih, or_left_comm]

theorem sorted_insertList {a : α} {l : List α} (h : l.Pairwise (· < ·)) :
    (insertList a l).Pairwise (· < ·) := by
  induction l with
  | nil => exact List.pairwise_singleton ..
  | cons b l ih =>
    obtain ⟨hb, hl⟩ := List.pairwise_cons.mp h
    rw [insertList]
    split
    · next hab =>
      refine List.pairwise_cons.mpr ⟨?_, h⟩
      intro x hx
      rcases List.mem_cons.mp hx with rfl | hx
      · exact hab
      · exact lt_trans hab (hb x hx)
    split
    · exact h
    · next hab hne =>
      refine List.pairwise_cons.mpr ⟨?_, ih hl⟩
      intro x hx
      rcases mem_insertList.mp hx with rfl | hx
      · exact lt_of_le_of_ne (not_lt.mp hab) (Ne.symm hne)
      · exact hb x hx

theorem length_insertList {a : α} {l : List α} (h : a ∉ l) :
    (insertList a l).length = l.length + 1 := by
  induction l with
  | nil => rfl
  | cons b l ih =>
    obtain ⟨hne, hl⟩ := not_or.mp (mt List.mem_cons.mpr h)
    rw [insertList, if_neg hne]
    split
    · rfl
    · rw [List.length_cons, ih hl, List.length_cons]

/-- In a sorted list the elements below a bound are a prefix. -/
theorem mem_takeWhile_lt {a x : α} {l : List α} (h : l.Pairwise (· < ·)) :
    x ∈ l.takeWhile (· < a) ↔ x ∈ l ∧ x < a := by
  induction l with
  | nil => simp
  | cons b l ih =>
    obtain ⟨hb, hl⟩ := List.pairwise_cons.mp h
    by_cases hba : b < a
    · simp only [List.takeWhile_cons, hba, decide_true, if_true, List.mem_cons, ih hl]
      constructor
      · rintro (rfl | hx)
        · exact ⟨.inl rfl, hba⟩
        · exact ⟨.inr hx.1, hx.2⟩
      · rintro ⟨hx | hx, hxa⟩
        · exact .inl hx
        · exact .inr ⟨hx, hxa⟩
    · simp only [List.takeWhile_cons, hba, decide_false, Bool.false_eq_true, if_false,
        List.not_mem_nil, List.mem_cons, false_iff, not_and]
      rintro (rfl | hx) hxa
      · exact hba hxa
      · exact hba (lt_trans (hb x hx) hxa)

theorem mem_dropWhile_lt {a x : α} {l : List α} (h : l.Pairwise (· < ·)) :
    x ∈ l.dropWhile (· < a) ↔ x ∈ l ∧ ¬ x < a := by
  induction l with
  | nil => simp
  | cons b l ih =>
    obtain ⟨hb, hl⟩ := List.pairwise_cons.mp h
    by_cases hba : b < a
    · simp only [List.dropWhile_cons, hba, decide_true, if_true, ih hl, List.mem_cons]
      constructor
      · exact fun hx => ⟨.inr hx.1, hx.2⟩
      · rintro ⟨rfl | hx, hxa⟩
        · exact absurd hba hxa
        · exact ⟨hx, hxa⟩
    · simp only [List.dropWhile_cons, hba, decide_false, Bool.false_eq_true, if_false]
      refine ⟨fun hx => ⟨hx, ?_⟩, fun hx => hx.1⟩
      intro hxa
      rcases List.mem_cons.mp hx with rfl | hx
      · exact hba hxa
      · exact hba (lt_trans (hb x hx) hxa)

end Lists

/-! ## The sets -/

structure OrderedSet (α : Type u) [LinearOrder α] where
  toList : List α
  sorted : toList.Pairwise (· < ·)

namespace OrderedSet

variable {α : Type u} [LinearOrder α]

instance : Membership α (OrderedSet α) where
  mem s a := a ∈ s.toList

instance (a : α) (s : OrderedSet α) : Decidable (a ∈ s) :=
  inferInstanceAs (Decidable (a ∈ s.toList))

def empty : OrderedSet α := ⟨[], .nil⟩

def size (s : OrderedSet α) : Nat := s.toList.length

/-- The least element, if there is one. -/
def begin (s : OrderedSet α) : Option α := s.toList.head?

/-- The set with the element, and whether it is new. -/
def insert (a : α) (s : OrderedSet α) : OrderedSet α × Bool :=
  (⟨insertList a s.toList, sorted_insertList s.sorted⟩, decide (a ∉ s))

/-- The set without the element, and how many were erased. -/
def erase (a : α) (s : OrderedSet α) : OrderedSet α × Nat :=
  (⟨s.toList.erase a, s.sorted.sublist List.erase_sublist⟩, if a ∈ s then 1 else 0)

/-- The elements before the lower bound of `a`, in order. -/
def before (a : α) (s : OrderedSet α) : List α := s.toList.takeWhile (· < a)

/-- The set from the lower bound of `a` on. -/
def onward (a : α) (s : OrderedSet α) : OrderedSet α :=
  ⟨s.toList.dropWhile (· < a), s.sorted.sublist (List.dropWhile_sublist _)⟩

variable {a x : α} {s : OrderedSet α}

@[simp] theorem mem_toList : x ∈ s.toList ↔ x ∈ s := Iff.rfl

theorem nodup (s : OrderedSet α) : s.toList.Nodup := s.sorted.imp ne_of_lt

@[simp] theorem not_mem_empty : x ∉ (empty : OrderedSet α) := List.not_mem_nil

@[simp] theorem mem_insert : x ∈ (s.insert a).1 ↔ x = a ∨ x ∈ s := mem_insertList

@[simp] theorem insert_new : (s.insert a).2 = true ↔ a ∉ s := decide_eq_true_iff

theorem size_insert (h : a ∉ s) : (s.insert a).1.size = s.size + 1 := length_insertList h

@[simp] theorem mem_erase : x ∈ (s.erase a).1 ↔ x ≠ a ∧ x ∈ s := s.nodup.mem_erase_iff

theorem erase_count (h : a ∈ s) : (s.erase a).2 = 1 := if_pos h

theorem size_erase (h : a ∈ s) : (s.erase a).1.size + 1 = s.size := by
  have hpos : 0 < s.toList.length := List.length_pos_of_mem h
  have hlen : (s.toList.erase a).length = s.toList.length - 1 := List.length_erase_of_mem h
  simp only [size, erase, hlen]
  omega

@[simp] theorem mem_before : x ∈ s.before a ↔ x ∈ s ∧ x < a := mem_takeWhile_lt s.sorted

@[simp] theorem mem_onward : x ∈ s.onward a ↔ x ∈ s ∧ ¬ x < a := mem_dropWhile_lt s.sorted

/-- The cut loses nothing and keeps the order. -/
theorem before_append_onward (a : α) (s : OrderedSet α) :
    s.before a ++ (s.onward a).toList = s.toList := List.takeWhile_append_dropWhile

theorem size_cut (a : α) (s : OrderedSet α) :
    (s.before a).length + (s.onward a).size = s.size := by
  rw [size, size, ← List.length_append, before_append_onward]

theorem before_sorted (a : α) (s : OrderedSet α) : (s.before a).Pairwise (· < ·) :=
  s.sorted.sublist (List.takeWhile_sublist _)

theorem mem_of_begin (h : s.begin = some a) : a ∈ s := List.mem_of_head? h

theorem begin_eq_none : s.begin = none ↔ s = empty := by
  obtain ⟨l, hl⟩ := s
  cases l with
  | nil => exact iff_of_true rfl rfl
  | cons b l => exact ⟨(nomatch ·), (nomatch ·)⟩

/-- The first element is the least. -/
theorem begin_le (h : s.begin = some a) (hx : x ∈ s) : a ≤ x := by
  obtain ⟨l, hl⟩ := s
  cases l with
  | nil => cases h
  | cons b l =>
    cases h
    rcases List.mem_cons.mp hx with rfl | hx
    · exact le_rfl
    · exact le_of_lt ((List.pairwise_cons.mp hl).1 x hx)

end OrderedSet

end Netfish.Kit

import Mathlib.Data.List.Nodup
import Mathlib.Logic.Function.Basic

/-!
# A ledger of the dead

Objects live at addresses that may be used again, so an object is known by its number. A step makes one
object at a free address, under the next number, or it keeps and drops objects and makes none. The
ledger lists the numbers of the dropped ones; `Ledger` says that it lists each once and no live one.
-/

set_option autoImplicit false

namespace Netfish.Kit

universe u v

variable {α : Type u} {β : Type v}

/-- What one step does to the heap and to the last number given. -/
inductive HeapStep [DecidableEq α] (number : β → Int) (heap : α → Option β) (n : Int)
    (heap' : α → Option β) (n' : Int) : Prop
  | made {a : α} {b : β} (free : heap a = none) (hb : number b = n + 1)
      (hheap : heap' = Function.update heap a (some b)) (hn : n' = n + 1)
  | kept (h : ∀ a b, heap' a = some b → ∃ c, heap a = some c ∧ number c = number b) (hn : n ≤ n')

/-- The numbers of the objects at these addresses that are gone after the step. -/
def departed (number : β → Int) (heap heap' : α → Option β) (as : List α) : List Int :=
  as.filterMap fun a =>
    match heap a, heap' a with
    | some b, none => some (number b)
    | _, _ => none

structure Ledger (number : β → Int) (heap : α → Option β) (n : Int) (gone : List Int) : Prop where
  once : gone.Nodup
  past : ∀ k ∈ gone, k ≤ n
  live : ∀ a b, heap a = some b → number b ≤ n ∧ number b ∉ gone
  distinct : ∀ a a' b b', heap a = some b → heap a' = some b' → number b = number b' → a = a'

variable {number : β → Int} {heap heap' : α → Option β} {n n' : Int} {gone : List Int}

theorem mem_departed {as : List α} {k : Int} :
    k ∈ departed number heap heap' as ↔
      ∃ a ∈ as, ∃ b, heap a = some b ∧ heap' a = none ∧ number b = k := by
  simp only [departed, List.mem_filterMap]
  refine exists_congr fun a => and_congr_right fun _ => ?_
  cases ha : heap a with
  | none => simp
  | some b => cases ha' : heap' a <;> simp

/-- An object goes on living, or its number is listed. -/
theorem live_or_departed {as : List α} {a : α} {b : β} (hb : heap a = some b) (ha : a ∈ as)
    (hkeep : ∀ c, heap' a = some c → number c = number b) :
    number b ∈ departed number heap heap' as ∨ ∃ c, heap' a = some c ∧ number c = number b := by
  cases hc : heap' a with
  | none => exact .inl (mem_departed.mpr ⟨a, ha, b, hb, hc, rfl⟩)
  | some c => exact .inr ⟨c, rfl, hkeep c hc⟩

namespace Ledger

theorem departed_nodup (h : Ledger number heap n gone) {as : List α} (has : as.Nodup) :
    (departed number heap heap' as).Nodup := by
  refine has.filterMap ?_
  intro a a' k hk hk'
  cases ha : heap a with
  | none => simp [ha] at hk
  | some b =>
    cases ha' : heap a' with
    | none => simp [ha'] at hk'
    | some b' =>
      cases hb : heap' a with
      | some c => simp [ha, hb] at hk
      | none =>
        cases hb' : heap' a' with
        | some c => simp [ha', hb'] at hk'
        | none =>
          simp only [ha, hb, Option.mem_some_iff] at hk
          simp only [ha', hb', Option.mem_some_iff] at hk'
          exact h.distinct a a' b b' ha ha' (hk.trans hk'.symm)

variable [DecidableEq α]

/-- An address that holds an object before and after the step holds the same one. -/
theorem same (hs : HeapStep number heap n heap' n') {a : α} {b c : β} (hb : heap a = some b)
    (hc : heap' a = some c) : number c = number b := by
  cases hs with
  | @made a' b' free hnum hheap hn =>
    have hne : a ≠ a' := by
      rintro rfl
      cases free.symm.trans hb
    rw [hheap, Function.update_of_ne hne, hb] at hc
    cases hc
    rfl
  | kept h hn =>
    obtain ⟨b', hb', hnum⟩ := h a c hc
    cases hb.symm.trans hb'
    exact hnum.symm

/-- The step keeps the ledger, which grows by what is gone. -/
theorem step (h : Ledger number heap n gone) (hs : HeapStep number heap n heap' n') {as : List α}
    (has : as.Nodup) : Ledger number heap' n' (gone ++ departed number heap heap' as) := by
  have hle : n ≤ n' := by
    cases hs with
    | made _ _ _ hn => omega
    | kept _ hn => exact hn
  have hdead : ∀ k ∈ departed number heap heap' as, ∃ a b, heap a = some b ∧ heap' a = none ∧
      number b = k := by
    intro k hk
    obtain ⟨a, -, b, hb, hnone, rfl⟩ := mem_departed.mp hk
    exact ⟨a, b, hb, hnone, rfl⟩
  have hpast : ∀ k ∈ gone ++ departed number heap heap' as, k ≤ n := by
    intro k hk
    rcases List.mem_append.mp hk with hk | hk
    · exact h.past k hk
    · obtain ⟨a, b, hb, -, rfl⟩ := hdead k hk
      exact (h.live a b hb).1
  -- what lives on lived before under its number, unless the step made it
  have hnot : ∀ a b c, heap a = some b → heap' a = some c → number c = number b →
      number c ∉ gone ++ departed number heap heap' as := by
    intro a b c hb hc hnum hk
    rw [hnum] at hk
    rcases List.mem_append.mp hk with hk | hk
    · exact (h.live a b hb).2 hk
    · obtain ⟨a', b', hb', hnone, heq⟩ := hdead _ hk
      cases h.distinct a' a b' b hb' hb heq
      cases hnone.symm.trans hc
  refine ⟨?_, fun k hk => Int.le_trans (hpast k hk) hle, ?_, ?_⟩
  · refine List.nodup_append'.mpr ⟨h.once, h.departed_nodup has, ?_⟩
    intro k hk hk'
    obtain ⟨a, b, hb, -, rfl⟩ := hdead k hk'
    exact (h.live a b hb).2 hk
  · intro a c hc
    cases hb : heap a with
    | some b =>
      have hnum := same hs hb hc
      exact ⟨hnum ▸ Int.le_trans (h.live a b hb).1 hle, hnot a b c hb hc hnum⟩
    | none =>
      cases hs with
      | @made a' b' free hnum hheap hn =>
        have haa : a = a' := by
          by_contra hne
          rw [hheap, Function.update_of_ne hne, hb] at hc
          cases hc
        subst haa
        rw [hheap, Function.update_self] at hc
        cases hc
        refine ⟨Int.le_of_eq (hnum.trans hn.symm), ?_⟩
        intro hk
        have := hpast _ hk
        omega
      | kept hkept hn =>
        obtain ⟨b, hb', -⟩ := hkept a c hc
        cases hb.symm.trans hb'
  · intro a a' c c' hc hc' heq
    cases hs with
    | @made a₁ b₁ free hnum hheap hn =>
      rw [hheap] at hc hc'
      by_cases ha : a = a₁
      · by_cases ha' : a' = a₁
        · rw [ha, ha']
        · rw [ha, Function.update_self] at hc
          rw [Function.update_of_ne ha'] at hc'
          cases hc
          have := (h.live a' c' hc').1
          omega
      · rw [Function.update_of_ne ha] at hc
        by_cases ha' : a' = a₁
        · rw [ha', Function.update_self] at hc'
          cases hc'
          have := (h.live a c hc).1
          omega
        · rw [Function.update_of_ne ha'] at hc'
          exact h.distinct a a' c c' hc hc' heq
    | kept hkept hn =>
      obtain ⟨b, hb, hnum⟩ := hkept a c hc
      obtain ⟨b', hb', hnum'⟩ := hkept a' c' hc'
      exact h.distinct a a' b b' hb hb' (hnum.trans (heq.trans hnum'.symm))

end Ledger

end Netfish.Kit

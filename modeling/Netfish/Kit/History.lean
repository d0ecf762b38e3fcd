import Mathlib.Data.List.Basic

/-!
# Histories

A history is a list of events that grows at its end. `Standing e c` says that `e` happened and was
not undone by a later `c`; that events happened in a certain order is that their list is a sublist
of the history. Each notion has one rule, for a history with one more event.
-/

set_option autoImplicit false

namespace Netfish.Kit

universe u

variable {ε : Type u} {e c x : ε} {h l : List ε}

/-- `e` happened, and `c` did not happen after it. -/
def Standing (e c : ε) (h : List ε) : Prop := ∃ h₁ h₂, h = h₁ ++ e :: h₂ ∧ c ∉ h₂

theorem not_standing_nil : ¬ Standing e c [] := by
  rintro ⟨h₁, h₂, heq, -⟩
  cases h₁ <;> cases heq

theorem standing_concat : Standing e c (h ++ [x]) ↔ x = e ∨ Standing e c h ∧ x ≠ c := by
  constructor
  · rintro ⟨h₁, h₂, heq, hc⟩
    rcases List.eq_nil_or_concat h₂ with rfl | ⟨h₂, y, rfl⟩
    · exact .inl (List.append_inj_right' heq rfl |> List.cons.inj |>.1)
    · have heq : h ++ [x] = (h₁ ++ e :: h₂) ++ [y] := by simpa using heq
      obtain ⟨rfl, hxy⟩ := List.append_inj' heq rfl
      cases hxy
      simp only [List.concat_eq_append, List.mem_append, List.mem_singleton, not_or] at hc
      exact .inr ⟨⟨h₁, h₂, rfl, hc.1⟩, Ne.symm hc.2⟩
  · rintro (rfl | ⟨⟨h₁, h₂, rfl, hc⟩, hx⟩)
    · exact ⟨h, [], rfl, List.not_mem_nil⟩
    · refine ⟨h₁, h₂ ++ [x], by simp, ?_⟩
      intro hm
      rcases List.mem_append.mp hm with hm | hm
      · exact hc hm
      · exact hx (List.mem_singleton.mp hm).symm

/-- A sequence of events is complete after one more event when it was complete already, or lacked
just this one. -/
theorem sublist_concat :
    (l ++ [e]).Sublist (h ++ [x]) ↔ (l ++ [e]).Sublist h ∨ e = x ∧ l.Sublist h := by
  rw [← List.reverse_sublist, List.reverse_append, List.reverse_append]
  simp only [List.reverse_singleton, List.singleton_append, List.cons_sublist_cons']
  rw [← List.reverse_concat, List.reverse_sublist, List.reverse_sublist]

end Netfish.Kit

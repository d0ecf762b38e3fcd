import Netfish.Kit.BatchQueue

/-!
# What a batch keeps alive

The consumer of a `BatchQueue` keeps the elements it has worked off until its batch ends. Some
elements offer a resource as long as they exist, and some need it when their turn comes. `Covered` says
that each of the latter will find one of the former: an element still pending needs one among the
pending elements, since those are the batch it will be worked off in.
-/

set_option autoImplicit false

namespace Netfish.Kit.BatchQueue

universe u

variable {α : Type u}

/-- Every element in need finds an offer when its turn comes; `spent` is the part of the batch that
was worked off. -/
structure Covered (needs offers : α → Prop) (spent : List α) (q : BatchQueue α) : Prop where
  pending : (∃ a ∈ q.pending, needs a) → ∃ a ∈ q.pending, offers a
  batch : (∃ a ∈ q.batch, needs a) → ∃ a ∈ spent ++ q.toList, offers a

namespace Covered

variable {needs offers : α → Prop} {spent : List α} {q q' : BatchQueue α} {a : α}

/-- The element whose turn it is. -/
theorem head (h : Covered needs offers spent q) (hnext : q.next = some (a, q')) (ha : needs a) :
    ∃ b ∈ spent ++ q.toList, offers b := by
  apply h.batch
  rw [(next_eq_some.mp hnext).1]
  exact ⟨a, List.mem_cons_self, ha⟩

theorem pushAll (h : Covered needs offers spent q) {as : List α} (has : ∀ a ∈ as, ¬ needs a) :
    Covered needs offers spent (q.pushAll as) := by
  constructor
  · rintro ⟨a, ha, hneed⟩
    rcases List.mem_append.mp ha with ha | ha
    · obtain ⟨b, hb, hoffer⟩ := h.pending ⟨a, ha, hneed⟩
      exact ⟨b, List.mem_append_left _ hb, hoffer⟩
    · exact absurd hneed (has a ha)
  · intro hneed
    obtain ⟨b, hb, hoffer⟩ := h.batch hneed
    rw [toList_pushAll, ← List.append_assoc]
    exact ⟨b, List.mem_append_left _ hb, hoffer⟩

/-- An offer at the back is there for everything in the queue. -/
theorem of_push (ha : offers a) : Covered needs offers spent (q.push a) := by
  constructor
  · intro _
    exact ⟨a, List.mem_append_right _ List.mem_cons_self, ha⟩
  · intro _
    rw [toList_push, ← List.append_assoc]
    exact ⟨a, List.mem_append_right _ List.mem_cons_self, ha⟩

/-- What is pending is worked off together. -/
theorem swap (h : Covered needs offers spent q) {spent' : List α} :
    Covered needs offers spent' q.swap := by
  constructor
  · rintro ⟨a, ha, -⟩
    cases ha
  · intro hneed
    obtain ⟨b, hb, hoffer⟩ := h.pending hneed
    exact ⟨b, List.mem_append_right _ (List.mem_append_left [] hb), hoffer⟩

theorem next (h : Covered needs offers spent q) (hnext : q.next = some (a, q')) :
    Covered needs offers (spent ++ [a]) q' := by
  obtain ⟨hbatch, hpending⟩ := next_eq_some.mp hnext
  constructor
  · rw [hpending]
    exact h.pending
  · rintro ⟨b, hb, hneed⟩
    have hwas := h.batch ⟨b, hbatch ▸ List.mem_cons_of_mem a hb, hneed⟩
    rwa [toList_of_next hnext, List.append_cons] at hwas

/-- The batch ends, and what it kept goes. -/
theorem finish (h : Covered needs offers spent q) (hbatch : q.batch = []) :
    Covered needs offers [] q := by
  constructor
  · exact h.pending
  · rintro ⟨a, ha, -⟩
    rw [hbatch] at ha
    cases ha

end Covered

end Netfish.Kit.BatchQueue

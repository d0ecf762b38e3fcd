import Mathlib.Data.List.Basic

/-!
# Queues drained in batches

A first-in first-out queue whose consumer takes everything pending out at once and works the batch
off while producers go on pushing. Read as `toList`, the batch before the pending elements, it is an
ordinary queue: a push adds at the back, `next` takes from the front, and taking a batch changes
nothing.
-/

set_option autoImplicit false

namespace Netfish.Kit

universe u v

/-- `batch` is taken out and not yet worked off; `pending` is open for pushes. -/
structure BatchQueue (α : Type u) where
  batch : List α
  pending : List α
deriving DecidableEq, Repr

namespace BatchQueue

variable {α : Type u}

def empty : BatchQueue α := ⟨[], []⟩

/-- Every element still to be worked off, the next one first. -/
def toList (q : BatchQueue α) : List α := q.batch ++ q.pending

def push (a : α) (q : BatchQueue α) : BatchQueue α :=
  { q with pending := q.pending ++ [a] }

/-- Push the elements of a list, in order. -/
def pushAll (as : List α) (q : BatchQueue α) : BatchQueue α :=
  { q with pending := q.pending ++ as }

/-- Take all that is pending as the next batch. -/
def swap (q : BatchQueue α) : BatchQueue α :=
  { batch := q.pending, pending := [] }

/-- The next element of the batch. -/
def next : BatchQueue α → Option (α × BatchQueue α)
  | ⟨[], _⟩ => none
  | ⟨a :: batch, pending⟩ => some (a, ⟨batch, pending⟩)

@[simp] theorem toList_empty : (empty : BatchQueue α).toList = [] := rfl

@[simp] theorem toList_push (a : α) (q : BatchQueue α) : (q.push a).toList = q.toList ++ [a] :=
  (List.append_assoc ..).symm

@[simp] theorem toList_pushAll (as : List α) (q : BatchQueue α) :
    (q.pushAll as).toList = q.toList ++ as :=
  (List.append_assoc ..).symm

theorem toList_swap {q : BatchQueue α} (h : q.batch = []) : q.swap.toList = q.toList := by
  simp [toList, swap, h]

theorem next_eq_some {q q' : BatchQueue α} {a : α} :
    q.next = some (a, q') ↔ q.batch = a :: q'.batch ∧ q'.pending = q.pending := by
  obtain ⟨_ | ⟨b, batch⟩, pending⟩ := q
  · simp [next]
  · obtain ⟨batch', pending'⟩ := q'
    simp only [next, Option.some.injEq, Prod.mk.injEq, mk.injEq, List.cons.injEq]
    exact ⟨fun ⟨h, hb, hp⟩ => ⟨⟨h, hb⟩, hp.symm⟩, fun ⟨⟨h, hb⟩, hp⟩ => ⟨h, hb, hp.symm⟩⟩

theorem pending_of_next {q q' : BatchQueue α} {a : α} (h : q.next = some (a, q')) :
    q'.pending = q.pending :=
  (next_eq_some.mp h).2

theorem toList_of_next {q q' : BatchQueue α} {a : α} (h : q.next = some (a, q')) :
    q.toList = a :: q'.toList := by
  obtain ⟨hb, hp⟩ := next_eq_some.mp h
  rw [toList, toList, hb, hp, List.cons_append]

/-! ## What is in the queue -/

variable {q q' : BatchQueue α} {a b : α}

theorem mem_push_of_mem (h : b ∈ q.toList) : b ∈ (q.push a).toList := by
  rw [toList_push]
  exact List.mem_append_left _ h

theorem mem_pushAll_of_mem {as : List α} (h : b ∈ q.toList) : b ∈ (q.pushAll as).toList := by
  rw [toList_pushAll]
  exact List.mem_append_left _ h

theorem next_mem (h : q.next = some (a, q')) : a ∈ q.toList := by
  rw [toList_of_next h]
  exact List.mem_cons_self

/-- What is not the next element stays. -/
theorem mem_rest_of_ne (h : q.next = some (a, q')) (hb : b ∈ q.toList) (hne : b ≠ a) :
    b ∈ q'.toList := by
  rw [toList_of_next h] at hb
  exact (List.mem_cons.mp hb).resolve_left hne

/-- Nothing comes in as the next element leaves. -/
theorem mem_of_mem_rest (h : q.next = some (a, q')) (hb : b ∈ q'.toList) : b ∈ q.toList := by
  rw [toList_of_next h]
  exact List.mem_cons_of_mem a hb

/-! ## Part of the queue, and the queue of other elements -/

section

variable {β : Type v}

/-- The elements that pass a test. -/
def filter (p : α → Bool) (q : BatchQueue α) : BatchQueue α :=
  ⟨q.batch.filter p, q.pending.filter p⟩

def map (f : α → β) (q : BatchQueue α) : BatchQueue β :=
  ⟨q.batch.map f, q.pending.map f⟩

variable {p : α → Bool} {f : α → β}

theorem toList_filter (p : α → Bool) (q : BatchQueue α) :
    (q.filter p).toList = q.toList.filter p :=
  (List.filter_append ..).symm

theorem filter_pushAll (as : List α) (q : BatchQueue α) :
    (q.pushAll as).filter p = (q.filter p).pushAll (as.filter p) := by
  simp only [filter, pushAll, List.filter_append]

theorem filter_push_of_pos (h : p a = true) (q : BatchQueue α) :
    (q.push a).filter p = (q.filter p).push a := by
  simp [filter, push, h]

theorem filter_push_of_neg (h : p a = false) (q : BatchQueue α) :
    (q.push a).filter p = q.filter p := by
  simp [filter, push, h]

theorem filter_next_of_pos (h : q.next = some (a, q')) (ha : p a = true) :
    (q.filter p).next = some (a, q'.filter p) := by
  obtain ⟨hb, hp⟩ := next_eq_some.mp h
  refine next_eq_some.mpr ⟨?_, ?_⟩
  · simp only [filter, hb, List.filter_cons_of_pos ha]
  · simp only [filter, hp]

theorem filter_next_of_neg (h : q.next = some (a, q')) (ha : p a = false) :
    q'.filter p = q.filter p := by
  obtain ⟨hb, hp⟩ := next_eq_some.mp h
  simp only [filter, hb, hp, List.filter_cons_of_neg (ne_true_of_eq_false ha)]

theorem filter_swap (q : BatchQueue α) : q.swap.filter p = (q.filter p).swap := rfl

/-- A test within a test. -/
theorem filter_filter_of_imp {r : α → Bool} (h : ∀ a, r a = true → p a = true) (q : BatchQueue α) :
    (q.filter p).filter r = q.filter r := by
  have hboth : (fun a => r a && p a) = r := by
    ext a
    cases hr : r a with
    | false => rfl
    | true => simp [h a hr]
  simp only [filter, List.filter_filter, hboth]

theorem filter_empty : (empty : BatchQueue α).filter p = empty := rfl

theorem map_pushAll (as : List α) (q : BatchQueue α) :
    (q.pushAll as).map f = (q.map f).pushAll (as.map f) := by
  simp only [map, pushAll, List.map_append]

theorem map_push (a : α) (q : BatchQueue α) : (q.push a).map f = (q.map f).push (f a) := by
  simp [map, push]

theorem toList_map (f : α → β) (q : BatchQueue α) : (q.map f).toList = q.toList.map f :=
  (List.map_append ..).symm

theorem map_swap (q : BatchQueue α) : q.swap.map f = (q.map f).swap := rfl

/-- What is next in the image comes from what is next. -/
theorem next_of_map {r : BatchQueue β} {b : β} (h : (q.map f).next = some (b, r)) :
    ∃ a q', q.next = some (a, q') ∧ f a = b ∧ q'.map f = r := by
  obtain ⟨hb, hp⟩ := next_eq_some.mp h
  obtain ⟨a, batch, hq, rfl, hrest⟩ := List.map_eq_cons_iff.mp hb
  refine ⟨a, ⟨batch, q.pending⟩, next_eq_some.mpr ⟨hq, rfl⟩, rfl, ?_⟩
  rw [map, hrest, show q.pending.map f = r.pending from hp.symm]

end

variable [DecidableEq α]

theorem count_push_of_ne (hne : a ≠ b) : (q.push a).toList.count b = q.toList.count b := by
  rw [toList_push, List.count_append, List.count_singleton, if_neg (by simpa using hne)]
  rfl

theorem count_rest_of_ne (h : q.next = some (a, q')) (hne : a ≠ b) :
    q'.toList.count b = q.toList.count b := by
  rw [toList_of_next h, List.count_cons_of_ne hne]

theorem count_filter {p : α → Bool} (h : p a = true) (q : BatchQueue α) :
    (q.filter p).toList.count a = q.toList.count a := by
  rw [toList_filter, List.count_filter h]

end BatchQueue

end Netfish.Kit

import Mathlib.Logic.Function.Basic
import Netfish.Kit.Machine

/-!
# Critical sections

A machine some of whose steps change data that threads share, and the same machine with each of these steps
cut into the statements of a critical section: take the lock, read the data, write it, let the lock go. Any
statements and steps of other threads may come between two of them, and the write goes by the copy that was
read, so that what another thread wrote in between would be lost. `Sections.reachable_of_locked` says that
nothing comes between: what is reached so is reached by whole steps. `Exclusive.gets_through` is for the
threads that wait.
-/

set_option autoImplicit false

namespace Netfish.Kit

universe u v w x

variable {σ : Type u} {α : Type v} {T : Type w} {D : Type x}

/-- The steps of a machine that are critical sections of threads `T` on data `D`. -/
structure Sections (M : Machine σ α) (T : Type w) (D : Type x) where
  /-- Whose step it is. -/
  thread : α → T
  critical : α → Bool
  get : σ → D
  put : D → σ → σ
  put_get : ∀ s, put (get s) s = s
  /-- The other steps leave the data alone. -/
  keeps : ∀ {s s' : σ} {a : α}, critical a = false → M.step s a = some s' → get s' = get s
  /-- What other threads do does not keep a thread from its critical section. -/
  waits : ∀ {s s' : σ} {a b : α}, critical a = true → thread b ≠ thread a → M.step s b = some s' →
    (M.step s a).isSome = true → (M.step s' a).isSome = true

/-- Where a thread stands in a critical section. -/
inductive LockPlace (α : Type v) (D : Type x) where
  | away
  /-- Before the lock is taken. -/
  | waiting (a : α)
  | entered (a : α)
  /-- With the copy that was read. -/
  | read (a : α) (d : D)
  | written
deriving DecidableEq, Repr

namespace LockPlace

/-- The thread has the lock. -/
def inside : LockPlace α D → Bool
  | .away | .waiting _ => false
  | .entered _ | .read _ _ | .written => true

/-- The step whose write is still to come. -/
def ahead : LockPlace α D → Option α
  | .waiting a | .entered a | .read a _ => some a
  | .away | .written => none

end LockPlace

structure Locked (σ : Type u) (α : Type v) (T : Type w) (D : Type x) where
  state : σ
  owner : Option T
  places : T → LockPlace α D

inductive LockedAct (α : Type v) (T : Type w) where
  /-- A step that is no critical section. -/
  | plain (a : α)
  /-- A thread comes to a critical section. -/
  | call (a : α)
  | lock (t : T)
  | read (t : T)
  | write (t : T)
  | unlock (t : T)
deriving DecidableEq, Repr

/-- The statements of a critical section. -/
def LockedAct.isStatement (t : T) : LockedAct α T → Prop
  | .lock u | .read u | .write u | .unlock u => u = t
  | _ => False

namespace Sections

variable {M : Machine σ α}

/-- The invariant. The lock tells who is inside; a copy is what it was copied from; and the step of a thread
can still be taken. -/
structure Exclusive (S : Sections M T D) (s : Locked σ α T D) : Prop where
  owner : ∀ t, (s.places t).inside = true ↔ s.owner = some t
  copy : ∀ t a d, s.places t = .read a d → d = S.get s.state
  enabled : ∀ t a, (s.places t).ahead = some a →
    S.critical a = true ∧ S.thread a = t ∧ (M.step s.state a).isSome = true

namespace Exclusive

variable {S : Sections M T D} {s : Locked σ α T D} {t u : T}

/-- Only one thread is inside. -/
theorem unique (h : S.Exclusive s) (ht : (s.places t).inside = true) (hu : (s.places u).inside = true) :
    t = u :=
  Option.some.inj (((h.owner t).mp ht).symm.trans ((h.owner u).mp hu))

/-- A step of the machine by a thread with nothing ahead, while no other thread holds a copy of what it
changes. -/
theorem step_state (h : S.Exclusive s) {a : α} {state : σ} (hs : M.step s.state a = some state)
    (hahead : (s.places (S.thread a)).ahead = none)
    (hcopy : ∀ t b d, s.places t = .read b d → S.get state = S.get s.state) :
    S.Exclusive { s with state } := by
  refine ⟨h.owner, fun t b d ht => ?_, fun t b ht => ?_⟩
  · rw [hcopy t b d ht]
    exact h.copy t b d ht
  · obtain ⟨hcritical, hthread, henabled⟩ := h.enabled t b ht
    refine ⟨hcritical, hthread, S.waits hcritical ?_ hs henabled⟩
    intro heq
    rw [heq, hthread, ht] at hahead
    cases hahead

end Exclusive

end Sections

namespace Locked

variable [DecidableEq T]

def goto (s : Locked σ α T D) (t : T) (place : LockPlace α D) : Locked σ α T D :=
  { s with places := Function.update s.places t place }

variable {s : Locked σ α T D} {t u : T} {place : LockPlace α D}

@[simp] theorem goto_places_self : (s.goto t place).places t = place := Function.update_self ..

theorem goto_places_of_ne (h : u ≠ t) : (s.goto t place).places u = s.places u :=
  Function.update_of_ne h ..

@[simp] theorem goto_owner : (s.goto t place).owner = s.owner := rfl

@[simp] theorem goto_state : (s.goto t place).state = s.state := rfl

end Locked

namespace Sections

variable [DecidableEq T] {M : Machine σ α} (S : Sections M T D)

def step (s : Locked σ α T D) : LockedAct α T → Option (Locked σ α T D)
  | .plain a =>
    match S.critical a, s.places (S.thread a) with
    | false, .away => (M.step s.state a).map fun state => { s with state }
    | _, _ => none
  | .call a =>
    match S.critical a, s.places (S.thread a) with
    | true, .away => if (M.step s.state a).isSome then some (s.goto (S.thread a) (.waiting a)) else none
    | _, _ => none
  | .lock t =>
    match s.places t, s.owner with
    | .waiting a, none => some ({ s with owner := some t }.goto t (.entered a))
    | _, _ => none
  | .read t =>
    match s.places t with
    | .entered a => some (s.goto t (.read a (S.get s.state)))
    | _ => none
  | .write t =>
    match s.places t with
    | .read a d => (M.step (S.put d s.state) a).map fun state => { s with state }.goto t .written
    | _ => none
  | .unlock t =>
    match s.places t with
    | .written => some ({ s with owner := none }.goto t .away)
    | _ => none

/-- The machine with its critical sections cut into statements. -/
def locked : Machine (Locked σ α T D) (LockedAct α T) where
  init s := M.init s.state ∧ s.owner = none ∧ s.places = fun _ => .away
  step := S.step

/-- What a step does. -/
inductive Moves (s : Locked σ α T D) : LockedAct α T → Locked σ α T D → Prop
  | plain {a : α} {state : σ} (hplain : S.critical a = false) (haway : s.places (S.thread a) = .away)
      (hs : M.step s.state a = some state) : Moves s (.plain a) { s with state }
  | call {a : α} (hcritical : S.critical a = true) (haway : s.places (S.thread a) = .away)
      (hs : (M.step s.state a).isSome = true) : Moves s (.call a) (s.goto (S.thread a) (.waiting a))
  | lock {t : T} {a : α} (hplace : s.places t = .waiting a) (hfree : s.owner = none) :
      Moves s (.lock t) ({ s with owner := some t }.goto t (.entered a))
  | read {t : T} {a : α} (hplace : s.places t = .entered a) :
      Moves s (.read t) (s.goto t (.read a (S.get s.state)))
  | write {t : T} {a : α} {d : D} {state : σ} (hplace : s.places t = .read a d)
      (hs : M.step (S.put d s.state) a = some state) : Moves s (.write t) ({ s with state }.goto t .written)
  | unlock {t : T} (hplace : s.places t = .written) :
      Moves s (.unlock t) ({ s with owner := none }.goto t .away)

variable {S} {s s' : Locked σ α T D} {act : LockedAct α T}

theorem step_moves (h : S.step s act = some s') : S.Moves s act s' := by
  unfold step at h
  split at h
  · split at h
    · next hplain haway =>
      obtain ⟨state, hs, rfl⟩ := Option.map_eq_some_iff.mp h
      exact .plain hplain haway hs
    · cases h
  · split at h
    · next hcritical haway =>
      obtain ⟨hs, h⟩ := Option.ite_none_right_eq_some.mp h
      cases h
      exact .call hcritical haway hs
    · cases h
  · split at h
    · next hplace hfree =>
      cases h
      exact .lock hplace hfree
    · cases h
  · split at h
    · next hplace =>
      cases h
      exact .read hplace
    · cases h
  · split at h
    · next hplace =>
      obtain ⟨state, hs, rfl⟩ := Option.map_eq_some_iff.mp h
      exact .write hplace hs
    · cases h
  · split at h
    · next hplace =>
      cases h
      exact .unlock hplace
    · cases h

theorem Moves.step (h : S.Moves s act s') : S.step s act = some s' := by
  cases h with
  | plain hplain haway hs => simp only [Sections.step, hplain, haway, hs, Option.map_some]
  | call hcritical haway hs => simp only [Sections.step, hcritical, haway, hs, if_true]
  | lock hplace hfree => simp only [Sections.step, hplace, hfree]
  | read hplace => simp only [Sections.step, hplace]
  | write hplace hs => simp only [Sections.step, hplace, hs, Option.map_some]
  | unlock hplace => simp only [Sections.step, hplace]

/-! ## Exclusion -/

namespace Exclusive

theorem start (h : S.locked.init s) : S.Exclusive s := by
  obtain ⟨-, howner, hplaces⟩ := h
  refine ⟨fun t => ?_, fun t a d ht => ?_, fun t a ht => ?_⟩
  · rw [hplaces, howner]
    exact ⟨fun h => (by cases h), fun h => (by cases h)⟩
  · rw [hplaces] at ht
    cases ht
  · rw [hplaces] at ht
    cases ht

variable {t u : T}

/-- A thread goes to a place on the same side of the lock. -/
theorem goto (h : S.Exclusive s) {place : LockPlace α D} (hinside : place.inside = (s.places t).inside)
    (hcopy : ∀ a d, place = .read a d → d = S.get s.state)
    (hahead : ∀ a, place.ahead = some a →
      S.critical a = true ∧ S.thread a = t ∧ (M.step s.state a).isSome = true) :
    S.Exclusive (s.goto t place) := by
  refine ⟨fun u => ?_, fun u a d hu => ?_, fun u a hu => ?_⟩
  all_goals by_cases heq : u = t
  · subst heq
    rw [Locked.goto_places_self, hinside]
    exact h.owner u
  · rw [Locked.goto_places_of_ne heq]
    exact h.owner u
  · subst heq
    rw [Locked.goto_places_self] at hu
    exact hcopy a d hu
  · rw [Locked.goto_places_of_ne heq] at hu
    exact h.copy u a d hu
  · subst heq
    rw [Locked.goto_places_self] at hu
    exact hahead a hu
  · rw [Locked.goto_places_of_ne heq] at hu
    exact h.enabled u a hu

/-- The lock is free: a thread takes it. -/
theorem lock (h : S.Exclusive s) {a : α} (hplace : s.places t = .waiting a) (hfree : s.owner = none) :
    S.Exclusive ({ s with owner := some t }.goto t (.entered a)) := by
  refine ⟨fun u => ?_, fun u b d hu => ?_, fun u b hu => ?_⟩
  all_goals by_cases heq : u = t
  · subst heq
    rw [Locked.goto_places_self]
    exact ⟨fun _ => rfl, fun _ => rfl⟩
  · rw [Locked.goto_places_of_ne heq, h.owner u, hfree]
    exact ⟨fun h => (by cases h), fun h => absurd (Option.some.inj h).symm heq⟩
  · subst heq
    rw [Locked.goto_places_self] at hu
    cases hu
  · rw [Locked.goto_places_of_ne heq] at hu
    exact h.copy u b d hu
  · subst heq
    rw [Locked.goto_places_self] at hu
    exact h.enabled u b (by rw [hplace]; exact hu)
  · rw [Locked.goto_places_of_ne heq] at hu
    exact h.enabled u b hu

/-- The lock is let go. -/
theorem unlock (h : S.Exclusive s) (hplace : s.places t = .written) :
    S.Exclusive ({ s with owner := none }.goto t .away) := by
  have hinside : (s.places t).inside = true := by
    rw [hplace]
    rfl
  refine ⟨fun u => ?_, fun u b d hu => ?_, fun u b hu => ?_⟩
  all_goals by_cases heq : u = t
  · subst heq
    rw [Locked.goto_places_self]
    exact ⟨fun h => (by cases h), fun h => (by cases h)⟩
  · rw [Locked.goto_places_of_ne heq]
    exact ⟨fun hu => absurd (h.unique hu hinside) heq, fun h => (by cases h)⟩
  · subst heq
    rw [Locked.goto_places_self] at hu
    cases hu
  · rw [Locked.goto_places_of_ne heq] at hu
    exact h.copy u b d hu
  · subst heq
    rw [Locked.goto_places_self] at hu
    cases hu
  · rw [Locked.goto_places_of_ne heq] at hu
    exact h.enabled u b hu

end Exclusive

/-- The write of a thread is a whole step, and keeps the invariant. -/
theorem Exclusive.write (h : S.Exclusive s) {t : T} {a : α} {d : D} {state : σ}
    (hplace : s.places t = .read a d) (hs : M.step (S.put d s.state) a = some state) :
    M.step s.state a = some state ∧ S.Exclusive ({ s with state }.goto t .written) := by
  have hstep : M.step s.state a = some state := by
    rw [h.copy t a d hplace, S.put_get] at hs
    exact hs
  obtain ⟨-, hthread, -⟩ := h.enabled t a (by rw [hplace]; rfl)
  have hinside : (s.places t).inside = true := by
    rw [hplace]
    rfl
  have hplaced : S.Exclusive (s.goto t .written) :=
    h.goto (by rw [hinside]; rfl) (fun _ _ h => by cases h) (fun _ h => by cases h)
  refine ⟨hstep, hplaced.step_state hstep ?_ ?_⟩
  · rw [hthread, Locked.goto_places_self]
    rfl
  · intro u b c hu
    by_cases heq : u = t
    · subst heq
      rw [Locked.goto_places_self] at hu
      cases hu
    · rw [Locked.goto_places_of_ne heq] at hu
      exact absurd (h.unique (by rw [hu]; rfl) hinside) heq

theorem Exclusive.step (h : S.Exclusive s) (hs : S.locked.step s act = some s') : S.Exclusive s' := by
  cases step_moves hs with
  | plain hplain haway hstep =>
    refine h.step_state hstep ?_ fun _ _ _ _ => S.keeps hplain hstep
    rw [haway]
    rfl
  | @call a hcritical haway henabled =>
    refine h.goto (by rw [haway]; rfl) (fun _ _ h => by cases h) fun b hb => ?_
    cases hb
    exact ⟨hcritical, rfl, henabled⟩
  | lock hplace hfree => exact h.lock hplace hfree
  | @read t a hplace =>
    refine h.goto (by rw [hplace]; rfl) (fun b d hread => ?_) fun b hb => ?_
    · cases hread
      rfl
    · exact h.enabled t b (by rw [hplace]; exact hb)
  | write hplace hstep => exact (h.write hplace hstep).2
  | unlock hplace => exact h.unlock hplace

/-- **Critical sections are single steps.** -/
theorem reachable_of_locked (h : S.locked.Reachable s) : M.Reachable s.state ∧ S.Exclusive s := by
  refine h.invariant (fun s => M.Reachable s.state ∧ S.Exclusive s) ?_ ?_
  · intro s hinit
    exact ⟨.start hinit.1, .start hinit⟩
  · rintro s act s' ⟨hreach, hexclusive⟩ hs
    refine ⟨?_, hexclusive.step hs⟩
    cases step_moves hs with
    | plain hplain haway hstep => exact hreach.run ((Machine.run_singleton ..).trans hstep)
    | write hplace hstep =>
      exact hreach.run ((Machine.run_singleton ..).trans (hexclusive.write hplace hstep).1)
    | _ => exact hreach

/-! ## The threads that wait -/

/-- At most `n` statements of the thread, and it is out of its critical section. -/
def Finishes (S : Sections M T D) (t : T) (n : Nat) (s : Locked σ α T D) : Prop :=
  ∃ acts s', acts.length ≤ n ∧ (∀ act ∈ acts, act.isStatement t) ∧ S.locked.run s acts = some s' ∧
    s'.owner = none ∧ s'.places = Function.update s.places t .away

variable {t : T}

theorem Finishes.step {n : Nat} (hs : S.locked.step s act = some s') (hact : act.isStatement t)
    (hplaces : ∀ u, u ≠ t → s'.places u = s.places u) (h : S.Finishes t n s') : S.Finishes t (n + 1) s := by
  obtain ⟨acts, s'', hlen, hacts, hrun, howner, hout⟩ := h
  refine ⟨act :: acts, s'', Nat.succ_le_succ hlen, ?_, Machine.run_cons_eq_some.mpr ⟨s', hs, hrun⟩, howner, ?_⟩
  · intro b hb
    rcases List.mem_cons.mp hb with rfl | hb
    · exact hact
    · exact hacts b hb
  · rw [hout]
    ext1 u
    by_cases hu : u = t
    · rw [hu, Function.update_self, Function.update_self]
    · rw [Function.update_of_ne hu, Function.update_of_ne hu, hplaces u hu]

theorem finishes_of_written (hplace : s.places t = .written) : S.Finishes t 1 s := by
  refine ⟨[.unlock t], { s with owner := none }.goto t .away, Nat.le_refl 1, ?_, ?_, rfl, rfl⟩
  · intro act hact
    rw [List.mem_singleton.mp hact]
    exact rfl
  · rw [Machine.run_singleton]
    exact (Moves.unlock (S := S) hplace).step

theorem Exclusive.finishes_of_read (h : S.Exclusive s) {a : α} {d : D} (hplace : s.places t = .read a d) :
    S.Finishes t 2 s := by
  obtain ⟨-, -, henabled⟩ := h.enabled t a (by rw [hplace]; rfl)
  obtain ⟨state, hstep⟩ := Option.isSome_iff_exists.mp henabled
  have hs : S.locked.step s (.write t) = some ({ s with state }.goto t .written) := by
    rw [← S.put_get s.state, ← h.copy t a d hplace] at hstep
    exact (Moves.write hplace hstep).step
  exact (finishes_of_written Locked.goto_places_self).step hs rfl fun u hu => Locked.goto_places_of_ne hu

/-- The thread inside can go on to the end. -/
theorem Exclusive.finishes (h : S.Exclusive s) (hinside : (s.places t).inside = true) : S.Finishes t 3 s := by
  cases hplace : s.places t with
  | entered a =>
    have hs : S.locked.step s (.read t) = some (s.goto t (.read a (S.get s.state))) :=
      (Moves.read hplace).step
    exact ((h.step hs).finishes_of_read Locked.goto_places_self).step hs rfl
      fun u hu => Locked.goto_places_of_ne hu
  | read a d =>
    obtain ⟨acts, s', hlen, hrest⟩ := h.finishes_of_read hplace
    exact ⟨acts, s', Nat.le_succ_of_le hlen, hrest⟩
  | written =>
    obtain ⟨acts, s', hlen, hrest⟩ := finishes_of_written (S := S) hplace
    exact ⟨acts, s', Nat.le_trans hlen (by decide), hrest⟩
  | _ =>
    rw [hplace] at hinside
    cases hinside

/-- A thread that waits for a lock that is free. -/
theorem Exclusive.finishes_of_free (h : S.Exclusive s) {a : α} (hplace : s.places t = .waiting a)
    (hfree : s.owner = none) : S.Finishes t 4 s := by
  have hs : S.locked.step s (.lock t) = some ({ s with owner := some t }.goto t (.entered a)) :=
    (Moves.lock (S := S) hplace hfree).step
  refine ((h.step hs).finishes ?_).step hs rfl fun u hu => Locked.goto_places_of_ne hu
  rw [Locked.goto_places_self]
  rfl

/-- **No thread stays at its critical section.** Whoever is inside can leave it, then the thread can come to its
own end, in seven statements of these two at most. -/
theorem Exclusive.gets_through (h : S.Exclusive s) (ht : s.places t ≠ .away) :
    ∃ acts s', acts.length ≤ 7 ∧
      (∀ act ∈ acts, act.isStatement t ∨ ∃ u, s.owner = some u ∧ act.isStatement u) ∧
      S.locked.run s acts = some s' ∧ s'.places t = .away := by
  by_cases hinside : (s.places t).inside = true
  · obtain ⟨acts, s', hlen, hacts, hrun, -, hplaces⟩ := h.finishes hinside
    refine ⟨acts, s', Nat.le_trans hlen (by decide), fun act hact => .inl (hacts act hact), hrun, ?_⟩
    rw [hplaces, Function.update_self]
  · obtain ⟨a, hplace⟩ : ∃ a, s.places t = .waiting a := by
      cases hplace : s.places t with
      | away => exact absurd hplace ht
      | waiting a => exact ⟨a, rfl⟩
      | _ => exact absurd (by rw [hplace]; rfl) hinside
    cases howner : s.owner with
    | none =>
      obtain ⟨acts, s', hlen, hacts, hrun, -, hplaces⟩ := h.finishes_of_free hplace howner
      refine ⟨acts, s', Nat.le_trans hlen (by decide), fun act hact => .inl (hacts act hact), hrun, ?_⟩
      rw [hplaces, Function.update_self]
    | some u =>
      obtain ⟨acts, s₁, hlen, hacts, hrun, hfree, hplaces⟩ := h.finishes ((h.owner u).mpr howner)
      have hne : t ≠ u := by
        intro heq
        exact hinside (by rw [heq]; exact (h.owner u).mpr howner)
      have hwaiting : s₁.places t = .waiting a := by
        rw [hplaces, Function.update_of_ne hne, hplace]
      have hexclusive : S.Exclusive s₁ := Machine.run_invariant S.Exclusive (fun _ _ _ h hs => h.step hs) h hrun
      obtain ⟨more, s₂, hlen', hmore, hrun', -, hplaces'⟩ := hexclusive.finishes_of_free hwaiting hfree
      refine ⟨acts ++ more, s₂, ?_, ?_, Machine.run_append.mpr ⟨s₁, hrun, hrun'⟩, ?_⟩
      · rw [List.length_append]
        omega
      · intro act hact
        rcases List.mem_append.mp hact with hact | hact
        · exact .inr ⟨u, rfl, hacts act hact⟩
        · exact .inl (hmore act hact)
      · rw [hplaces', Function.update_self]

end Sections

end Netfish.Kit

import Netfish.Sync.MutexLock

/-!
# Who holds a MutexLock

`holder_` is written by `lock` and `unlock` only, while `pthread_cond_wait` gives the mutex up and takes it
back between them: a thread that waits leaves its id behind, and one whose wait returns finds whatever was
written meanwhile. `holder_known_iff` says that these are the steps that make `holder_` wrong, unless another
thread is inside `lock` or `unlock` just then; without a wait it is right.
-/

set_option autoImplicit false

namespace Netfish

open Kit

universe u v

namespace LockState

variable {T : Type u} {C : Type v}

/-- No thread is inside `lock` or `unlock`. -/
def Quiet (s : LockState T C) : Prop := ∀ t, (s.pcs t).inLockCode = false

/-- No thread is inside `wait` or `waitForSeconds`. -/
def NoneWaits (s : LockState T C) : Prop := ∀ t, (s.pcs t).inWait = false

/-- A thread inside `lock` or `unlock` with the mutex is the owner, and in `unlock` `holder_` is cleared. -/
structure Owned (s : LockState T C) : Prop where
  owner : ∀ t, (s.pcs t).ownsInside = true → s.lock.mutex_ = some t
  cleared : ∀ t, s.pcs t = .unlocking → s.lock.holder_ = none

/-- The mutex is given up or taken back in a wait, and no thread is inside `lock` or `unlock`. -/
def BareWait (s : LockState T C) : LockAct T C → Prop
  | .wait .. => s.Quiet
  | .waitReturns _ => s.Quiet
  | _ => False

theorem owned_start : (start : LockState T C).Owned := ⟨fun _ => nofun, fun _ => nofun⟩

section

variable {s : LockState T C}

/-- What wakes threads up is no such step. -/
theorem not_bareWait_of_wakes {a : LockAct T C} (ha : a.wakes = true) : ¬ s.BareWait a := by
  intro hbare
  cases a with
  | wait | waitReturns => cases ha
  | _ => exact hbare

/-- With the mutex free, or owned by one thread, the other threads are not inside with it. -/
theorem Owned.others (h : s.Owned) {t : T} (hm : s.lock.mutex_ = none ∨ s.lock.mutex_ = some t) (u : T)
    (hu : u ≠ t) : (s.pcs u).ownsInside = false := by
  apply Bool.eq_false_iff.mpr
  intro hin
  have howner := h.owner u hin
  rcases hm with hm | hm
  · cases hm.symm.trans howner
  · exact hu (Option.some.inj (hm.symm.trans howner)).symm

/-! ## Threads that go on in a wait -/

variable {pcs : T → LockPc C}

/-- A wait is neither `lock` nor `unlock`. -/
theorem awake_place {pc pc' : LockPc C} (h : pc' = pc ∨ pc.inWait = true ∧ pc'.inWait = true) :
    pc'.inLockCode = pc.inLockCode ∧ pc'.ownsInside = pc.ownsInside ∧
      (pc' = .unlocking → pc = .unlocking) := by
  rcases h with rfl | ⟨h, h'⟩
  · exact ⟨rfl, rfl, id⟩
  · cases pc with
    | waiting | woken => cases pc' with
      | waiting | woken => exact ⟨rfl, rfl, nofun⟩
      | _ => cases h'
    | _ => cases h

theorem Owned.awake (h : s.Owned)
    (hpcs : ∀ u, pcs u = s.pcs u ∨ (s.pcs u).inWait = true ∧ (pcs u).inWait = true) :
    { s with pcs := pcs }.Owned where
  owner t hin := h.owner t ((awake_place (hpcs t)).2.1 ▸ hin)
  cleared t hun := h.cleared t ((awake_place (hpcs t)).2.2 hun)

theorem quiet_awake
    (hpcs : ∀ u, pcs u = s.pcs u ∨ (s.pcs u).inWait = true ∧ (pcs u).inWait = true) :
    { s with pcs := pcs }.Quiet ↔ s.Quiet := by
  apply forall_congr'
  intro u
  show (pcs u).inLockCode = false ↔ _
  rw [(awake_place (hpcs u)).1]

end

section

variable [DecidableEq T] {s : LockState T C} {lock : MutexLock T} {t : T} {pc : LockPc C}

/-- What is known of the lock: `holder_` is the owner of the mutex, and every thread that asks gets the
right answer. -/
structure HolderKnown (s : LockState T C) : Prop where
  holder : s.lock.holder_ = s.lock.mutex_
  answer : ∀ t, s.lock.isLockedByThisThread t = true ↔ s.lock.mutex_ = some t
  asserted : ∀ t, s.lock.assertLocked t = .ok () ↔ s.lock.mutex_ = some t

/-- `holder_` decides the answers. -/
theorem holderKnown_of_eq (h : s.lock.holder_ = s.lock.mutex_) : s.HolderKnown := by
  have hanswer : ∀ t, s.lock.isLockedByThisThread t = true ↔ s.lock.mutex_ = some t := by
    intro t
    rw [← h]
    exact decide_eq_true_iff
  refine ⟨h, hanswer, ?_⟩
  intro t
  rw [← hanswer t]
  exact check_eq_ok

/-- Nobody holds a new lock. -/
theorem holderKnown_start : (start : LockState T C).HolderKnown := holderKnown_of_eq rfl

/-! ## One thread that goes on -/

theorem goto_self : (s.goto lock t pc).pcs t = pc := Function.update_self ..

theorem goto_ne {u : T} (hu : u ≠ t) : (s.goto lock t pc).pcs u = s.pcs u :=
  Function.update_of_ne hu ..

/-- The lock is left alone, or no other thread is inside with the mutex. -/
theorem Owned.goto (h : s.Owned)
    (hothers : lock = s.lock ∨ ∀ u, u ≠ t → (s.pcs u).ownsInside = false)
    (hown : pc.ownsInside = true → lock.mutex_ = some t)
    (hclear : pc = .unlocking → lock.holder_ = none) : (s.goto lock t pc).Owned := by
  have hsame : ∀ u, u ≠ t → (s.pcs u).ownsInside = true → lock = s.lock := by
    intro u hu hin
    exact hothers.resolve_right fun hnone => nomatch (hnone u hu).symm.trans hin
  constructor
  · intro u hin
    by_cases hu : u = t
    · subst hu
      rw [goto_self] at hin
      exact hown hin
    · rw [goto_ne hu] at hin
      show lock.mutex_ = some u
      rw [hsame u hu hin]
      exact h.owner u hin
  · intro u hun
    by_cases hu : u = t
    · subst hu
      rw [goto_self] at hun
      exact hclear hun
    · rw [goto_ne hu] at hun
      show lock.holder_ = none
      rw [hsame u hu (by rw [hun]; rfl)]
      exact h.cleared u hun

/-- A thread that goes on inside `lock` or `unlock` is inside. -/
theorem not_quiet_goto (hpc : pc.inLockCode = true) : ¬ (s.goto lock t pc).Quiet := by
  intro hq
  have ht := hq t
  rw [goto_self, hpc] at ht
  cases ht

/-- A thread that is outside before and after makes no difference. -/
theorem quiet_goto (hbefore : (s.pcs t).inLockCode = false) (hafter : pc.inLockCode = false) :
    (s.goto lock t pc).Quiet ↔ s.Quiet := by
  apply forall_congr'
  intro u
  by_cases hu : u = t
  · subst hu
    rw [goto_self, hbefore, hafter]
  · rw [goto_ne hu]

theorem NoneWaits.goto (h : s.NoneWaits) (hpc : pc.inWait = false) :
    (s.goto lock t pc).NoneWaits := by
  intro u
  by_cases hu : u = t
  · subst hu
    rw [goto_self, hpc]
  · rw [goto_ne hu]
    exact h u

end

/-! ## The steps -/

variable [DecidableEq T] [DecidableEq C] {s s' : LockState T C} {a : LockAct T C}

/-- Each step keeps the mutex with its owner. -/
theorem Owned.step (h : s.Owned) (hs : s.step a = some s') : s'.Owned := by
  cases step_move hs with
  | lock hpc => exact h.goto (.inl rfl) nofun nofun
  | lockMutex hpc hm => exact h.goto (.inr (h.others (.inl hm))) (fun _ => rfl) nofun
  | @setHolder t hpc =>
    have hm := h.owner t (by rw [hpc]; rfl)
    exact h.goto (.inr (h.others (.inr hm))) nofun nofun
  | unlock hpc hm => exact h.goto (.inr (h.others (.inr hm))) (fun _ => hm) (fun _ => rfl)
  | @unlockMutex t hpc =>
    have hm := h.owner t (by rw [hpc]; rfl)
    exact h.goto (.inr (h.others (.inr hm))) nofun nofun
  | wait hpc hm => exact h.goto (.inr (h.others (.inr hm))) nofun nofun
  | awake _ hpcs => exact h.awake hpcs
  | waitReturns hpc hm => exact h.goto (.inr (h.others (.inl hm))) nofun nofun

/-- Any other step keeps `holder_` right: when the last thread leaves `lock` or `unlock`, it has just
written it. -/
theorem Owned.known_step (h : s.Owned) (hknown : s.Quiet → s.HolderKnown) (hok : ¬ s.BareWait a)
    (hs : s.step a = some s') : s'.Quiet → s'.HolderKnown := by
  intro hq
  cases step_move hs with
  | lock hpc | lockMutex hpc hm | unlock hpc hm => exact absurd hq (not_quiet_goto rfl)
  | @setHolder t hpc =>
    have hm := h.owner t (by rw [hpc]; rfl)
    exact holderKnown_of_eq hm.symm
  | @unlockMutex t hpc => exact holderKnown_of_eq (h.cleared t hpc)
  | wait hpc hm => exact absurd ((quiet_goto (by rw [hpc]; rfl) rfl).mp hq) hok
  | awake _ hpcs =>
    have hbefore := hknown ((quiet_awake hpcs).mp hq)
    exact ⟨hbefore.holder, hbefore.answer, hbefore.asserted⟩
  | waitReturns hpc hm => exact absurd ((quiet_goto (by rw [hpc]; rfl) rfl).mp hq) hok

/-- With no thread in a wait, none comes back from one. -/
theorem NoneWaits.not_bareWait (h : s.NoneWaits) (ha : a.isWait = false) (hs : s.step a = some s') :
    ¬ s.BareWait a := by
  intro hbare
  cases step_move hs with
  | wait => cases ha
  | @waitReturns t timedOut hpc hm =>
    have hin := h t
    rw [hpc] at hin
    cases hin
  | awake hwakes => exact not_bareWait_of_wakes hwakes hbare
  | _ => exact hbare

/-- Without a call of `wait` no thread gets into one. -/
theorem NoneWaits.step (h : s.NoneWaits) (ha : a.isWait = false) (hs : s.step a = some s') :
    s'.NoneWaits := by
  cases step_move hs with
  | lock | lockMutex | setHolder | unlock | unlockMutex | waitReturns => exact h.goto rfl
  | wait => cases ha
  | awake _ hpcs =>
    intro u
    rcases hpcs u with heq | ⟨hin, -⟩
    · exact (congrArg LockPc.inWait heq).trans (h u)
    · cases (h u).symm.trans hin

end LockState

variable {T : Type u} {C : Type v} [DecidableEq T] [DecidableEq C]

/-- The run rule for a program without waits: every lock in it knows its holder. -/
theorem holder_known_without_wait (as : List (LockAct T C)) (has : ∀ a ∈ as, a.isWait = false) :
    (mutexLock T C).Along (fun s => s.Quiet → s.HolderKnown) .start as := by
  have hg : (mutexLock T C).Guarded (fun _ a => a.isWait = false) .start as :=
    Machine.Guarded.of_labels (fun a ha _ => has a ha) _
  refine hg.along (fun s => s.Owned ∧ (s.Quiet → s.HolderKnown) ∧ s.NoneWaits) ?_ ?_ ?_
  · exact fun _ h => h.2.1
  · intro s a s' h ha hs
    refine ⟨h.1.step hs, h.1.known_step h.2.1 ?_ hs, h.2.2.step ha hs⟩
    exact h.2.2.not_bareWait ha hs
  · exact ⟨LockState.owned_start, fun _ => LockState.holderKnown_start, fun _ => rfl⟩

end Netfish

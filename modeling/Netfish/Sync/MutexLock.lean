import Mathlib.Logic.Function.Basic
import Netfish.Kit.Check
import Netfish.Kit.Machine

/-!
# MutexLock and Condition

One `MutexLock`, the `Condition`s on it and any number of threads, interleaved between any two
statements. `lock` takes the pthread mutex and then sets `holder_`; `unlock` clears `holder_` and then
gives the mutex back. `Condition` hands the bare pthread mutex to `pthread_cond_wait`, which releases it
as it blocks and takes it again before it returns, and a wait may also end by itself.
-/

set_option autoImplicit false

namespace Netfish

open Kit

universe u v

inductive MutexFault where
  /-- `assert(isLockedByThisThread())` in `assertLocked` -/
  | notLocked
deriving DecidableEq, Repr

structure MutexLock (T : Type u) where
  /-- The thread that owns the pthread mutex. -/
  mutex_ : Option T
  /-- `none` is the thread id 0, which no thread has. -/
  holder_ : Option T
deriving DecidableEq, Repr

namespace MutexLock

variable {T : Type u}

def new : MutexLock T where
  mutex_ := none
  holder_ := none

/-- `pthread_mutex_lock`, and the end of a wait. -/
def take (l : MutexLock T) (t : T) : MutexLock T := { l with mutex_ := some t }

/-- `pthread_mutex_unlock`, and the beginning of a wait. -/
def release (l : MutexLock T) : MutexLock T := { l with mutex_ := none }

/-- `holder_ = tid()` and `holder_ = 0`. -/
def setHolder (l : MutexLock T) (holder : Option T) : MutexLock T := { l with holder_ := holder }

variable [DecidableEq T]

def isLockedByThisThread (l : MutexLock T) (tid : T) : Bool := l.holder_ = some tid

def assertLocked (l : MutexLock T) (tid : T) : Except MutexFault Unit :=
  check .notLocked (l.isLockedByThisThread tid = true)

end MutexLock

/-- Where a thread stands in the code of the lock and its conditions. -/
inductive LockPc (C : Type v) where
  | outside
  /-- In `lock`, in `pthread_mutex_lock`. -/
  | locking
  /-- In `lock`, before `holder_` is set. -/
  | locked
  /-- In `unlock`, after `holder_` is cleared. -/
  | unlocking
  /-- Blocked in `wait`, or in `waitForSeconds` when `timed`. -/
  | waiting (c : C) (timed : Bool)
  /-- About to take the mutex again; `waitForSeconds` returns `timedOut`. -/
  | woken (timedOut : Bool)
deriving DecidableEq, Repr

namespace LockPc

variable {C : Type v}

/-- Inside `lock` or `unlock`. -/
def inLockCode : LockPc C → Bool
  | .locking | .locked | .unlocking => true
  | _ => false

/-- Inside `lock` or `unlock`, with the mutex. -/
def ownsInside : LockPc C → Bool
  | .locked | .unlocking => true
  | _ => false

/-- Inside `wait` or `waitForSeconds`. -/
def inWait : LockPc C → Bool
  | .waiting _ _ | .woken _ => true
  | _ => false

/-- `pthread_cond_signal` or `pthread_cond_broadcast` reaches the thread. -/
def notified [DecidableEq C] (c : C) : LockPc C → LockPc C
  | .waiting c' timed => if c' = c then .woken false else .waiting c' timed
  | pc => pc

/-- Nothing but a wait is notified. -/
theorem notified_cases [DecidableEq C] (c : C) (pc : LockPc C) :
    pc.notified c = pc ∨ pc.inWait = true ∧ (pc.notified c).inWait = true := by
  cases pc with
  | waiting c' timed =>
    right
    constructor
    · rfl
    · simp only [notified]
      split <;> rfl
  | _ => exact .inl rfl

end LockPc

structure LockState (T : Type u) (C : Type v) where
  lock : MutexLock T
  pcs : T → LockPc C

/-- One step of one thread. -/
inductive LockAct (T : Type u) (C : Type v) where
  /-- The call of `lock`. -/
  | lock (t : T)
  | lockMutex (t : T)
  | setHolder (t : T)
  /-- The call of `unlock`, with its first statement. -/
  | unlock (t : T)
  | unlockMutex (t : T)
  /-- The call of `wait`, or of `waitForSeconds` when `timed`. -/
  | wait (t : T) (c : C) (timed : Bool)
  /-- `notify`, which reaches `t` if it waits on `c` and finds no one otherwise. -/
  | notify (c : C) (t : T)
  | notifyAll (c : C)
  /-- A wait ends without a notification. -/
  | spurious (t : T)
  | timeout (t : T)
  | waitReturns (t : T)
deriving DecidableEq, Repr

/-- A call of `wait` or `waitForSeconds`. -/
def LockAct.isWait {T : Type u} {C : Type v} : LockAct T C → Bool
  | .wait .. => true
  | _ => false

/-- Ends waits, and leaves the mutex alone. -/
def LockAct.wakes {T : Type u} {C : Type v} : LockAct T C → Bool
  | .notify .. | .notifyAll _ | .spurious _ | .timeout _ => true
  | _ => false

namespace LockState

variable {T : Type u} {C : Type v}

def start : LockState T C where
  lock := .new
  pcs _ := .outside

variable [DecidableEq T]

/-- A thread goes on, having left the lock like this. -/
def goto (s : LockState T C) (lock : MutexLock T) (t : T) (pc : LockPc C) : LockState T C where
  lock := lock
  pcs := Function.update s.pcs t pc

variable [DecidableEq C]

/-- `unlock` and `wait` are for the thread that owns the mutex. -/
def step (s : LockState T C) : LockAct T C → Option (LockState T C)
  | .lock t => if s.pcs t = .outside then some (s.goto s.lock t .locking) else none
  | .lockMutex t =>
    if s.pcs t = .locking ∧ s.lock.mutex_ = none then some (s.goto (s.lock.take t) t .locked)
    else none
  | .setHolder t =>
    if s.pcs t = .locked then some (s.goto (s.lock.setHolder (some t)) t .outside) else none
  | .unlock t =>
    if s.pcs t = .outside ∧ s.lock.mutex_ = some t then
      some (s.goto (s.lock.setHolder none) t .unlocking)
    else none
  | .unlockMutex t =>
    if s.pcs t = .unlocking then some (s.goto s.lock.release t .outside) else none
  | .wait t c timed =>
    if s.pcs t = .outside ∧ s.lock.mutex_ = some t then
      some (s.goto s.lock.release t (.waiting c timed))
    else none
  | .notify c t => some (s.goto s.lock t ((s.pcs t).notified c))
  | .notifyAll c => some { s with pcs := fun t => (s.pcs t).notified c }
  | .spurious t =>
    match s.pcs t with
    | .waiting _ _ => some (s.goto s.lock t (.woken false))
    | _ => none
  | .timeout t =>
    match s.pcs t with
    | .waiting _ true => some (s.goto s.lock t (.woken true))
    | _ => none
  | .waitReturns t =>
    match s.pcs t with
    | .woken _ =>
      if s.lock.mutex_ = none then some (s.goto (s.lock.take t) t .outside) else none
    | _ => none

end LockState

/-- The steps once more, one case each. -/
inductive LockMove {T : Type u} {C : Type v} [DecidableEq T] [DecidableEq C] (s : LockState T C) :
    LockAct T C → LockState T C → Prop
  | lock {t : T} (h : s.pcs t = .outside) : LockMove s (.lock t) (s.goto s.lock t .locking)
  | lockMutex {t : T} (h : s.pcs t = .locking) (hm : s.lock.mutex_ = none) :
      LockMove s (.lockMutex t) (s.goto (s.lock.take t) t .locked)
  | setHolder {t : T} (h : s.pcs t = .locked) :
      LockMove s (.setHolder t) (s.goto (s.lock.setHolder (some t)) t .outside)
  | unlock {t : T} (h : s.pcs t = .outside) (hm : s.lock.mutex_ = some t) :
      LockMove s (.unlock t) (s.goto (s.lock.setHolder none) t .unlocking)
  | unlockMutex {t : T} (h : s.pcs t = .unlocking) :
      LockMove s (.unlockMutex t) (s.goto s.lock.release t .outside)
  | wait {t : T} {c : C} {timed : Bool} (h : s.pcs t = .outside) (hm : s.lock.mutex_ = some t) :
      LockMove s (.wait t c timed) (s.goto s.lock.release t (.waiting c timed))
  /-- Threads in a wait are notified, or their waits end without. -/
  | awake {a : LockAct T C} {pcs : T → LockPc C} (ha : a.wakes = true)
      (h : ∀ u, pcs u = s.pcs u ∨ (s.pcs u).inWait = true ∧ (pcs u).inWait = true) :
      LockMove s a { s with pcs := pcs }
  | waitReturns {t : T} {timedOut : Bool} (h : s.pcs t = .woken timedOut)
      (hm : s.lock.mutex_ = none) :
      LockMove s (.waitReturns t) (s.goto (s.lock.take t) t .outside)

/-- One thread in a wait goes on in it. -/
theorem LockMove.awakeOne {T : Type u} {C : Type v} [DecidableEq T] [DecidableEq C]
    {s : LockState T C} {a : LockAct T C} {t : T} {pc : LockPc C} (ha : a.wakes = true)
    (h : pc = s.pcs t ∨ (s.pcs t).inWait = true ∧ pc.inWait = true) :
    LockMove s a (s.goto s.lock t pc) := by
  apply LockMove.awake ha
  intro u
  by_cases hu : u = t
  · subst hu
    rw [Function.update_self]
    exact h
  · exact .inl (Function.update_of_ne hu ..)

theorem LockState.step_move {T : Type u} {C : Type v} [DecidableEq T] [DecidableEq C]
    {s s' : LockState T C} {a : LockAct T C} (h : s.step a = some s') : LockMove s a s' := by
  unfold step at h
  split at h
  · obtain ⟨hpc, h⟩ := Option.ite_none_right_eq_some.mp h
    cases h
    exact .lock hpc
  · obtain ⟨hc, h⟩ := Option.ite_none_right_eq_some.mp h
    cases h
    exact .lockMutex hc.1 hc.2
  · obtain ⟨hpc, h⟩ := Option.ite_none_right_eq_some.mp h
    cases h
    exact .setHolder hpc
  · obtain ⟨hc, h⟩ := Option.ite_none_right_eq_some.mp h
    cases h
    exact .unlock hc.1 hc.2
  · obtain ⟨hpc, h⟩ := Option.ite_none_right_eq_some.mp h
    cases h
    exact .unlockMutex hpc
  · obtain ⟨hc, h⟩ := Option.ite_none_right_eq_some.mp h
    cases h
    exact .wait hc.1 hc.2
  · cases h
    exact .awakeOne rfl (LockPc.notified_cases _ _)
  · cases h
    exact .awake rfl fun _ => LockPc.notified_cases _ _
  · split at h
    · next hpc =>
      cases h
      exact .awakeOne rfl (.inr ⟨by rw [hpc]; rfl, rfl⟩)
    · cases h
  · split at h
    · next hpc =>
      cases h
      exact .awakeOne rfl (.inr ⟨by rw [hpc]; rfl, rfl⟩)
    · cases h
  · split at h
    · next hpc =>
      obtain ⟨hm, h⟩ := Option.ite_none_right_eq_some.mp h
      cases h
      exact .waitReturns hpc hm
    · cases h

/-- One lock among its threads. -/
def mutexLock (T : Type u) (C : Type v) [DecidableEq T] [DecidableEq C] :
    Machine (LockState T C) (LockAct T C) where
  init s := s = .start
  step := LockState.step

end Netfish

import Mathlib.Algebra.Group.Nat.Defs
import Mathlib.Logic.Function.Basic
import Netfish.Kit.BatchQueue
import Netfish.Kit.Machine

/-!
# EventLoop

One event loop, its own thread and any number of other threads, interleaved at the steps that
matter: a push under the mutex, a write to the eventfd, a test of a flag, a poll.

`EventLoop` holds the data members with the methods of `EventLoop.cc` on them. `LoopState` adds where
each thread stands in the code and a history of the functors pushed and run. `eventLoop` is the
machine. The loop thread's own calls of `queueInLoop` and `quit` come from code it runs inside
`loop()`: an event handler, a timer callback or a functor.
-/

set_option autoImplicit false

namespace Netfish

open Kit

universe u v

/-! ## The object -/

/-- An eventfd counter cannot pass this value: a non-blocking write that would fails. -/
def eventfdMax : Nat := 2 ^ 64 - 2

structure EventLoop (F : Type u) where
  looping_ : Bool
  quit_ : Bool
  callingPendingFunctors_ : Bool
  /-- The counter behind `wakeupFd_`; it is readable when not zero. -/
  wakeupFd_ : Nat
  /-- `pendingFunctors_`, and the local vector `doPendingFunctors` swapped out of it. -/
  functors : BatchQueue F

namespace EventLoop

variable {F : Type u}

def new : EventLoop F where
  looping_ := false
  quit_ := false
  callingPendingFunctors_ := false
  wakeupFd_ := 0
  functors := .empty

/-- `::write` of the number one to the eventfd. -/
def wakeup (l : EventLoop F) : EventLoop F :=
  if l.wakeupFd_ < eventfdMax then { l with wakeupFd_ := l.wakeupFd_ + 1 } else l

/-- `::read` of the eventfd: the whole counter at once. -/
def handleRead (l : EventLoop F) : EventLoop F := { l with wakeupFd_ := 0 }

/-- The critical section of `queueInLoop`. -/
def pushFunctor (f : F) (l : EventLoop F) : EventLoop F :=
  { l with functors := l.functors.push f }

/-- The end of `queueInLoop` in the loop thread, where `isInLoopThread()` holds. -/
def wakeupFromLoop (l : EventLoop F) : EventLoop F :=
  if l.callingPendingFunctors_ then l.wakeup else l

/-- `doPendingFunctors` up to the end of its critical section. -/
def beginFunctors (l : EventLoop F) : EventLoop F :=
  { l with callingPendingFunctors_ := true, functors := l.functors.swap }

/-- The last statement of `doPendingFunctors`, which sets the flag once more. -/
def endFunctors (l : EventLoop F) : EventLoop F := { l with callingPendingFunctors_ := true }

@[simp] theorem wakeup_functors (l : EventLoop F) : l.wakeup.functors = l.functors := by
  unfold wakeup
  split <;> rfl

@[simp] theorem wakeup_calling (l : EventLoop F) :
    l.wakeup.callingPendingFunctors_ = l.callingPendingFunctors_ := by
  unfold wakeup
  split <;> rfl

/-- A wakeup leaves the eventfd readable, also when the counter is full. -/
theorem wakeup_readable (l : EventLoop F) : l.wakeup.wakeupFd_ ≠ 0 := by
  unfold wakeup
  split
  · exact Nat.succ_ne_zero _
  · next h => exact fun h0 => h (by rw [h0]; decide)

@[simp] theorem wakeupFromLoop_functors (l : EventLoop F) :
    l.wakeupFromLoop.functors = l.functors := by
  unfold wakeupFromLoop
  split <;> simp

@[simp] theorem wakeupFromLoop_calling (l : EventLoop F) :
    l.wakeupFromLoop.callingPendingFunctors_ = l.callingPendingFunctors_ := by
  unfold wakeupFromLoop
  split <;> simp

end EventLoop

/-! ## The threads -/

/-- Where another thread stands: between calls, in `queueInLoop` after the push, or in `quit` after
the flag. The last two are about to write the eventfd. -/
inductive CallPc where
  | idle
  | pushed
  | quitting
deriving DecidableEq, Repr

/-- A channel `poll` reported: the loop's own `wakeupChannel_`, or any other. -/
inductive ActiveChannel where
  | wakeup
  | other
deriving DecidableEq, Repr

/-- Where the loop thread stands. -/
inductive LoopPc where
  /-- Not inside `loop()`. -/
  | outside
  /-- At the test of `while (!quit_)`. -/
  | test
  /-- Blocked in `poller_->poll`. -/
  | polling
  /-- Between two `handleEvent` calls, these channels still to come. -/
  | handlers (active : List ActiveChannel)
  /-- Inside the `handleEvent` of another channel, with user code or a timer callback running. -/
  | handler (active : List ActiveChannel)
  /-- In `doPendingFunctors`, between two functors. -/
  | batch
  /-- In `doPendingFunctors`, inside `functors[i]()`. -/
  | functor
deriving DecidableEq, Repr

/-- The loop thread is running code that may call the loop. -/
def LoopPc.inUserCode : LoopPc → Bool
  | .handler _ => true
  | .functor => true
  | _ => false

structure LoopState (T : Type v) (F : Type u) where
  loop : EventLoop F
  pc : LoopPc
  /-- The loop thread is in `queueInLoop`, after the push. -/
  queueing : Bool
  calls : T → CallPc
  /-- History: every functor pushed, in mutex order. -/
  pushed : List F
  /-- History: every functor whose call has begun, in order. -/
  executed : List F

/-- One step of one thread. -/
inductive LoopAct (T : Type v) (F : Type u) where
  | push (t : T) (f : F)
  | wakeup (t : T)
  | setQuit (t : T)
  | quitWakeup (t : T)
  | enter
  | test
  | poll (active : List ActiveChannel)
  | handleEvent
  | handlerReturns
  | beginFunctors
  | runFunctor
  | functorReturns
  | endFunctors
  | pushHere (f : F)
  | wakeupHere
  | quitHere

namespace LoopState

variable {T : Type v} {F : Type u} [DecidableEq T]

def start : LoopState T F where
  loop := .new
  pc := .outside
  queueing := false
  calls _ := .idle
  pushed := []
  executed := []

/-- The steps of another thread inside `queueInLoop` and `quit`. -/
def threadStep (s : LoopState T F) : LoopAct T F → Option (LoopState T F)
  | .push t f =>
    if s.calls t = .idle then
      some { s with
        loop := s.loop.pushFunctor f
        calls := Function.update s.calls t .pushed
        pushed := s.pushed ++ [f] }
    else none
  | .wakeup t =>
    if s.calls t = .pushed then
      some { s with loop := s.loop.wakeup, calls := Function.update s.calls t .idle }
    else none
  | .setQuit t =>
    if s.calls t = .idle then
      some { s with
        loop := { s.loop with quit_ := true }
        calls := Function.update s.calls t .quitting }
    else none
  | .quitWakeup t =>
    if s.calls t = .quitting then
      some { s with loop := s.loop.wakeup, calls := Function.update s.calls t .idle }
    else none
  | _ => none

/-- The steps of the loop thread inside its own `queueInLoop` and `quit`. -/
def callStep (s : LoopState T F) : LoopAct T F → Option (LoopState T F)
  | .pushHere f =>
    if s.pc.inUserCode ∧ s.queueing = false then
      some { s with loop := s.loop.pushFunctor f, queueing := true, pushed := s.pushed ++ [f] }
    else none
  | .wakeupHere =>
    if s.queueing then some { s with loop := s.loop.wakeupFromLoop, queueing := false } else none
  | .quitHere =>
    if s.pc.inUserCode ∧ s.queueing = false then
      some { s with loop := { s.loop with quit_ := true } }
    else none
  | _ => none

/-- The steps of the loop thread in `loop()` and `doPendingFunctors`. -/
def loopStep (s : LoopState T F) (a : LoopAct T F) : Option (LoopState T F) :=
  match a, s.pc with
  | .enter, .outside =>
    some { s with loop := { s.loop with looping_ := true, quit_ := false }, pc := .test }
  | .test, .test =>
    if s.loop.quit_ then
      some { s with loop := { s.loop with looping_ := false }, pc := .outside }
    else some { s with pc := .polling }
  | .poll active, .polling =>
    -- the kernel reports the eventfd only while it is readable
    if .wakeup ∈ active → s.loop.wakeupFd_ ≠ 0 then some { s with pc := .handlers active }
    else none
  | .handleEvent, .handlers (.wakeup :: active) =>
    some { s with loop := s.loop.handleRead, pc := .handlers active }
  | .handleEvent, .handlers (.other :: active) => some { s with pc := .handler active }
  | .handlerReturns, .handler active =>
    if s.queueing = false then some { s with pc := .handlers active } else none
  | .beginFunctors, .handlers [] =>
    some { s with loop := s.loop.beginFunctors, pc := .batch }
  | .runFunctor, .batch =>
    s.loop.functors.next.map fun (f, rest) =>
      { s with
        loop := { s.loop with functors := rest }
        pc := .functor
        executed := s.executed ++ [f] }
  | .functorReturns, .functor =>
    if s.queueing = false then some { s with pc := .batch } else none
  | .endFunctors, .batch =>
    if s.loop.functors.batch = [] then
      some { s with loop := s.loop.endFunctors, pc := .test }
    else none
  | _, _ => none

def step (s : LoopState T F) (a : LoopAct T F) : Option (LoopState T F) :=
  match a with
  | .push _ _ | .wakeup _ | .setQuit _ | .quitWakeup _ => s.threadStep a
  | .pushHere _ | .wakeupHere | .quitHere => s.callStep a
  | _ => s.loopStep a

end LoopState

/-! ## What a step can do -/

/-- The steps once more, one case each, with the guard and the state after it. -/
inductive LoopMove {T : Type v} {F : Type u} [DecidableEq T] (s : LoopState T F) :
    LoopAct T F → LoopState T F → Prop
  | push {t : T} {f : F} (h : s.calls t = .idle) :
      LoopMove s (.push t f) { s with
        loop := s.loop.pushFunctor f
        calls := Function.update s.calls t .pushed
        pushed := s.pushed ++ [f] }
  | wakeup {t : T} (h : s.calls t = .pushed) :
      LoopMove s (.wakeup t) { s with
        loop := s.loop.wakeup, calls := Function.update s.calls t .idle }
  | setQuit {t : T} (h : s.calls t = .idle) :
      LoopMove s (.setQuit t) { s with
        loop := { s.loop with quit_ := true }
        calls := Function.update s.calls t .quitting }
  | quitWakeup {t : T} (h : s.calls t = .quitting) :
      LoopMove s (.quitWakeup t) { s with
        loop := s.loop.wakeup, calls := Function.update s.calls t .idle }
  | enter (hpc : s.pc = .outside) :
      LoopMove s .enter { s with
        loop := { s.loop with looping_ := true, quit_ := false }, pc := .test }
  | leave (hpc : s.pc = .test) (h : s.loop.quit_ = true) :
      LoopMove s .test { s with loop := { s.loop with looping_ := false }, pc := .outside }
  | again (hpc : s.pc = .test) (h : s.loop.quit_ = false) :
      LoopMove s .test { s with pc := .polling }
  | poll {active : List ActiveChannel} (hpc : s.pc = .polling)
      (h : .wakeup ∈ active → s.loop.wakeupFd_ ≠ 0) :
      LoopMove s (.poll active) { s with pc := .handlers active }
  | handleRead {active : List ActiveChannel} (hpc : s.pc = .handlers (.wakeup :: active)) :
      LoopMove s .handleEvent { s with loop := s.loop.handleRead, pc := .handlers active }
  | handleOther {active : List ActiveChannel} (hpc : s.pc = .handlers (.other :: active)) :
      LoopMove s .handleEvent { s with pc := .handler active }
  | handlerReturns {active : List ActiveChannel} (hpc : s.pc = .handler active)
      (h : s.queueing = false) : LoopMove s .handlerReturns { s with pc := .handlers active }
  | beginFunctors (hpc : s.pc = .handlers []) :
      LoopMove s .beginFunctors { s with loop := s.loop.beginFunctors, pc := .batch }
  | runFunctor {f : F} {rest : BatchQueue F} (hpc : s.pc = .batch)
      (h : s.loop.functors.next = some (f, rest)) :
      LoopMove s .runFunctor { s with
        loop := { s.loop with functors := rest }
        pc := .functor
        executed := s.executed ++ [f] }
  | functorReturns (hpc : s.pc = .functor) (h : s.queueing = false) :
      LoopMove s .functorReturns { s with pc := .batch }
  | endFunctors (hpc : s.pc = .batch) (h : s.loop.functors.batch = []) :
      LoopMove s .endFunctors { s with loop := s.loop.endFunctors, pc := .test }
  | pushHere {f : F} (hpc : s.pc.inUserCode = true) (h : s.queueing = false) :
      LoopMove s (.pushHere f) { s with
        loop := s.loop.pushFunctor f, queueing := true, pushed := s.pushed ++ [f] }
  | wakeupHere (h : s.queueing = true) :
      LoopMove s .wakeupHere { s with loop := s.loop.wakeupFromLoop, queueing := false }
  | quitHere (hpc : s.pc.inUserCode = true) (h : s.queueing = false) :
      LoopMove s .quitHere { s with loop := { s.loop with quit_ := true } }

namespace LoopState

variable {T : Type v} {F : Type u} [DecidableEq T]

theorem threadStep_move {s s' : LoopState T F} {a : LoopAct T F} (h : s.threadStep a = some s') :
    LoopMove s a s' := by
  unfold threadStep at h
  split at h
  · split at h
    · next hc => cases h; exact .push hc
    · cases h
  · split at h
    · next hc => cases h; exact .wakeup hc
    · cases h
  · split at h
    · next hc => cases h; exact .setQuit hc
    · cases h
  · split at h
    · next hc => cases h; exact .quitWakeup hc
    · cases h
  · cases h

theorem callStep_move {s s' : LoopState T F} {a : LoopAct T F} (h : s.callStep a = some s') :
    LoopMove s a s' := by
  unfold callStep at h
  split at h
  · split at h
    · next hc => cases h; exact .pushHere hc.1 hc.2
    · cases h
  · split at h
    · next hc => cases h; exact .wakeupHere hc
    · cases h
  · split at h
    · next hc => cases h; exact .quitHere hc.1 hc.2
    · cases h
  · cases h

theorem loopStep_move {s s' : LoopState T F} {a : LoopAct T F} (h : s.loopStep a = some s') :
    LoopMove s a s' := by
  unfold loopStep at h
  split at h
  · next hpc => cases h; exact .enter hpc
  · next hpc =>
    split at h
    · next hq => cases h; exact .leave hpc hq
    · next hq => cases h; exact .again hpc (Bool.eq_false_iff.mpr hq)
  · next hpc =>
    split at h
    · next hr => cases h; exact .poll hpc hr
    · cases h
  · next hpc => cases h; exact .handleRead hpc
  · next hpc => cases h; exact .handleOther hpc
  · next hpc =>
    split at h
    · next hq => cases h; exact .handlerReturns hpc hq
    · cases h
  · next hpc => cases h; exact .beginFunctors hpc
  · next hpc =>
    obtain ⟨⟨f, rest⟩, hn, rfl⟩ := Option.map_eq_some_iff.mp h
    exact .runFunctor hpc hn
  · next hpc =>
    split at h
    · next hq => cases h; exact .functorReturns hpc hq
    · cases h
  · next hpc =>
    split at h
    · next hb => cases h; exact .endFunctors hpc hb
    · cases h
  · cases h

theorem step_move {s s' : LoopState T F} {a : LoopAct T F} (h : s.step a = some s') :
    LoopMove s a s' := by
  unfold step at h
  split at h
  all_goals first
    | exact threadStep_move h
    | exact callStep_move h
    | exact loopStep_move h

end LoopState

/-- The event loop among its threads. -/
def eventLoop (T : Type v) (F : Type u) [DecidableEq T] : Machine (LoopState T F) (LoopAct T F) where
  init s := s = .start
  step := LoopState.step

end Netfish

import Netfish.Loop.EventLoop

/-!
# EventLoopThread

The life of a loop that has a thread of its own: one thread runs `startLoop` and later
`~EventLoopThread`, the new thread runs `threadFunc`, and any others call the loop once it is
published. The steps inside `loop()`, and those of the other threads, are the ones of `EventLoop`.

`startLoop` waits with the mutex released, and a wait may end at any time, since `pthread_cond_wait`
allows it; the test of `loop_` is made again. `exiting_` is written and never read, so it has no field.
-/

set_option autoImplicit false

namespace Netfish

open Kit

universe u v

/-- Where the thread that owns the `EventLoopThread` stands. -/
inductive OwnerPc where
  /-- The constructor has returned. -/
  | built
  /-- In `startLoop`, at the test of `while (loop_ == NULL)`. -/
  | testing
  /-- In `cond_.wait()`. -/
  | waiting
  /-- `startLoop` has returned; `~EventLoopThread` may call `loop_->quit()`. -/
  | started
  /-- In `quit`, at the test of `isInLoopThread()`. -/
  | quitSet
  /-- In `quit`, about to write the eventfd. -/
  | waking
  /-- `quit` has returned; in `thread_.join()`. -/
  | joining
  | joined
deriving DecidableEq, Repr

/-- `~EventLoopThread` has assigned `quit_`. -/
def OwnerPc.hasQuit : OwnerPc → Bool
  | .quitSet | .waking | .joining | .joined => true
  | _ => false

/-- `startLoop` has returned the loop, and a step of `quit` on it is still to come. -/
def OwnerPc.willUse : OwnerPc → Bool
  | .started | .quitSet | .waking => true
  | _ => false

/-- Between the assignment of `quit_` and the write to the eventfd. -/
def OwnerPc.midQuit : OwnerPc → Bool
  | .quitSet | .waking => true
  | _ => false

/-- Where the new thread stands in `threadFunc`. -/
inductive FuncPc where
  | unborn
  /-- Before the constructor of the local `EventLoop`. -/
  | entered
  | constructed
  /-- `loop_` is set; `loop.loop()` comes next. -/
  | published
  /-- Inside `loop()`. -/
  | looping
  /-- `loop()` has returned. -/
  | left
  /-- The body of `~EventLoop` has run; the members are still there. -/
  | closed
  | finished
deriving DecidableEq, Repr

/-- The local `EventLoop` exists. -/
def FuncPc.loopAlive : FuncPc → Bool
  | .constructed | .published | .looping | .left | .closed => true
  | _ => false

def FuncPc.wakeupFdOpen : FuncPc → Bool
  | .constructed | .published | .looping | .left => true
  | _ => false

/-- The loop is published and its destructor has not begun. -/
def FuncPc.serves : FuncPc → Bool
  | .published | .looping | .left => true
  | _ => false

theorem FuncPc.open_of_serves {pc : FuncPc} (h : pc.serves = true) : pc.wakeupFdOpen = true := by
  cases pc with
  | published | looping | left => rfl
  | _ => cases h

theorem FuncPc.alive_of_open {pc : FuncPc} (h : pc.wakeupFdOpen = true) : pc.loopAlive = true := by
  cases pc with
  | constructed | published | looping | left => rfl
  | _ => cases h

structure LoopThreadState (T : Type v) (F : Type u) where
  inner : LoopState T F
  /-- `loop_ != NULL`. -/
  loop_ : Bool
  owner : OwnerPc
  func : FuncPc

/-- One step of the owner, of the new thread, or of another thread on the loop. -/
inductive LoopThreadAct (T : Type v) (F : Type u) where
  | threadStart
  | testLoop
  | waitReturns
  | setQuit
  | testThread
  | writeWakeup
  | join
  | construct
  | publish
  | enter
  | inLoop (a : LoopAct T F)
  | loopReturns
  | close
  | destroy

/-- `loop()` is called by `threadFunc`, which has a label of its own for it. -/
def LoopAct.isEnter {T : Type v} {F : Type u} : LoopAct T F → Bool
  | .enter => true
  | _ => false

/-- A call of `quit` from anywhere but `~EventLoopThread`. -/
def LoopThreadAct.quitsElsewhere {T : Type v} {F : Type u} : LoopThreadAct T F → Bool
  | .inLoop (.setQuit _) | .inLoop .quitHere => true
  | _ => false

namespace LoopThreadState

variable {T : Type v} {F : Type u} [DecidableEq T]

def start : LoopThreadState T F where
  inner := .start
  loop_ := false
  owner := .built
  func := .unborn

/-- `startLoop` and `~EventLoopThread`. -/
def ownerStep (s : LoopThreadState T F) (a : LoopThreadAct T F) : Option (LoopThreadState T F) :=
  match a, s.owner with
  | .threadStart, .built => some { s with owner := .testing, func := .entered }
  | .testLoop, .testing =>
    if s.loop_ then some { s with owner := .started } else some { s with owner := .waiting }
  | .waitReturns, .waiting => some { s with owner := .testing }
  | .setQuit, .started =>
    some { s with
      inner := { s.inner with loop := { s.inner.loop with quit_ := true } }
      owner := .quitSet }
  | .testThread, .quitSet =>
    -- the owner is not the loop's thread
    some { s with owner := .waking }
  | .writeWakeup, .waking =>
    some { s with inner := { s.inner with loop := s.inner.loop.wakeup }, owner := .joining }
  | .join, .joining => if s.func = .finished then some { s with owner := .joined } else none
  | _, _ => none

/-- `threadFunc`, and the steps that are `EventLoop`'s own. -/
def funcStep (s : LoopThreadState T F) (a : LoopThreadAct T F) : Option (LoopThreadState T F) :=
  match a, s.func with
  | .construct, .entered => some { s with func := .constructed }
  | .publish, .constructed => some { s with loop_ := true, func := .published }
  | .enter, .published =>
    (s.inner.step .enter).map fun inner => { s with inner := inner, func := .looping }
  | .inLoop a, pc =>
    if pc.serves ∧ a.isEnter = false then
      (s.inner.step a).map fun inner => { s with inner := inner }
    else none
  | .loopReturns, .looping =>
    if s.inner.pc = .outside then some { s with func := .left } else none
  | .close, .left => some { s with func := .closed }
  | .destroy, .closed => some { s with func := .finished }
  | _, _ => none

def step (s : LoopThreadState T F) (a : LoopThreadAct T F) : Option (LoopThreadState T F) :=
  match a with
  | .threadStart | .testLoop | .waitReturns | .setQuit | .testThread | .writeWakeup | .join =>
    s.ownerStep a
  | _ => s.funcStep a

end LoopThreadState

/-- The steps once more, one case each. -/
inductive LoopThreadMove {T : Type v} {F : Type u} [DecidableEq T] (s : LoopThreadState T F) :
    LoopThreadAct T F → LoopThreadState T F → Prop
  | threadStart (h : s.owner = .built) :
      LoopThreadMove s .threadStart { s with owner := .testing, func := .entered }
  | startReturns (h : s.owner = .testing) (hl : s.loop_ = true) :
      LoopThreadMove s .testLoop { s with owner := .started }
  | wait (h : s.owner = .testing) (hl : s.loop_ = false) :
      LoopThreadMove s .testLoop { s with owner := .waiting }
  | waitReturns (h : s.owner = .waiting) :
      LoopThreadMove s .waitReturns { s with owner := .testing }
  | setQuit (h : s.owner = .started) :
      LoopThreadMove s .setQuit { s with
        inner := { s.inner with loop := { s.inner.loop with quit_ := true } }
        owner := .quitSet }
  | testThread (h : s.owner = .quitSet) :
      LoopThreadMove s .testThread { s with owner := .waking }
  | writeWakeup (h : s.owner = .waking) :
      LoopThreadMove s .writeWakeup { s with
        inner := { s.inner with loop := s.inner.loop.wakeup }, owner := .joining }
  | join (h : s.owner = .joining) (hf : s.func = .finished) :
      LoopThreadMove s .join { s with owner := .joined }
  | construct (h : s.func = .entered) :
      LoopThreadMove s .construct { s with func := .constructed }
  | publish (h : s.func = .constructed) :
      LoopThreadMove s .publish { s with loop_ := true, func := .published }
  | enter {inner : LoopState T F} (h : s.func = .published)
      (hs : LoopMove s.inner .enter inner) :
      LoopThreadMove s .enter { s with inner := inner, func := .looping }
  | inLoop {a : LoopAct T F} {inner : LoopState T F} (h : s.func.serves = true)
      (ha : a.isEnter = false) (hs : LoopMove s.inner a inner) :
      LoopThreadMove s (.inLoop a) { s with inner := inner }
  | loopReturns (h : s.func = .looping) (hpc : s.inner.pc = .outside) :
      LoopThreadMove s .loopReturns { s with func := .left }
  | close (h : s.func = .left) : LoopThreadMove s .close { s with func := .closed }
  | destroy (h : s.func = .closed) : LoopThreadMove s .destroy { s with func := .finished }

namespace LoopThreadState

variable {T : Type v} {F : Type u} [DecidableEq T] {s s' : LoopThreadState T F}
  {a : LoopThreadAct T F}

theorem ownerStep_move (h : s.ownerStep a = some s') : LoopThreadMove s a s' := by
  unfold ownerStep at h
  split at h
  · next hpc => cases h; exact .threadStart hpc
  · next hpc =>
    split at h
    · next hl => cases h; exact .startReturns hpc hl
    · next hl => cases h; exact .wait hpc (Bool.eq_false_iff.mpr hl)
  · next hpc => cases h; exact .waitReturns hpc
  · next hpc => cases h; exact .setQuit hpc
  · next hpc => cases h; exact .testThread hpc
  · next hpc => cases h; exact .writeWakeup hpc
  · next hpc =>
    split at h
    · next hf => cases h; exact .join hpc hf
    · cases h
  · cases h

theorem funcStep_move (h : s.funcStep a = some s') : LoopThreadMove s a s' := by
  unfold funcStep at h
  split at h
  · next hpc => cases h; exact .construct hpc
  · next hpc => cases h; exact .publish hpc
  · next hpc =>
    obtain ⟨inner, hs, rfl⟩ := Option.map_eq_some_iff.mp h
    exact .enter hpc (LoopState.step_move hs)
  · split at h
    · next hc =>
      obtain ⟨inner, hs, rfl⟩ := Option.map_eq_some_iff.mp h
      exact .inLoop hc.1 hc.2 (LoopState.step_move hs)
    · cases h
  · next hpc =>
    split at h
    · next ho => cases h; exact .loopReturns hpc ho
    · cases h
  · next hpc => cases h; exact .close hpc
  · next hpc => cases h; exact .destroy hpc
  · cases h

theorem step_move (h : s.step a = some s') : LoopThreadMove s a s' := by
  unfold step at h
  split at h
  all_goals first
    | exact ownerStep_move h
    | exact funcStep_move h

end LoopThreadState

/-- A loop in a thread of its own, with the thread that starts and ends it. -/
def eventLoopThread (T : Type v) (F : Type u) [DecidableEq T] :
    Machine (LoopThreadState T F) (LoopThreadAct T F) where
  init s := s = .start
  step := LoopThreadState.step

end Netfish

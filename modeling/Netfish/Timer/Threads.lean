import Netfish.Kit.Machine
import Netfish.Timer.TimerQueue

/-!
# A timer queue at work

`timerQueue` is the machine: the loop thread calls the queue from functors, from handlers and from
the timer callbacks themselves, other threads make timers and send them over with `addTimer`, the
timerfd expires, and `handleRead` works off a batch one callback at a time. What a callback does is
whatever steps come before the next callback starts, so every behaviour of every callback is a run.

A step that stops at an assertion or a dangling pointer leaves its fault in the state, and no step
follows it.
-/

set_option autoImplicit false

namespace Netfish

open Kit

/-- Where the loop thread stands. -/
inductive TimerPc where
  /-- Not in `handleRead`. -/
  | idle
  /-- In the callback loop of `handleRead`: these entries of `expired` have been run, the last of
  them is running still, and the others wait for their turn. -/
  | calling (now : Timestamp) (done todo : List Entry)
deriving DecidableEq, Repr

namespace TimerPc

/-- The local vector `expired`. -/
def expired : TimerPc → List Entry
  | idle => []
  | calling _ done todo => done ++ todo

def isCalling : TimerPc → Bool
  | idle => false
  | calling .. => true

/-- User code runs on the loop thread: a functor or handler, or a timer callback. -/
def inUserCode : TimerPc → Bool
  | idle => true
  | calling _ done _ => !done.isEmpty

end TimerPc

/-- What a history of the queue records. -/
inductive TimerEvent where
  /-- `addTimerInLoop` ran for this timer. -/
  | added (timer : Addr) (t : Timer)
  /-- `cancelInLoop` ran for this key. -/
  | cancelled (key : ActiveTimer)
  /-- The callback of this timer began. -/
  | started (key : ActiveTimer)
deriving DecidableEq, Repr

structure TimerState where
  q : TimerQueue
  pc : TimerPc
  /-- The timers of `addTimer` calls whose `addTimerInLoop` is still queued. -/
  inFlight : List Addr
  fault : Option TimerFault
  log : List TimerEvent

/-- One step. `now` and `clock` are what the clock reads. -/
inductive TimerAct where
  /-- `addTimer` in another thread: the timer is made and its functor queued. -/
  | newTimer (timer : Addr) (when : Timestamp) (interval : Interval)
  /-- A timer is made for another queue. -/
  | newElsewhere
  | addTimerInLoop (timer : Addr) (now : Timestamp)
  /-- `addTimer` in the loop thread. -/
  | addTimer (timer : Addr) (when : Timestamp) (interval : Interval) (now : Timestamp)
  | cancelInLoop (id : TimerId)
  | timerfdExpires
  | handleRead (now : Timestamp)
  /-- The running callback returns and the next one begins. -/
  | runNext
  /-- The last callback has returned. -/
  | endRead (clock : Timestamp)

/-- `new` gives an address that holds no timer, is not null and is not the last one. -/
def TimerQueue.Allocatable (q : TimerQueue) (timer : Addr) : Prop :=
  q.heap timer = none ∧ timer ≠ 0 ∧ timer < UINTPTR_MAX

instance (q : TimerQueue) (timer : Addr) : Decidable (q.Allocatable timer) :=
  inferInstanceAs (Decidable (_ ∧ _))

namespace TimerState

def start : TimerState where
  q := .new
  pc := .idle
  inFlight := []
  fault := none
  log := []

/-- The state after a function of the queue. -/
def after {α : Type} (s : TimerState) (r : Except TimerFault α) (f : α → TimerState) : TimerState :=
  match r with
  | .ok a => f a
  | .error fault => { s with fault := some fault }

/-- `addTimerInLoop`, and its record. -/
def addLogged (q : TimerQueue) (timer : Addr) (now : Timestamp) :
    Except TimerFault (TimerQueue × TimerEvent) := do
  let t ← q.deref timer
  let q ← q.addTimerInLoop timer now
  .ok (q, .added timer t)

/-- `it->second->run()`, and its record. -/
def runLogged (q : TimerQueue) (entry : Entry) : Except TimerFault TimerEvent := do
  let t ← q.deref entry.second
  .ok (.started ⟨entry.second, t.sequence_⟩)

/-- The steps outside the callback loop itself. -/
def userStep (s : TimerState) : TimerAct → Option TimerState
  | .newTimer timer when interval =>
    if s.q.Allocatable timer then
      some { s with q := s.q.newTimer timer when interval, inFlight := timer :: s.inFlight }
    else none
  | .newElsewhere => some { s with q := { s.q with s_numCreated_ := s.q.s_numCreated_ + 1 } }
  | .addTimerInLoop timer now =>
    if s.pc = .idle ∧ timer ∈ s.inFlight then
      some (s.after (addLogged s.q timer now) fun (q, event) =>
        { s with q, inFlight := s.inFlight.erase timer, log := s.log ++ [event] })
    else none
  | .addTimer timer when interval now =>
    if s.pc.inUserCode ∧ s.q.Allocatable timer then
      some (s.after (addLogged (s.q.newTimer timer when interval) timer now) fun (q, event) =>
        { s with q, log := s.log ++ [event] })
    else none
  | .cancelInLoop id =>
    if s.pc.inUserCode then
      some (s.after (s.q.cancelInLoop id) fun q =>
        { s with q, log := s.log ++ [.cancelled id.key] })
    else none
  | .timerfdExpires =>
    if s.q.timerfd_.armed.isSome then
      some { s with q := { s.q with timerfd_ := ⟨none, true⟩ } }
    else none
  | _ => none

/-- The steps of `handleRead`. -/
def readStep (s : TimerState) (a : TimerAct) : Option TimerState :=
  match a, s.pc with
  | .handleRead now, .idle =>
    some (s.after (s.q.beginExpired now) fun (q, expired) =>
      { s with q, pc := .calling now [] expired })
  | .runNext, .calling now done (entry :: todo) =>
    some (s.after (runLogged s.q entry) fun event =>
      { s with pc := .calling now (done ++ [entry]) todo, log := s.log ++ [event] })
  | .endRead clock, .calling now done [] =>
    some (s.after (s.q.endExpired done now clock) fun q => { s with q, pc := .idle })
  | _, _ => none

def step (s : TimerState) (a : TimerAct) : Option TimerState :=
  if s.fault.isSome then none
  else match a with
    | .handleRead _ | .runNext | .endRead _ => s.readStep a
    | _ => s.userStep a

end TimerState

/-- The timer queue among its callers. -/
def timerQueue : Machine TimerState TimerAct where
  init s := s = .start
  step := TimerState.step

namespace TimerState

@[simp] theorem after_ok {α : Type} (s : TimerState) (a : α) (f : α → TimerState) :
    s.after (.ok a) f = f a := rfl

end TimerState

end Netfish

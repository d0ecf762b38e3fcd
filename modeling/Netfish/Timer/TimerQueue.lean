import Mathlib.Algebra.Order.Ring.Int
import Mathlib.Logic.Function.Basic
import Netfish.Kit.Check
import Netfish.Kit.OrderedSet

/-!
# TimerQueue

The timer queue as `TimerQueue.cc` has it: `timers_` sorted by expiration, `activeTimers_` sorted by
address for `cancel`, the ids cancelled while a batch runs, and one timerfd. Timers live on a heap
that hands out addresses and takes them back, so a function may stop at an assertion or at a read or
`delete` through a dangling pointer.

Times and intervals are whole microseconds, without the bounds of `int64_t`. Every reading of the
clock is an argument.
-/

set_option autoImplicit false

namespace Netfish

open Kit

/-- Microseconds since the epoch. -/
abbrev Timestamp := Int

def Timestamp.valid (t : Timestamp) : Bool := 0 < t

def kMicroSecondsPerSecond : Int := 1000 * 1000

/-- A pointer to a `Timer`, as its number. -/
abbrev Addr := Nat

def UINTPTR_MAX : Addr := 2 ^ 64 - 1

/-! ## Timers -/

/-- The constructor's `double interval`: the microseconds that `addTime` adds for it, and the test
`interval > 0.0`, which a fraction of a microsecond passes too. -/
structure Interval where
  micros : Nat
  positive : Bool
  positive_of_micros : 0 < micros → positive = true

/-- The data members of a `Timer` but for its callback, which is user code. -/
structure Timer where
  expiration_ : Timestamp
  interval_ : Nat
  repeat_ : Bool
  sequence_ : Int
deriving DecidableEq, Repr

def addTime (timestamp : Timestamp) (interval : Nat) : Timestamp := timestamp + interval

namespace Timer

/-- The constructor; `sequence` is what `s_numCreated_.incrementAndGet()` gave. -/
def new (when : Timestamp) (interval : Interval) (sequence : Int) : Timer where
  expiration_ := when
  interval_ := interval.micros
  repeat_ := interval.positive
  sequence_ := sequence

def restart (t : Timer) (now : Timestamp) : Timer :=
  if t.repeat_ then { t with expiration_ := addTime now t.interval_ }
  else { t with expiration_ := 0 }

@[simp] theorem restart_sequence (t : Timer) (now : Timestamp) :
    (t.restart now).sequence_ = t.sequence_ := by
  unfold restart
  split <;> rfl

end Timer

/-- `(expiration, timer)`: a key of `timers_`. -/
abbrev Entry := Pair Timestamp Addr

/-- `(timer, sequence)`: a key of `activeTimers_` and `cancelingTimers_`. -/
abbrev ActiveTimer := Pair Addr Int

/-- What a user holds: a pointer that may dangle, and a sequence number. -/
structure TimerId where
  timer_ : Addr
  sequence_ : Int
deriving DecidableEq, Repr

def TimerId.key (id : TimerId) : ActiveTimer := ⟨id.timer_, id.sequence_⟩

/-! ## The timerfd -/

structure Timespec where
  tv_sec : Int
  tv_nsec : Int
deriving DecidableEq, Repr

/-- `now` is the reading of the clock inside. -/
def howMuchTimeFromNow (when now : Timestamp) : Timespec :=
  let microseconds := if when - now < 100 then 100 else when - now
  { tv_sec := microseconds.tdiv kMicroSecondsPerSecond
    tv_nsec := microseconds.tmod kMicroSecondsPerSecond * 1000 }

/-- A one-shot timer of the kernel: what it is set to, with the expiration that was asked for, and
whether it has expired since and not been read. -/
structure TimerFd where
  armed : Option (Timestamp × Timespec)
  readable : Bool
deriving DecidableEq, Repr

/-- `timerfd_settime` of a one-shot time: an earlier expiration is forgotten, and a zero time
disarms. -/
def TimerFd.settime (expiration : Timestamp) (value : Timespec) : TimerFd where
  armed := if value = ⟨0, 0⟩ then none else some (expiration, value)
  readable := false

def resetTimerfd (expiration now : Timestamp) : TimerFd :=
  .settime expiration (howMuchTimeFromNow expiration now)

/-- `::read` of the timerfd. -/
def readTimerfd (fd : TimerFd) : TimerFd := { fd with readable := false }

/-! ## The queue -/

/-- How a function of the queue can stop. -/
inductive TimerFault where
  /-- `assert(timers_.size() == activeTimers_.size())` -/
  | sizes
  /-- `assert(result.second)` -/
  | inserted
  /-- `assert(n == 1)` -/
  | erased
  /-- `assert(it == timers_.end() || now < it->first)` -/
  | lowerBound
  /-- A read or `delete` of a timer that is not there. -/
  | dangling (timer : Addr)
deriving DecidableEq, Repr

structure TimerQueue where
  /-- The live timers of the process. -/
  heap : Addr → Option Timer
  /-- `Timer::s_numCreated_`, which all queues of the process share. -/
  s_numCreated_ : Int
  timers_ : OrderedSet Entry
  callingExpiredTimers_ : Bool
  activeTimers_ : OrderedSet ActiveTimer
  cancelingTimers_ : OrderedSet ActiveTimer
  timerfd_ : TimerFd

namespace TimerQueue

def new : TimerQueue where
  heap _ := none
  s_numCreated_ := 0
  timers_ := .empty
  callingExpiredTimers_ := false
  activeTimers_ := .empty
  cancelingTimers_ := .empty
  timerfd_ := ⟨none, false⟩

/-- `*timer`. -/
def deref (q : TimerQueue) (timer : Addr) : Except TimerFault Timer :=
  match q.heap timer with
  | some t => .ok t
  | none => .error (.dangling timer)

/-- `delete timer`. -/
def delete (q : TimerQueue) (timer : Addr) : Except TimerFault TimerQueue := do
  let _ ← q.deref timer
  .ok { q with heap := Function.update q.heap timer none }

/-- `new Timer(cb, when, interval)`, at the address the allocator gave. -/
def newTimer (q : TimerQueue) (timer : Addr) (when : Timestamp) (interval : Interval) :
    TimerQueue :=
  { q with
    s_numCreated_ := q.s_numCreated_ + 1
    heap := Function.update q.heap timer (some (.new when interval (q.s_numCreated_ + 1))) }

def sameSizes (q : TimerQueue) : Except TimerFault Unit :=
  check .sizes (q.timers_.size = q.activeTimers_.size)

/-- Whether the timer became the first one. -/
def earliestChanged (q : TimerQueue) (when : Timestamp) : Bool :=
  match q.timers_.begin with
  | none => true
  | some entry => when < entry.first

def insert (q : TimerQueue) (timer : Addr) : Except TimerFault (TimerQueue × Bool) := do
  q.sameSizes
  let t ← q.deref timer
  let changed := q.earliestChanged t.expiration_
  let timers := q.timers_.insert ⟨t.expiration_, timer⟩
  check .inserted (timers.2 = true)
  let active := q.activeTimers_.insert ⟨timer, t.sequence_⟩
  check .inserted (active.2 = true)
  let q := { q with timers_ := timers.1, activeTimers_ := active.1 }
  q.sameSizes
  .ok (q, changed)

def addTimerInLoop (q : TimerQueue) (timer : Addr) (now : Timestamp) :
    Except TimerFault TimerQueue := do
  let (q, changed) ← q.insert timer
  if changed then
    let t ← q.deref timer
    .ok { q with timerfd_ := resetTimerfd t.expiration_ now }
  else .ok q

/-- The two branches of `cancelInLoop`. -/
def cancelKey (q : TimerQueue) (key : ActiveTimer) : Except TimerFault TimerQueue :=
  if key ∈ q.activeTimers_ then do
    let t ← q.deref key.first
    let timers := q.timers_.erase ⟨t.expiration_, key.first⟩
    check .erased (timers.2 = 1)
    let q ← { q with timers_ := timers.1 }.delete key.first
    .ok { q with activeTimers_ := (q.activeTimers_.erase key).1 }
  else if q.callingExpiredTimers_ then
    .ok { q with cancelingTimers_ := (q.cancelingTimers_.insert key).1 }
  else .ok q

def cancelInLoop (q : TimerQueue) (id : TimerId) : Except TimerFault TimerQueue := do
  q.sameSizes
  let q ← q.cancelKey id.key
  q.sameSizes
  .ok q

/-- The loop at the end of `getExpired`. -/
def eraseActive (q : TimerQueue) : List Entry → Except TimerFault TimerQueue
  | [] => .ok q
  | entry :: expired => do
    let t ← q.deref entry.second
    let active := q.activeTimers_.erase ⟨entry.second, t.sequence_⟩
    check .erased (active.2 = 1)
    eraseActive { q with activeTimers_ := active.1 } expired

def getExpired (q : TimerQueue) (now : Timestamp) :
    Except TimerFault (TimerQueue × List Entry) := do
  q.sameSizes
  let nowEntry : Entry := ⟨now, UINTPTR_MAX⟩
  let rest := q.timers_.onward nowEntry
  check .lowerBound (∀ entry ∈ rest.begin, now < entry.first)
  let expired := q.timers_.before nowEntry
  let q ← eraseActive { q with timers_ := rest } expired
  q.sameSizes
  .ok (q, expired)

/-- The loop of `reset`: a repeating timer that was not cancelled goes back, any other is
deleted. -/
def resetEach (q : TimerQueue) (now : Timestamp) : List Entry → Except TimerFault TimerQueue
  | [] => .ok q
  | entry :: expired => do
    let t ← q.deref entry.second
    if t.repeat_ ∧ ⟨entry.second, t.sequence_⟩ ∉ q.cancelingTimers_ then
      let q := { q with heap := Function.update q.heap entry.second (some (t.restart now)) }
      let (q, _) ← q.insert entry.second
      resetEach q now expired
    else
      let q ← q.delete entry.second
      resetEach q now expired

/-- The end of `reset`: set the timerfd for the next timer, if its time is valid. -/
def resetNext (q : TimerQueue) (clock : Timestamp) : Except TimerFault TimerQueue := do
  let nextExpire ← match q.timers_.begin with
    | some entry => do
      let t ← q.deref entry.second
      .ok t.expiration_
    | none => .ok 0
  if Timestamp.valid nextExpire then .ok { q with timerfd_ := resetTimerfd nextExpire clock }
  else .ok q

def reset (q : TimerQueue) (expired : List Entry) (now clock : Timestamp) :
    Except TimerFault TimerQueue := do
  let q ← q.resetEach now expired
  q.resetNext clock

/-- `handleRead` up to its callbacks. -/
def beginExpired (q : TimerQueue) (now : Timestamp) :
    Except TimerFault (TimerQueue × List Entry) := do
  let q := { q with timerfd_ := readTimerfd q.timerfd_ }
  let (q, expired) ← q.getExpired now
  .ok ({ q with callingExpiredTimers_ := true, cancelingTimers_ := .empty }, expired)

/-- `handleRead` from its callbacks on. -/
def endExpired (q : TimerQueue) (expired : List Entry) (now clock : Timestamp) :
    Except TimerFault TimerQueue :=
  reset { q with callingExpiredTimers_ := false } expired now clock

end TimerQueue

end Netfish

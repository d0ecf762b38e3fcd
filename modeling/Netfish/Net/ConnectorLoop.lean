import Mathlib.Logic.Function.Basic
import Netfish.Kit.BatchQueue
import Netfish.Kit.Machine
import Netfish.Net.Connector

/-!
# A connector among its threads

`connectorLoop` is the machine of a connector: its loop polls, calls the handlers of the active channels,
among them `TimerQueue::handleRead` with the retry timers that have expired, and works off its functors.
`start` and `stop` may be called by other threads and by user code in the loop's thread, the assignment
of `connect_` and what follows it being steps of their own. How long a handler takes is not limited, so
any armed timer may have expired when `handleRead` looks.

Whom `newConnectionCallback_` gives a descriptor to is the `link`: from the next poll on its handler
may find the connection closed, and may call `restart`, once for each connection.
-/

set_option autoImplicit false

namespace Netfish

open Kit

universe u

/-- A functor of the connector in the queue of its loop. -/
inductive ConnectorFunctor where
  | startInLoop
  /-- History: the descriptor of the channel it was queued for. -/
  | resetChannel (sockfd : Nat)
  /-- `TimerQueue::cancelInLoop` -/
  | cancelInLoop (timerId : Option Nat)
deriving DecidableEq, Repr

/-- Where another thread stands. -/
inductive ConnectorCall where
  | idle
  /-- In `start`, after the assignment of `connect_`. -/
  | starting
  /-- In `stop`, after the assignment of `connect_`. -/
  | stopping
deriving DecidableEq, Repr

/-- Where the thread of the loop stands. -/
inductive ConnectorPc where
  /-- Between two iterations. -/
  | idle
  /-- Between handlers; the events of the connector's channel if it is still to be handled, and whether
  `TimerQueue::handleRead` is. -/
  | handlers (active : Option Events) (timerfd : Bool)
  /-- In `handleEvent` of the connector's channel, these callbacks still to come; in
  `newConnectionCallback_` when the flag is set. -/
  | event (todo : List ChannelCallback) (inCallback timerfd : Bool)
  /-- In `TimerQueue::handleRead`, between the callbacks of the expired timers; the retry timers still
  to run, and the connector's channel if it is still to be handled. -/
  | timers (expired : List Nat) (active : Option Events)
  /-- In `doPendingFunctors`. -/
  | batch
deriving DecidableEq, Repr

/-- User code may run in the loop's thread. -/
def ConnectorPc.inUserCode : ConnectorPc → Bool
  | .event _ inCallback _ => inCallback
  | _ => true

/-- The connection made of the last descriptor given to `newConnectionCallback_`. -/
inductive Link where
  | none
  /-- Made since the last poll. -/
  | fresh
  | open
deriving DecidableEq, Repr

structure ConnectorState (T : Type u) where
  connector : Connector
  /-- The loop's thread is in `start` or `restart`, and comes to `startInLoop` next. -/
  starting : Bool
  /-- The next descriptor; no two sockets get the same one here. -/
  nextSocket : Nat
  nextTimer : Nat
  /-- The retry timers in `timers_` of the loop. -/
  timers : List Nat
  functors : BatchQueue ConnectorFunctor
  pc : ConnectorPc
  calls : T → ConnectorCall
  link : Link
  /-- History: how often `newConnectionCallback_` was called. -/
  made : Nat
  fault : Option ConnectorFault

inductive ConnectorAct (T : Type u) where
  /-- `connect_ = true` in `start`. -/
  | startSet (t : T)
  /-- `queueInLoop` of `startInLoop`. -/
  | startPush (t : T)
  /-- `connect_ = false` in `stop`. -/
  | stopSet (t : T)
  /-- `queueInLoop` of `cancelInLoop`, for a `timerId_` that the loop may have replaced since. -/
  | stopPush (t : T) (timerId : Option Nat)
  /-- `start` in the loop's thread, up to `startInLoop`. -/
  | startHere
  | startInLoop (savedErrno : ConnectErrno)
  | stopHere
  /-- `poll` has reported these events of the connector's channel, and whether the timerfd is readable. -/
  | poll (revents : Option Events) (timerfd : Bool)
  | handleEvent
  /-- With the results of `getSocketError` and `isSelfConnect` when it is the write callback. -/
  | callback (err selfConnect : Bool)
  | eventDone
  /-- The connection is closed, and its owner calls `restart` or does not. -/
  | closed (restart : Bool)
  /-- `TimerQueue::handleRead`, which finds these retry timers expired. -/
  | timerRead (expired : List Nat)
  | runTimer (savedErrno : ConnectErrno)
  | timersDone
  | beginFunctors
  /-- With the result of `sockets::connect` when it is `startInLoop`. -/
  | runFunctor (savedErrno : ConnectErrno)
  | endFunctors

namespace ConnectorState

variable {T : Type u}

def start (newConnectionCallback : Bool) : ConnectorState T where
  connector := .new newConnectionCallback
  starting := false
  nextSocket := 0
  nextTimer := 0
  timers := []
  functors := .empty
  pc := .idle
  calls _ := .idle
  link := .none
  made := 0
  fault := none

/-- What an effect does around the connector. -/
def effect (s : ConnectorState T) : ConnectorEffect → ConnectorState T
  | .socket _ => { s with nextSocket := s.nextSocket + 1 }
  | .close _ => s
  | .runAfter _ => { s with timers := s.timers ++ [s.nextTimer], nextTimer := s.nextTimer + 1 }
  | .queueResetChannel sockfd => { s with functors := s.functors.push (.resetChannel sockfd) }
  | .newConnectionCallback _ => { s with link := .fresh, made := s.made + 1 }

/-- The state after a method of the connector. -/
def after (s : ConnectorState T) (r : Except ConnectorFault (Connector × List ConnectorEffect)) :
    ConnectorState T :=
  match r with
  | .ok (connector, es) => es.foldl effect { s with connector }
  | .error fault => { s with fault := some fault }

theorem foldl_effect_starting (es : List ConnectorEffect) (s : ConnectorState T) :
    (es.foldl effect s).starting = s.starting := by
  induction es generalizing s with
  | nil => rfl
  | cons e es ih =>
    rw [List.foldl_cons, ih]
    cases e <;> rfl

@[simp] theorem after_starting (s : ConnectorState T)
    (r : Except ConnectorFault (Connector × List ConnectorEffect)) :
    (s.after r).starting = s.starting := by
  cases r with
  | ok r => exact foldl_effect_starting r.2 _
  | error fault => rfl

/-- `startInLoop`, here. -/
def startInLoop (s : ConnectorState T) (savedErrno : ConnectErrno) : ConnectorState T :=
  s.after (s.connector.startInLoop s.nextSocket savedErrno s.nextTimer)

/-- `cancelInLoop`: a timer that has expired is not in `timers_` any more, and runs. -/
def cancelInLoop (s : ConnectorState T) (timerId : Option Nat) : ConnectorState T :=
  { s with timers := s.timers.filter (some · ≠ timerId) }

/-- A callback of the connector's channel; the close and the read callback are not set. -/
def callback (s : ConnectorState T) (err selfConnect : Bool) : ChannelCallback → ConnectorState T
  | .write => s.after (s.connector.handleWrite err selfConnect s.nextTimer)
  | .error => s.after (s.connector.handleError s.nextTimer)
  | .close => s
  | .read => s

/-- What epoll may report for the connector's channel. -/
def MayReport (s : ConnectorState T) (revents : Events) : Bool :=
  s.connector.channel_.any fun c => c.channel.watched.any fun mask => mask.Reports revents

def runFunctor (s : ConnectorState T) (savedErrno : ConnectErrno) :
    ConnectorFunctor → ConnectorState T
  | .startInLoop => s.startInLoop savedErrno
  | .resetChannel _ => { s with connector := s.connector.resetChannel }
  | .cancelInLoop timerId => s.cancelInLoop timerId

def setConnect (s : ConnectorState T) (connect : Bool) : ConnectorState T :=
  { s with connector := { s.connector with connect_ := connect } }

/-- The owner of a connection that is closed calls `restart`, or does not. -/
def closed (s : ConnectorState T) (restart : Bool) : ConnectorState T :=
  if restart then { s with link := .none, connector := s.connector.restart, starting := true }
  else { s with link := .none }

/-- The steps of the loop. -/
def loopStep (s : ConnectorState T) (a : ConnectorAct T) : Option (ConnectorState T) :=
  match a, s.pc with
  | .startHere, pc => if pc.inUserCode then some { s.setConnect true with starting := true } else none
  | .stopHere, pc =>
    if pc.inUserCode then some ((s.setConnect false).cancelInLoop s.connector.timerId_) else none
  | .poll revents timerfd, .idle =>
    if revents.all s.MayReport then
      some { s with
        pc := .handlers revents timerfd
        link := if s.link = .fresh then .open else s.link }
    else none
  | .handleEvent, .handlers (some revents) timerfd =>
    some { s with pc := .event (Channel.handleEvent revents) false timerfd }
  | .callback err selfConnect, .event (callback :: todo) _ timerfd =>
    some { s.callback err selfConnect callback with
      pc := .event todo (callback = .write) timerfd }
  | .eventDone, .event [] _ timerfd => some { s with pc := .handlers none timerfd }
  | .closed restart, .handlers _ _ => if s.link = .open then some (s.closed restart) else none
  | .timerRead expired, .handlers active true =>
    if expired.Sublist s.timers then
      some { s with timers := s.timers.filter (· ∉ expired), pc := .timers expired active }
    else none
  | .runTimer savedErrno, .timers (_ :: expired) active =>
    some { s.startInLoop savedErrno with pc := .timers expired active }
  | .timersDone, .timers [] active => some { s with pc := .handlers active false }
  | .beginFunctors, .handlers none false =>
    some { s with pc := .batch, functors := s.functors.swap }
  | .runFunctor savedErrno, .batch =>
    s.functors.next.map fun (f, rest) => { s with functors := rest }.runFunctor savedErrno f
  | .endFunctors, .batch =>
    if s.functors.batch = [] then some { s with pc := .idle } else none
  | _, _ => none

variable [DecidableEq T]

def setCall (s : ConnectorState T) (t : T) (call : ConnectorCall) : ConnectorState T :=
  { s with calls := Function.update s.calls t call }

def step (s : ConnectorState T) (a : ConnectorAct T) : Option (ConnectorState T) :=
  if s.fault.isSome then none
  else match a with
    | .startSet t =>
      if s.calls t = .idle then some ((s.setConnect true).setCall t .starting) else none
    | .startPush t =>
      if s.calls t = .starting then
        some { s.setCall t .idle with functors := s.functors.push .startInLoop }
      else none
    | .stopSet t =>
      if s.calls t = .idle then some ((s.setConnect false).setCall t .stopping) else none
    | .stopPush t timerId =>
      if s.calls t = .stopping ∧ timerId.all (· < s.nextTimer) then
        some { s.setCall t .idle with functors := s.functors.push (.cancelInLoop timerId) }
      else none
    | .startInLoop savedErrno =>
      if s.starting then some { s.startInLoop savedErrno with starting := false } else none
    | _ => if s.starting then none else s.loopStep a

/-- What a step does. -/
inductive Moves (s : ConnectorState T) : ConnectorAct T → ConnectorState T → Prop
  | startSet {t : T} (hcall : s.calls t = .idle) :
      Moves s (.startSet t) ((s.setConnect true).setCall t .starting)
  | startPush {t : T} (hcall : s.calls t = .starting) :
      Moves s (.startPush t) { s.setCall t .idle with functors := s.functors.push .startInLoop }
  | stopSet {t : T} (hcall : s.calls t = .idle) :
      Moves s (.stopSet t) ((s.setConnect false).setCall t .stopping)
  | stopPush {t : T} {timerId : Option Nat} (hcall : s.calls t = .stopping) :
      Moves s (.stopPush t timerId)
        { s.setCall t .idle with functors := s.functors.push (.cancelInLoop timerId) }
  | startInLoop {e : ConnectErrno} (hstart : s.starting = true) :
      Moves s (.startInLoop e) { s.startInLoop e with starting := false }
  | startHere (hstart : s.starting = false) (hpc : s.pc.inUserCode = true) :
      Moves s .startHere { s.setConnect true with starting := true }
  | stopHere (hstart : s.starting = false) :
      Moves s .stopHere ((s.setConnect false).cancelInLoop s.connector.timerId_)
  | poll {revents : Option Events} {timerfd : Bool} (hstart : s.starting = false) (hpc : s.pc = .idle)
      (hrep : revents.all s.MayReport = true) : Moves s (.poll revents timerfd)
        { s with
          pc := .handlers revents timerfd
          link := if s.link = .fresh then .open else s.link }
  | handleEvent {revents : Events} {timerfd : Bool} (hstart : s.starting = false)
      (hpc : s.pc = .handlers (some revents) timerfd) : Moves s .handleEvent
        { s with pc := .event (Channel.handleEvent revents) false timerfd }
  | callback {err selfConnect inCallback timerfd : Bool} {callback : ChannelCallback}
      {todo : List ChannelCallback} (hstart : s.starting = false)
      (hpc : s.pc = .event (callback :: todo) inCallback timerfd) :
      Moves s (.callback err selfConnect)
        { s.callback err selfConnect callback with pc := .event todo (callback = .write) timerfd }
  | eventDone {inCallback timerfd : Bool} (hstart : s.starting = false)
      (hpc : s.pc = .event [] inCallback timerfd) :
      Moves s .eventDone { s with pc := .handlers none timerfd }
  | closed {restart : Bool} {active : Option Events} {timerfd : Bool} (hstart : s.starting = false)
      (hpc : s.pc = .handlers active timerfd) (hlink : s.link = .open) :
      Moves s (.closed restart) (s.closed restart)
  | timerRead {expired : List Nat} {active : Option Events} (hstart : s.starting = false)
      (hpc : s.pc = .handlers active true) (hsub : expired.Sublist s.timers) :
      Moves s (.timerRead expired)
        { s with timers := s.timers.filter (· ∉ expired), pc := .timers expired active }
  | runTimer {e : ConnectErrno} {timer : Nat} {expired : List Nat} {active : Option Events}
      (hstart : s.starting = false) (hpc : s.pc = .timers (timer :: expired) active) :
      Moves s (.runTimer e) { s.startInLoop e with pc := .timers expired active }
  | timersDone {active : Option Events} (hstart : s.starting = false) (hpc : s.pc = .timers [] active) :
      Moves s .timersDone { s with pc := .handlers active false }
  | beginFunctors (hstart : s.starting = false) (hpc : s.pc = .handlers none false) :
      Moves s .beginFunctors { s with pc := .batch, functors := s.functors.swap }
  | runFunctor {e : ConnectErrno} {f : ConnectorFunctor} {rest : BatchQueue ConnectorFunctor}
      (hstart : s.starting = false) (hpc : s.pc = .batch) (hnext : s.functors.next = some (f, rest)) :
      Moves s (.runFunctor e) ({ s with functors := rest }.runFunctor e f)
  | endFunctors (hstart : s.starting = false) (hpc : s.pc = .batch) (hbatch : s.functors.batch = []) :
      Moves s .endFunctors { s with pc := .idle }

variable {s s' : ConnectorState T} {a : ConnectorAct T}

theorem loopStep_moves (hstart : s.starting = false) (hs : s.loopStep a = some s') : s.Moves a s' := by
  unfold loopStep at hs
  split at hs
  · split at hs
    · next hpc =>
      cases hs
      exact .startHere hstart hpc
    · cases hs
  · split at hs
    · cases hs
      exact .stopHere hstart
    · cases hs
  · next hpc =>
    split at hs
    · next hrep =>
      cases hs
      exact .poll hstart hpc hrep
    · cases hs
  · next hpc => cases hs; exact .handleEvent hstart hpc
  · next hpc => cases hs; exact .callback hstart hpc
  · next hpc => cases hs; exact .eventDone hstart hpc
  · next hpc =>
    split at hs
    · next hlink =>
      cases hs
      exact .closed hstart hpc hlink
    · cases hs
  · next hpc =>
    split at hs
    · next hsub =>
      cases hs
      exact .timerRead hstart hpc hsub
    · cases hs
  · next hpc => cases hs; exact .runTimer hstart hpc
  · next hpc => cases hs; exact .timersDone hstart hpc
  · next hpc => cases hs; exact .beginFunctors hstart hpc
  · next hpc =>
    obtain ⟨⟨f, rest⟩, hnext, rfl⟩ := Option.map_eq_some_iff.mp hs
    exact .runFunctor hstart hpc hnext
  · next hpc =>
    split at hs
    · next hbatch =>
      cases hs
      exact .endFunctors hstart hpc hbatch
    · cases hs
  · cases hs

/-- The inversion of a step. -/
theorem step_moves (hs : s.step a = some s') : s.fault = none ∧ s.Moves a s' := by
  unfold step at hs
  split at hs
  · cases hs
  · next hfault =>
    refine ⟨by simpa using hfault, ?_⟩
    split at hs
    · split at hs
      · next hcall => cases hs; exact .startSet hcall
      · cases hs
    · split at hs
      · next hcall => cases hs; exact .startPush hcall
      · cases hs
    · split at hs
      · next hcall => cases hs; exact .stopSet hcall
      · cases hs
    · split at hs
      · next hcall => cases hs; exact .stopPush hcall.1
      · cases hs
    · split at hs
      · next hstart => cases hs; exact .startInLoop hstart
      · cases hs
    · split at hs
      · cases hs
      · next hstart => exact loopStep_moves (by simpa using hstart) hs

end ConnectorState

/-- A connector among its threads. -/
def connectorLoop (T : Type u) [DecidableEq T] : Machine (ConnectorState T) (ConnectorAct T) where
  init s := ∃ newConnectionCallback, s = .start newConnectionCallback
  step := ConnectorState.step

end Netfish

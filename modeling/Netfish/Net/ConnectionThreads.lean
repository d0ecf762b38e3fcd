import Mathlib.Logic.Function.Basic
import Netfish.Kit.BatchQueue
import Netfish.Kit.Machine
import Netfish.Net.TcpConnection

/-!
# A connection among its threads

`tcpConnection` is the machine of one connection: its loop's thread and any number of others call
`send` and `shutdown`, the test of `state_`, the assignment and the queueing being steps of their
own; the loop polls, calls the channel's callbacks and works off its functors in batches; the owner
answers a close with `connectDestroyed`. What else the loop does shows only as user code, which calls
`send` and `shutdown` in the loop's thread.

A caller is `some t`, another thread, or `none`, user code in the loop's thread. The histories record
the bytes the kernel took, the messages accepted and run, and what the kernel had at each
`shutdownWrite`.
-/

set_option autoImplicit false

namespace Netfish

open Kit

universe u

/-- A functor of this connection in the queue of its loop. -/
inductive ConnFunctor (T : Type u) where
  /-- With the thread whose `send` queued it. -/
  | sendInLoop (t : T) (message : List UInt8)
  | shutdownInLoop
  | writeComplete
  | connectDestroyed
deriving DecidableEq, Repr

/-- Where a caller stands. -/
inductive CallerPc where
  | idle
  /-- In `send`, after the test of `state_`. -/
  | sending (message : List UInt8)
  /-- In `shutdown`, after the test of `state_`. -/
  | shutting
  /-- In `shutdown`, after `setState(kDisconnecting)`. -/
  | shut
deriving DecidableEq, Repr

/-- Where the loop thread stands, as far as this connection goes. -/
inductive ConnPc where
  /-- In `poll`, or in code that does not concern the connection. -/
  | idle
  /-- `poll` has reported these events, and the handlers of other channels may come first. -/
  | active (revents : Events)
  /-- In `handleEvent`, these callbacks still to come; in `messageCallback_` when the flag is set. -/
  | event (todo : List ChannelCallback) (inMessage : Bool)
  /-- In `doPendingFunctors`. -/
  | batch
  /-- In `connectDestroyed`, inside `connectionCallback_`. -/
  | destroying
deriving DecidableEq, Repr

/-- User code may run in the loop's thread. -/
def ConnPc.inUserCode : ConnPc → Bool
  | .event _ inMessage => inMessage
  | _ => true

structure ConnState (T : Type u) where
  conn : TcpConnection
  functors : BatchQueue (ConnFunctor T)
  pc : ConnPc
  calls : Option T → CallerPc
  /-- The owner has still to call `connectEstablished`. -/
  fresh : Bool
  /-- The `closeCallback_` calls the owner has not answered with `connectDestroyed`. -/
  removals : Nat
  fault : Option ConnFault
  /-- History: the bytes the kernel took. -/
  wire : List UInt8
  /-- History: the messages `sendInLoop` ran for, with their callers. -/
  ran : List (Option T × List UInt8)
  /-- History: the messages of each caller that passed the test in `send`. -/
  accepted : Option T → List (List UInt8)
  /-- History: at each `shutdownWrite`, the messages that had run and the bytes the kernel had. -/
  shutdowns : List (List (Option T × List UInt8) × List UInt8)

inductive ConnAct (T : Type u) where
  | sendTest (o : Option T) (message : List UInt8)
  /-- `queueInLoop` of `sendInLoop`. -/
  | sendPush (t : T)
  /-- `sendInLoop` at once, in the loop's thread. -/
  | sendHere (w : WriteResult)
  | shutTest (o : Option T)
  | shutSet (o : Option T)
  | shutPush (t : T)
  | shutHere
  | connectEstablished
  | poll (revents : Events)
  | handleEvent
  | callClose
  | callError
  | callRead (r : ReadResult)
  | callWrite (w : WriteResult)
  | eventDone
  | queueDestroyed
  | beginFunctors
  /-- The write result counts when the functor is a `sendInLoop`. -/
  | runFunctor (w : WriteResult)
  | endDestroyed
  | endFunctors

namespace ConnState

variable {T : Type u}

def start (messageCallback writeCompleteCallback : Bool) : ConnState T where
  conn := .new messageCallback writeCompleteCallback
  functors := .empty
  pc := .idle
  calls _ := .idle
  fresh := true
  removals := 0
  fault := none
  wire := []
  ran := []
  accepted _ := []
  shutdowns := []

/-- What an effect does around the connection. -/
def effect (s : ConnState T) : ConnEffect → ConnState T
  | .write bytes => { s with wire := s.wire ++ bytes }
  | .queueWriteComplete => { s with functors := s.functors.push .writeComplete }
  | .shutdownWrite => { s with shutdowns := s.shutdowns ++ [(s.ran, s.wire)] }
  | .closeCallback => { s with removals := s.removals + 1 }
  | .messageCallback => s
  | .connectionCallback => s

def perform (s : ConnState T) (es : List ConnEffect) : ConnState T := es.foldl effect s

/-- The state after a method of the connection. -/
def after (s : ConnState T) (r : Except ConnFault (TcpConnection × List ConnEffect))
    (f : ConnState T → ConnState T) : ConnState T :=
  match r with
  | .ok (conn, es) => f ({ s with conn }.perform es)
  | .error fault => { s with fault := some fault }

/-- `sendInLoop` ran for this message. -/
def record (s : ConnState T) (o : Option T) (message : List UInt8) : ConnState T :=
  { s with ran := s.ran ++ [(o, message)] }

variable [DecidableEq T]

def setCall (s : ConnState T) (o : Option T) (pc : CallerPc) : ConnState T :=
  { s with calls := Function.update s.calls o pc }

/-- The caller is outside `send` and `shutdown` and may call. -/
def MayCall (s : ConnState T) (o : Option T) : Prop :=
  s.calls o = .idle ∧ (o = none → s.pc.inUserCode = true)

instance (s : ConnState T) (o : Option T) : Decidable (s.MayCall o) :=
  inferInstanceAs (Decidable (_ ∧ _))

/-- The steps of `send` and `shutdown`. -/
def callStep (s : ConnState T) : ConnAct T → Option (ConnState T)
  | .sendTest o message =>
    if s.MayCall o then
      some (if s.conn.state_ = .kConnected then
        { s.setCall o (.sending message) with
          accepted := Function.update s.accepted o (s.accepted o ++ [message]) } else s)
    else none
  | .sendPush t =>
    match s.calls (some t) with
    | .sending message =>
      some { s.setCall (some t) .idle with functors := s.functors.push (.sendInLoop t message) }
    | _ => none
  | .sendHere w =>
    match s.calls none with
    | .sending message =>
      if w.Within message.length then
        some (s.after (s.conn.sendInLoop message w) fun s =>
          (s.setCall none .idle).record none message)
      else none
    | _ => none
  | .shutTest o =>
    if s.MayCall o then
      some (if s.conn.state_ = .kConnected then s.setCall o .shutting else s)
    else none
  | .shutSet o =>
    if s.calls o = .shutting then
      some { s.setCall o .shut with conn := { s.conn with state_ := .kDisconnecting } }
    else none
  | .shutPush t =>
    if s.calls (some t) = .shut then
      some { s.setCall (some t) .idle with functors := s.functors.push .shutdownInLoop }
    else none
  | .shutHere =>
    if s.calls none = .shut then
      some ((s.setCall none .idle).perform s.conn.shutdownInLoop)
    else none
  | _ => none

/-- One functor of the batch. -/
def runFunctor (s : ConnState T) (w : WriteResult) : ConnFunctor T → Option (ConnState T)
  | .sendInLoop t message =>
    if w.Within message.length then
      some (s.after (s.conn.sendInLoop message w) fun s => s.record (some t) message)
    else none
  | .shutdownInLoop => some (s.perform s.conn.shutdownInLoop)
  | .writeComplete => some s
  | .connectDestroyed =>
    some (s.after s.conn.beginDestroyed fun s => { s with pc := .destroying })

/-- The steps of the loop. -/
def loopStep (s : ConnState T) (a : ConnAct T) : Option (ConnState T) :=
  match a, s.pc with
  | .connectEstablished, .idle | .connectEstablished, .batch =>
    if s.fresh then some (s.after s.conn.connectEstablished fun s => { s with fresh := false })
    else none
  | .poll revents, .idle =>
    match s.conn.channel_.watched with
    | some mask => if mask.Reports revents then some { s with pc := .active revents } else none
    | none => none
  | .handleEvent, .active revents => some { s with pc := .event (Channel.handleEvent revents) false }
  | .callClose, .event (.close :: todo) _ =>
    some (s.after s.conn.handleClose fun s => { s with pc := .event todo false })
  | .callError, .event (.error :: todo) _ =>
    some (s.after s.conn.handleError fun s => { s with pc := .event todo false })
  | .callRead r, .event (.read :: todo) _ =>
    some (s.after (s.conn.handleRead r) fun s =>
      { s with pc := .event todo (r = .data && s.conn.messageCallback_) })
  | .callWrite w, .event (.write :: todo) _ =>
    if w.Within s.conn.outputBuffer_.length then
      some (s.after (s.conn.handleWrite w) fun s => { s with pc := .event todo false })
    else none
  | .eventDone, .event [] _ => some { s with pc := .idle }
  | .beginFunctors, .idle => some { s with pc := .batch, functors := s.functors.swap }
  | .runFunctor w, .batch =>
    s.functors.next.bind fun (f, rest) => runFunctor { s with functors := rest } w f
  | .endDestroyed, .destroying =>
    some (s.after (s.conn.endDestroyed.map (·, [])) fun s => { s with pc := .batch })
  | .endFunctors, .batch =>
    if s.functors.batch = [] then some { s with pc := .idle } else none
  | _, _ => none

def step (s : ConnState T) (a : ConnAct T) : Option (ConnState T) :=
  if s.fault.isSome then none
  else match a with
    | .sendTest .. | .sendPush _ | .sendHere _ | .shutTest _ | .shutSet _ | .shutPush _ | .shutHere =>
      s.callStep a
    | .queueDestroyed =>
      -- the owner, in its own thread or in this one
      if 0 < s.removals then
        some { s with removals := s.removals - 1, functors := s.functors.push .connectDestroyed }
      else none
    -- the loop goes on when the call of its user code has returned
    | _ => if s.calls none = .idle then s.loopStep a else none

end ConnState

/-- A connection among its threads. -/
def tcpConnection (T : Type u) [DecidableEq T] : Machine (ConnState T) (ConnAct T) where
  init s := ∃ messageCallback writeCompleteCallback, s = .start messageCallback writeCompleteCallback
  step := ConnState.step

end Netfish

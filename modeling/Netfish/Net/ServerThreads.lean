import Netfish.Kit.BatchQueue
import Netfish.Kit.Machine
import Netfish.Net.TcpServer

/-!
# A server among its loops

`tcpServer` is the machine of a server, its loops and its callers. Each loop polls, dispatches the
active channels of its connections one after another, and works off its functors in batches. A
caller is another thread or user code in the thread of a loop, and calls `send` and `shutdown` on any
connection, the test of `state_`, the assignment and what `runInLoop` does being steps of their own.

What a connection writes is not kept here. Histories count the calls of `closeCallback_` and of
`connectDestroyed`.
-/

set_option autoImplicit false

namespace Netfish

open Kit

universe u v

/-- A functor in the queue of a loop; the number is the connection. -/
inductive ServerFunctor where
  | connectEstablished (c : Nat)
  | sendInLoop (c : Nat) (message : List UInt8)
  | shutdownInLoop (c : Nat)
  | writeComplete (c : Nat)
  /-- Of the server, in the queue of its own loop. -/
  | removeConnectionInLoop (c : Nat)
  | connectDestroyed (c : Nat)
deriving DecidableEq, Repr

/-- The connection a functor is about. -/
def ServerFunctor.conn : ServerFunctor → Nat
  | .connectEstablished c => c
  | .sendInLoop c _ => c
  | .shutdownInLoop c => c
  | .writeComplete c => c
  | .removeConnectionInLoop c => c
  | .connectDestroyed c => c

inductive Caller (T : Type u) (L : Type v) where
  | thread (t : T)
  /-- User code in the thread of the loop. -/
  | loop (l : L)
deriving DecidableEq, Repr

/-- Where a caller stands. -/
inductive ServerCall where
  | idle
  /-- In `send`, after the test of `state_`. -/
  | sending (c : Nat) (message : List UInt8)
  /-- In `shutdown`, after the test of `state_`. -/
  | shutting (c : Nat)
  /-- In `shutdown`, after `setState(kDisconnecting)`. -/
  | shut (c : Nat)
deriving DecidableEq, Repr

/-- Where the thread of a loop stands. -/
inductive IoLoopPc where
  /-- Before `poll`. -/
  | idle
  /-- Between handlers, or in one of a channel that is no connection's; the active channels of
  connections still to come, with their events. -/
  | handlers (active : List (Nat × Events))
  /-- In `handleEvent` of a connection with `revents_`, these callbacks still to come; in
  `messageCallback_` when the flag is set. -/
  | event (c : Nat) (revents : Events) (todo : List ChannelCallback) (inMessage : Bool)
      (active : List (Nat × Events))
  /-- In `doPendingFunctors`. -/
  | batch
  /-- In `connectDestroyed`, inside `connectionCallback_`. -/
  | destroying (c : Nat)
deriving DecidableEq, Repr

/-- User code may run in the thread of the loop. -/
def IoLoopPc.inUserCode : IoLoopPc → Bool
  | .idle => false
  | .event _ _ _ inMessage _ => inMessage
  | _ => true

inductive ServerFault where
  | conn (fault : ConnFault)
  /-- `assert(n == 1)` in `removeConnectionInLoop` -/
  | erase
deriving DecidableEq, Repr

structure ServerState (T : Type u) (L : Type v) where
  server : TcpServer L
  conns : Nat → Option (ServerConn L)
  functors : L → BatchQueue ServerFunctor
  pcs : L → IoLoopPc
  calls : Caller T L → ServerCall
  fault : Option ServerFault
  /-- History: how often `closeCallback_` of a connection was called. -/
  closes : Nat → Nat
  /-- History: how often `connectDestroyed` of a connection was called. -/
  destroys : Nat → Nat

/-- A step of the thread of a loop. -/
inductive IoLoopStep where
  | poll (active : List (Nat × Events))
  | handleEvent
  | callClose
  | callError
  | callRead (r : ReadResult)
  | callWrite (w : WriteResult)
  | eventDone
  | beginFunctors
  /-- The write result counts when the functor is a `sendInLoop`. -/
  | runFunctor (w : WriteResult)
  | endDestroyed
  | endFunctors

inductive ServerAct (T : Type u) (L : Type v) where
  /-- The acceptor has a connection. -/
  | newConnection
  | sendTest (o : Caller T L) (c : Nat) (message : List UInt8)
  /-- `runInLoop` of `sendInLoop`; the write result counts when it runs at once. -/
  | sendRun (o : Caller T L) (w : WriteResult)
  | shutTest (o : Caller T L) (c : Nat)
  | shutSet (o : Caller T L)
  /-- `runInLoop` of `shutdownInLoop`. -/
  | shutRun (o : Caller T L)
  | loop (l : L) (a : IoLoopStep)

namespace ServerState

variable {T : Type u} {L : Type v}

/-- Before the first poll. -/
def start (server : TcpServer L) : ServerState T L where
  server
  conns _ := none
  functors _ := .empty
  pcs _ := .idle
  calls _ := .idle
  fault := none
  closes _ := 0
  destroys _ := 0

/-- What epoll may report for a channel of the loop. -/
def MayReport [DecidableEq L] (s : ServerState T L) (l : L) (p : Nat × Events) : Bool :=
  (s.conns p.1).any fun sc =>
    sc.loop_ = l && sc.conn.channel_.watched.any fun mask => mask.Reports p.2

/-- `closeCallback_` of the connection is called. -/
def countClose (s : ServerState T L) (c : Nat) : ServerState T L :=
  { s with closes := Function.update s.closes c (s.closes c + 1) }

/-- `connectDestroyed` of the connection is called. -/
def countDestroy (s : ServerState T L) (c : Nat) : ServerState T L :=
  { s with destroys := Function.update s.destroys c (s.destroys c + 1) }

variable [DecidableEq L]

def setConn (s : ServerState T L) (c : Nat) (sc : ServerConn L) : ServerState T L :=
  { s with conns := Function.update s.conns c (some sc) }

def setPc (s : ServerState T L) (l : L) (pc : IoLoopPc) : ServerState T L :=
  { s with pcs := Function.update s.pcs l pc }

/-- `queueInLoop`. -/
def queueInLoop (s : ServerState T L) (l : L) (f : ServerFunctor) : ServerState T L :=
  { s with functors := Function.update s.functors l ((s.functors l).push f) }

def removeConnectionInLoop (s : ServerState T L) (c : Nat) (sc : ServerConn L) :
    ServerState T L :=
  let (n, server) := s.server.erase sc.name_
  if n = 1 then { s with server }.queueInLoop sc.loop_ (.connectDestroyed c)
  else { s with server, fault := some .erase }

/-- `removeConnection`, which is called in the thread of the connection's loop. -/
def removeConnection (s : ServerState T L) (c : Nat) (sc : ServerConn L) : ServerState T L :=
  if sc.loop_ = s.server.loop_ then s.removeConnectionInLoop c sc
  else s.queueInLoop s.server.loop_ (.removeConnectionInLoop c)

/-- What an effect of a connection does around it. -/
def effect (c : Nat) (sc : ServerConn L) (s : ServerState T L) : ConnEffect → ServerState T L
  | .queueWriteComplete => s.queueInLoop sc.loop_ (.writeComplete c)
  | .closeCallback => (s.countClose c).removeConnection c sc
  | .write _ => s
  | .shutdownWrite => s
  | .messageCallback => s
  | .connectionCallback => s

/-- The state after a method of the connection. -/
def after (s : ServerState T L) (c : Nat) (sc : ServerConn L)
    (r : Except ConnFault (TcpConnection × List ConnEffect))
    (f : ServerState T L → ServerState T L) : ServerState T L :=
  match r with
  | .ok (conn, es) => f (es.foldl (effect c sc) (s.setConn c { sc with conn }))
  | .error fault => { s with fault := some (.conn fault) }

/-- `newConnection`, in the thread of the server's loop. -/
def newConnection (s : ServerState T L) : ServerState T L :=
  let c := s.server.nextConnId_
  let (sc, server) := s.server.newConnection
  let s := { s with server }.setConn c sc
  if sc.loop_ = server.loop_ then s.after c sc sc.conn.connectEstablished id
  else s.queueInLoop sc.loop_ (.connectEstablished c)

/-- One functor of the batch of the loop. -/
def runFunctor (s : ServerState T L) (l : L) (w : WriteResult) (sc : ServerConn L) :
    ServerFunctor → Option (ServerState T L)
  | .connectEstablished c => some (s.after c sc sc.conn.connectEstablished id)
  | .sendInLoop c message =>
    if w.Within message.length then some (s.after c sc (sc.conn.sendInLoop message w) id)
    else none
  | .shutdownInLoop c => some (s.after c sc (.ok (sc.conn, sc.conn.shutdownInLoop)) id)
  | .writeComplete _ => some s
  | .removeConnectionInLoop c => some (s.removeConnectionInLoop c sc)
  | .connectDestroyed c =>
    some ((s.countDestroy c).after c sc sc.conn.beginDestroyed (·.setPc l (.destroying c)))

/-- A step of the thread of the loop. -/
def loopStep (s : ServerState T L) (l : L) (a : IoLoopStep) : Option (ServerState T L) :=
  match a, s.pcs l with
  | .poll active, .idle =>
    if (active.map Prod.fst).Nodup ∧ active.all (s.MayReport l) then
      some (s.setPc l (.handlers active))
    else none
  | .handleEvent, .handlers ((c, revents) :: active) =>
    some (s.setPc l (.event c revents (Channel.handleEvent revents) false active))
  | .callClose, .event c revents (.close :: todo) _ active =>
    (s.conns c).map fun sc => s.after c sc sc.conn.handleClose
      (·.setPc l (.event c revents todo false active))
  | .callError, .event c revents (.error :: todo) _ active =>
    (s.conns c).map fun sc => s.after c sc sc.conn.handleError
      (·.setPc l (.event c revents todo false active))
  | .callRead r, .event c revents (.read :: todo) _ active =>
    (s.conns c).map fun sc => s.after c sc (sc.conn.handleRead r)
      (·.setPc l (.event c revents todo (r = .data && sc.conn.messageCallback_) active))
  | .callWrite w, .event c revents (.write :: todo) _ active =>
    (s.conns c).bind fun sc =>
      if w.Within sc.conn.outputBuffer_.length then
        some (s.after c sc (sc.conn.handleWrite w)
          (·.setPc l (.event c revents todo false active)))
      else none
  | .eventDone, .event _ _ [] _ active => some (s.setPc l (.handlers active))
  | .beginFunctors, .handlers [] =>
    some ({ s with functors := Function.update s.functors l (s.functors l).swap }.setPc l .batch)
  | .runFunctor w, .batch =>
    (s.functors l).next.bind fun (f, rest) => (s.conns f.conn).bind fun sc =>
      { s with functors := Function.update s.functors l rest }.runFunctor l w sc f
  | .endDestroyed, .destroying c =>
    (s.conns c).map fun sc => s.after c sc (sc.conn.endDestroyed.map (·, [])) (·.setPc l .batch)
  | .endFunctors, .batch =>
    if (s.functors l).batch = [] then some (s.setPc l .idle) else none
  | _, _ => none

variable [DecidableEq T]

def setCall (s : ServerState T L) (o : Caller T L) (call : ServerCall) : ServerState T L :=
  { s with calls := Function.update s.calls o call }

/-- The caller is outside `send` and `shutdown` and may call. -/
def MayCall (s : ServerState T L) (o : Caller T L) : Bool :=
  s.calls o = .idle && match o with
    | .thread _ => true
    | .loop l => (s.pcs l).inUserCode

/-- `runInLoop` of `sendInLoop`. -/
def sendRun (s : ServerState T L) (o : Caller T L) (w : WriteResult) (c : Nat)
    (message : List UInt8) (sc : ServerConn L) : Option (ServerState T L) :=
  if o = .loop sc.loop_ then
    if w.Within message.length then
      some (s.after c sc (sc.conn.sendInLoop message w) (·.setCall o .idle))
    else none
  else some ((s.queueInLoop sc.loop_ (.sendInLoop c message)).setCall o .idle)

/-- `runInLoop` of `shutdownInLoop`. -/
def shutRun (s : ServerState T L) (o : Caller T L) (c : Nat) (sc : ServerConn L) :
    ServerState T L :=
  if o = .loop sc.loop_ then
    s.after c sc (.ok (sc.conn, sc.conn.shutdownInLoop)) (·.setCall o .idle)
  else (s.queueInLoop sc.loop_ (.shutdownInLoop c)).setCall o .idle

def step (s : ServerState T L) (a : ServerAct T L) : Option (ServerState T L) :=
  if s.fault.isSome then none
  else match a with
    | .newConnection =>
      -- in the acceptor's handler
      match s.pcs s.server.loop_ with
      | .handlers _ =>
        if s.calls (.loop s.server.loop_) = .idle then some s.newConnection else none
      | _ => none
    | .sendTest o c message =>
      if s.MayCall o then
        (s.conns c).map fun sc =>
          if sc.conn.state_ = .kConnected then s.setCall o (.sending c message) else s
      else none
    | .sendRun o w =>
      match s.calls o with
      | .sending c message => (s.conns c).bind (s.sendRun o w c message)
      | _ => none
    | .shutTest o c =>
      if s.MayCall o then
        (s.conns c).map fun sc =>
          if sc.conn.state_ = .kConnected then s.setCall o (.shutting c) else s
      else none
    | .shutSet o =>
      match s.calls o with
      | .shutting c => (s.conns c).map fun sc =>
        (s.setConn c { sc with conn := { sc.conn with state_ := .kDisconnecting } }).setCall o
          (.shut c)
      | _ => none
    | .shutRun o =>
      match s.calls o with
      | .shut c => (s.conns c).map (s.shutRun o c)
      | _ => none
    -- the loop goes on when the call of its user code has returned
    | .loop l a => if s.calls (.loop l) = .idle then s.loopStep l a else none

end ServerState

/-- A server among its loops; at the start its threads run and no connection was accepted. -/
def tcpServer (T : Type u) (L : Type v) [DecidableEq T] [DecidableEq L] :
    Machine (ServerState T L) (ServerAct T L) where
  init s := ∃ loop name messageCallback writeCompleteCallback numThreads startLoop server,
    ((TcpServer.new loop name messageCallback writeCompleteCallback).setThreadNum
      numThreads).start startLoop = .ok server ∧ s = .start server
  step := ServerState.step

end Netfish

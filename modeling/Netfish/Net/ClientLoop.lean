import Netfish.Net.ConnectorSteady
import Netfish.Net.TcpClient

/-!
# A client among its threads

`tcpClient` is the machine of a client, its connector and its connections, all in one loop. The connector
moves as in `connectorLoop`; a `handleWrite` of it that calls `newConnectionCallback_` goes on with
`newConnection`. The loop calls the handlers of the active connections, the connector's and
`TimerQueue::handleRead` in any order. `removeConnection` is three steps: what it does under its lock, the
test of `retry_` and `connect_`, and `restart`.

A caller is another thread, or user code in the loop's thread (`none`). It calls `connect`, `stop` and
`disconnect`, and `send` and `shutdown` of any connection. The functors of the connector are in a queue of
their own beside that of the client, so the two may be worked off in any interleaving.
-/

set_option autoImplicit false

namespace Netfish

open Kit

universe u

/-- A functor of the client's connections in the queue of the loop; the number is the connection. -/
inductive ClientFunctor where
  | sendInLoop (c : Nat) (message : List UInt8)
  | shutdownInLoop (c : Nat)
  | writeComplete (c : Nat)
  | connectDestroyed (c : Nat)
deriving DecidableEq, Repr

/-- The connection a functor is about. -/
def ClientFunctor.conn : ClientFunctor → Nat
  | .sendInLoop c _ => c
  | .shutdownInLoop c => c
  | .writeComplete c => c
  | .connectDestroyed c => c

/-- Where a caller stands. -/
inductive ClientCall where
  | idle
  /-- In `connect`, after the assignment of `connect_`. -/
  | connecting
  /-- In `stop`, after the assignment of `connect_`. -/
  | stopping
  /-- In `disconnect`, after the assignment of `connect_`. -/
  | disconnecting
  /-- In `send`, after the test of `state_`. -/
  | sending (c : Nat) (message : List UInt8)
  /-- In `shutdown`, after the test of `state_`. -/
  | shutting (c : Nat)
  /-- In `shutdown`, after `setState(kDisconnecting)`. -/
  | shut (c : Nat)
deriving DecidableEq, Repr

/-- Where `handleEvent` of a connection stands. -/
inductive EventPlace where
  /-- Between its callbacks. -/
  | between
  /-- In `messageCallback_`. -/
  | inMessage
  /-- In `removeConnection`, after the lock. -/
  | removing
  /-- In `removeConnection`, before `restart`. -/
  | restarting
deriving DecidableEq, Repr

/-- What the loop's thread does with the client's connections. -/
inductive ClientPc where
  | free
  /-- In `handleEvent` of the connection, these callbacks still to come. -/
  | event (c : Nat) (todo : List ChannelCallback) (place : EventPlace)
  /-- In `connectDestroyed` of the connection, inside `connectionCallback_`. -/
  | destroying (c : Nat)
deriving DecidableEq, Repr

/-- User code may run in the loop's thread. -/
def ClientPc.inUserCode : ClientPc → Bool
  | .free => true
  | .event _ _ place => place = .inMessage
  | .destroying _ => true

structure ClientState (T : Type u) where
  loop : ConnectorState T
  client : TcpClient
  conns : Nat → Option TcpConnection
  /-- The active channels of connections still to be handled, with their events. -/
  active : List (Nat × Events)
  functors : BatchQueue ClientFunctor
  pc : ClientPc
  calls : Option T → ClientCall
  /-- History: the calls of `connectionCallback_`, and whether `connected()` was true. -/
  log : List (Nat × Bool)
  fault : Option ClientFault

inductive ClientAct (T : Type u) where
  | enableRetry
  /-- `connect_ = true` in `connect`. -/
  | connectSet (o : Option T)
  /-- `connector_->start()`: the assignment in it. -/
  | connectStart (o : Option T)
  /-- `connect_ = false` in `stop`. -/
  | stopSet (o : Option T)
  /-- `connector_->stop()`: the assignment in it. -/
  | stopStop (o : Option T)
  /-- `connect_ = false` in `disconnect`. -/
  | disconnectSet (o : Option T)
  /-- The test of `connection_` in `disconnect`, and that of `state_` in `shutdown`. -/
  | disconnectTest (o : Option T)
  | sendTest (o : Option T) (c : Nat) (message : List UInt8)
  /-- `runInLoop` of `sendInLoop`; the write result counts when it runs at once. -/
  | sendRun (o : Option T) (w : WriteResult)
  | shutTest (o : Option T) (c : Nat)
  | shutSet (o : Option T)
  /-- `runInLoop` of `shutdownInLoop`. -/
  | shutRun (o : Option T)
  /-- A step of the connector. -/
  | connector (a : ConnectorAct T)
  /-- `poll` has reported these events of the connector's channel and of the connections' channels. -/
  | poll (revents : Option Events) (timerfd : Bool) (active : List (Nat × Events))
  | handleEvent
  | callClose
  | callError
  | callRead (r : ReadResult)
  | callWrite (w : WriteResult)
  /-- `messageCallback_` returns. -/
  | messageDone
  | eventDone
  /-- The test of `retry_` and `connect_` in `removeConnection`. -/
  | removeTest
  | restart
  | beginFunctors
  /-- The write result counts when the functor is a `sendInLoop`. -/
  | runFunctor (w : WriteResult)
  | endDestroyed
  | endFunctors

/-- The steps of the loop's thread that are the connector's alone. -/
def ConnectorAct.inLoop {T : Type u} : ConnectorAct T → Bool
  | .handleEvent => true
  | .callback _ _ => true
  | .eventDone => true
  | .timerRead _ => true
  | .runTimer _ => true
  | .timersDone => true
  | .runFunctor _ => true
  | _ => false

/-- The steps of other threads, and of the loop's thread while it is in `start` or `restart`. -/
def ConnectorAct.anywhere {T : Type u} : ConnectorAct T → Bool
  | .startPush _ => true
  | .stopPush _ _ => true
  | .startInLoop _ => true
  | _ => false

/-- `connector_->start()`, as far as the assignment in it. -/
def startOf {T : Type u} : Option T → ConnectorAct T
  | some t => .startSet t
  | none => .startHere

/-- `connector_->stop()`, as far as the assignment in it. -/
def stopOf {T : Type u} : Option T → ConnectorAct T
  | some t => .stopSet t
  | none => .stopHere

namespace ClientState

variable {T : Type u}

/-- Before the first poll. -/
def start (client : TcpClient) : ClientState T where
  loop := .start true
  client
  conns _ := none
  active := []
  functors := .empty
  pc := .free
  calls _ := .idle
  log := []
  fault := none

/-- What epoll may report for a channel of a connection. -/
def MayReport (s : ClientState T) (p : Nat × Events) : Bool :=
  (s.conns p.1).any fun conn => conn.channel_.watched.any fun mask => mask.Reports p.2

def setConn (s : ClientState T) (c : Nat) (conn : TcpConnection) : ClientState T :=
  { s with conns := Function.update s.conns c (some conn) }

/-- `queueInLoop`. -/
def queueInLoop (s : ClientState T) (f : ClientFunctor) : ClientState T :=
  { s with functors := s.functors.push f }

/-- The handler of the connection is in `removeConnection`. -/
def toRemoving (pc : ClientPc) : ClientPc :=
  match pc with
  | .event c todo _ => .event c todo .removing
  | pc => pc

/-- `removeConnection` up to its test. -/
def removeConnection (s : ClientState T) (c : Nat) : ClientState T :=
  match s.client.removeConnection c with
  | .ok client =>
    { s with client, pc := toRemoving s.pc }.queueInLoop (.connectDestroyed c)
  | .error fault => { s with fault := some fault }

/-- What an effect of a connection does around it. -/
def effect (c : Nat) (conn : TcpConnection) (s : ClientState T) : ConnEffect → ClientState T
  | .queueWriteComplete => s.queueInLoop (.writeComplete c)
  | .closeCallback => s.removeConnection c
  | .connectionCallback => { s with log := s.log ++ [(c, decide (conn.state_ = .kConnected))] }
  | .write _ => s
  | .shutdownWrite => s
  | .messageCallback => s

/-- The state after a method of the connection. -/
def after (s : ClientState T) (c : Nat) (r : Except ConnFault (TcpConnection × List ConnEffect)) :
    ClientState T :=
  match r with
  | .ok (conn, es) => es.foldl (effect c conn) (s.setConn c conn)
  | .error fault => { s with fault := some (.conn fault) }

/-- `newConnection`, when the connector has called it. -/
def newConnection (s : ClientState T) : ClientState T :=
  let c := s.client.nextConnId_
  let (conn, client) := s.client.newConnection
  { s with client }.after c conn.connectEstablished

/-- One functor of the batch. -/
def runFunctor (s : ClientState T) (w : WriteResult) (conn : TcpConnection) :
    ClientFunctor → Option (ClientState T)
  | .sendInLoop c message =>
    if w.Within message.length then some (s.after c (conn.sendInLoop message w)) else none
  | .shutdownInLoop c => some (s.after c (.ok (conn, conn.shutdownInLoop)))
  | .writeComplete _ => some s
  | .connectDestroyed c => some ({ s with pc := .destroying c }.after c conn.beginDestroyed)

variable [DecidableEq T]

/-- The connector's part of a step, and `newConnection` when the connector has called it. -/
def connectorStep (s : ClientState T) (a : ConnectorAct T) : Option (ClientState T) :=
  (s.loop.step a).map fun loop =>
    let s' := { s with loop }
    if s.loop.made < loop.made then s'.newConnection else s'

/-- The steps of the loop in which no handler and no user code of the client runs. -/
def freeStep (s : ClientState T) (a : ClientAct T) : Option (ClientState T) :=
  match a with
  | .connector a => if a.inLoop then s.connectorStep a else none
  | .poll revents timerfd active =>
    if (active.map Prod.fst).Nodup ∧ active.all s.MayReport then
      (s.loop.step (.poll revents timerfd)).map fun loop => { s with loop, active }
    else none
  | .handleEvent =>
    match s.loop.pc, s.active with
    | .handlers _ _, (c, revents) :: active =>
      some { s with active, pc := .event c (Channel.handleEvent revents) .between }
    | _, _ => none
  | .beginFunctors =>
    if s.active = [] then
      (s.loop.step .beginFunctors).map fun loop => { s with loop, functors := s.functors.swap }
    else none
  | .runFunctor w =>
    if s.loop.pc = .batch then
      s.functors.next.bind fun (f, rest) => (s.conns f.conn).bind fun conn =>
        { s with functors := rest }.runFunctor w conn f
    else none
  | .endFunctors =>
    if s.functors.batch = [] then
      (s.loop.step .endFunctors).map fun loop => { s with loop }
    else none
  | _ => none

/-- The steps of the loop in a handler of a connection, and in `connectDestroyed`. -/
def eventStep (s : ClientState T) (a : ClientAct T) : Option (ClientState T) :=
  match a, s.pc with
  | .callClose, .event c (.close :: todo) .between =>
    (s.conns c).map fun conn => { s with pc := .event c todo .between }.after c conn.handleClose
  | .callError, .event c (.error :: todo) .between =>
    (s.conns c).map fun conn => { s with pc := .event c todo .between }.after c conn.handleError
  | .callRead r, .event c (.read :: todo) .between =>
    (s.conns c).map fun conn =>
      let place := if r = .data ∧ conn.messageCallback_ = true then .inMessage else .between
      { s with pc := .event c todo place }.after c (conn.handleRead r)
  | .callWrite w, .event c (.write :: todo) .between =>
    (s.conns c).bind fun conn =>
      if w.Within conn.outputBuffer_.length then
        some ({ s with pc := .event c todo .between }.after c (conn.handleWrite w))
      else none
  | .messageDone, .event c todo .inMessage => some { s with pc := .event c todo .between }
  | .eventDone, .event _ [] .between => some { s with pc := .free }
  | .removeTest, .event c todo .removing =>
    some (if s.client.reconnects then { s with pc := .event c todo .restarting }
      else { s with loop := s.loop.closed false, pc := .event c todo .between })
  | .restart, .event c todo .restarting =>
    some { s with loop := s.loop.closed true, pc := .event c todo .between }
  | .endDestroyed, .destroying c =>
    (s.conns c).map fun conn =>
      { s with pc := .free }.after c (conn.endDestroyed.map (·, []))
  | _, _ => none

/-- A step of the loop's thread. -/
def loopStep (s : ClientState T) (a : ClientAct T) : Option (ClientState T) :=
  if s.calls none ≠ .idle ∨ s.loop.starting = true then none
  else if s.pc = .free then s.freeStep a else s.eventStep a

def setCall (s : ClientState T) (o : Option T) (call : ClientCall) : ClientState T :=
  { s with calls := Function.update s.calls o call }

/-- The caller is outside the client, its connector and its connections, and may call. -/
def MayCall (s : ClientState T) (o : Option T) : Bool :=
  s.calls o = .idle && match o with
    | some t => s.loop.calls t = .idle
    | none => !s.loop.starting && s.loop.pc.inUserCode && s.pc.inUserCode

/-- `shutdown`, up to the assignment of `state_`. -/
def shutTest (s : ClientState T) (o : Option T) (c : Nat) : Option (ClientState T) :=
  (s.conns c).map fun conn =>
    if conn.state_ = .kConnected then s.setCall o (.shutting c) else s.setCall o .idle

def step (s : ClientState T) (a : ClientAct T) : Option (ClientState T) :=
  if s.fault.isSome || s.loop.fault.isSome then none
  else match a with
    | .enableRetry => some { s with client := s.client.enableRetry }
    | .connectSet o =>
      if s.MayCall o then
        some ({ s with client := { s.client with connect_ := true } }.setCall o .connecting)
      else none
    | .connectStart o =>
      if s.calls o = .connecting then
        (s.loop.step (startOf o)).map fun loop => { s with loop }.setCall o .idle
      else none
    | .stopSet o =>
      if s.MayCall o then
        some ({ s with client := { s.client with connect_ := false } }.setCall o .stopping)
      else none
    | .stopStop o =>
      if s.calls o = .stopping then
        (s.loop.step (stopOf o)).map fun loop => { s with loop }.setCall o .idle
      else none
    | .disconnectSet o =>
      if s.MayCall o then
        some ({ s with client := { s.client with connect_ := false } }.setCall o .disconnecting)
      else none
    | .disconnectTest o =>
      if s.calls o = .disconnecting then
        match s.client.connection_ with
        | some c => s.shutTest o c
        | none => some (s.setCall o .idle)
      else none
    | .sendTest o c message =>
      if s.MayCall o then
        (s.conns c).map fun conn =>
          if conn.state_ = .kConnected then s.setCall o (.sending c message) else s
      else none
    | .sendRun o w =>
      match s.calls o with
      | .sending c message =>
        if o = none then
          (s.conns c).bind fun conn =>
            if w.Within message.length then
              some ((s.setCall o .idle).after c (conn.sendInLoop message w))
            else none
        else some ((s.setCall o .idle).queueInLoop (.sendInLoop c message))
      | _ => none
    | .shutTest o c => if s.MayCall o then s.shutTest o c else none
    | .shutSet o =>
      match s.calls o with
      | .shutting c => (s.conns c).map fun conn =>
        (s.setConn c { conn with state_ := .kDisconnecting }).setCall o (.shut c)
      | _ => none
    | .shutRun o =>
      match s.calls o with
      | .shut c =>
        if o = none then
          (s.conns c).map fun conn =>
            (s.setCall o .idle).after c (.ok (conn, conn.shutdownInLoop))
        else some ((s.setCall o .idle).queueInLoop (.shutdownInLoop c))
      | _ => none
    | .connector a => if a.anywhere then s.connectorStep a else s.loopStep (.connector a)
    | a => s.loopStep a

end ClientState

/-- A client among its threads. -/
def tcpClient (T : Type u) [DecidableEq T] : Machine (ClientState T) (ClientAct T) where
  init s := ∃ messageCallback writeCompleteCallback,
    s = .start (.new messageCallback writeCompleteCallback)
  step := ClientState.step

end Netfish

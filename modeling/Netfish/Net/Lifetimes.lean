import Netfish.Kit.BatchQueue
import Netfish.Kit.Machine
import Netfish.Kit.Registry
import Netfish.Net.Acceptor
import Netfish.Net.Connector
import Netfish.Net.TcpClient
import Netfish.Net.TcpServer

/-!
# Objects of a loop

`netLoop` is the machine of a loop and of any number of `Acceptor`, `TcpServer`, `TcpClient` and
`Connector` objects that its thread makes, uses and destroys between two iterations; a server may have io
loops besides. The descriptors are those of the process: the kernel gives one again when it has been
closed. A `Channel` here says whether its own poller has it, and `channels_` is what the poller has, entries
of destroyed channels included.

An `Acceptor` is made by itself or by the `TcpServer` with the same number, a `Connector` by itself or by
the `TcpClient` with the same number. A `TcpConnection` goes when its last `TcpConnectionPtr` does: in
`connections_`, in `connection_`, or bound into a functor, which its batch keeps until it ends. User code
holds none, but is given one in a callback. A call on an object that is gone stops the run.
-/

set_option autoImplicit false

namespace Netfish

open Kit

universe u

/-- A connection: who made it, and with which number. -/
structure ConnRef where
  owner : Nat
  number : Nat
deriving DecidableEq, Repr

/-- A `Channel` object, by what it is a member of. -/
inductive ChannelRef where
  | acceptor (i : Nat)
  | connector (i : Nat)
  | conn (c : ConnRef)
deriving DecidableEq, Repr

/-- What `closeCallback_` of a connection is bound to. -/
inductive CloseCallback where
  /-- `TcpServer::removeConnection` -/
  | server
  /-- `TcpClient::removeConnection` -/
  | client
  /-- `detail::removeConnection` -/
  | detail
deriving DecidableEq, Repr

structure NetConn (L : Type u) extends ServerConn L where
  fd_ : Nat
  closeCallback_ : CloseCallback

def NetConn.setCloseCallback {L : Type u} (cb : CloseCallback) (nc : NetConn L) : NetConn L :=
  { nc with closeCallback_ := cb }

inductive NetFunctor where
  | connectEstablished (c : ConnRef)
  | writeComplete (c : ConnRef)
  | removeConnectionInLoop (c : ConnRef)
  | connectDestroyed (c : ConnRef)
  /-- History: the descriptor of the channel it was queued for. -/
  | resetChannel (i : Nat) (sockfd : Nat)
deriving DecidableEq, Repr

/-- The connection whose `TcpConnectionPtr` is bound into the functor. -/
def NetFunctor.holds : NetFunctor → Option ConnRef
  | .connectEstablished _ => none
  | .writeComplete c => some c
  | .removeConnectionInLoop c => some c
  | .connectDestroyed c => some c
  | .resetChannel _ _ => none

inductive NetFault where
  | poller (fault : PollerFault)
  | connector (fault : ConnectorFault)
  /-- `assert(!channel_)` in `~Connector` -/
  | connectorChannel
  | conn (fault : ConnFault)
  | client (fault : ClientFault)
  | pool (fault : PoolFault)
  /-- `assert(n == 1)` in `TcpServer::removeConnectionInLoop` -/
  | erase
  | notInLoopThread
  /-- A call on an object that is gone. -/
  | destroyed
deriving DecidableEq, Repr

/-- `assert(channels_.find(fd) == channels_.end())` -/
def NetFault.present : NetFault → Bool
  | .poller fault => fault = .present
  | .connector fault => fault = .poller .present
  | .conn fault => fault = .poller .present
  | _ => false

/-- What `poll` finds. -/
inductive Ready where
  | channel (o : ChannelRef) (revents : Events)
  | timerfd
deriving DecidableEq, Repr

/-- What is still to be called in this iteration. -/
inductive Handler where
  | callback (o : ChannelRef) (callback : ChannelCallback)
  /-- `TimerQueue::handleRead` -/
  | timerRead
  /-- `startInLoop` of the connector, by its expired retry timer. -/
  | timer (i id : Nat)
deriving DecidableEq, Repr

def Ready.handlers : Ready → List Handler
  | .channel o revents => (Channel.handleEvent revents).map (.callback o)
  | .timerfd => [.timerRead]

def Ready.ref : Ready → Option ChannelRef
  | .channel o _ => some o
  | .timerfd => none

/-- Where the thread of a loop stands. -/
inductive NetPc where
  /-- Between two iterations. -/
  | idle
  | handlers (todo : List Handler)
  /-- In `doPendingFunctors`. -/
  | batch
  /-- In `connectDestroyed` of the connection, inside `connectionCallback_`. -/
  | destroying (c : ConnRef)
deriving DecidableEq, Repr

/-- What the kernel and the clock answer; a step uses what it asks for. -/
structure Answers where
  /-- The result of `accept`. -/
  connfd : Option Nat
  /-- The result of `createNonBlockingOrDie`. -/
  sockfd : Nat
  /-- After `sockets::connect`. -/
  savedErrno : ConnectErrno
  /-- Whether `getSocketError` returns an error. -/
  err : Bool
  selfConnect : Bool
  /-- `getPeerAddr`, as text. -/
  peerAddr : String
  read : ReadResult
  write : WriteResult
  /-- The retry timers that have expired. -/
  expired : List (Nat × Nat)

/-- What user code may call between two iterations. -/
inductive Use (L : Type u) where
  /-- `Acceptor::listen` -/
  | listen
  /-- `TcpServer::setThreadNum` -/
  | setThreadNum (numThreads : Nat)
  /-- `TcpServer::start`; the argument gives the loops of the new threads. -/
  | startServer (startLoop : Nat → L)
  /-- `TcpClient::enableRetry` -/
  | enableRetry
  /-- `TcpClient::connect` -/
  | connect
  /-- `TcpClient::disconnect` -/
  | disconnect
  /-- `TcpClient::stop` -/
  | stopClient
  /-- `Connector::start` -/
  | start
  /-- `Connector::restart` -/
  | restart
  /-- `Connector::stop` -/
  | stop

inductive NetAct (L : Type u) where
  | newAcceptor (fd : Nat) (newConnectionCallback : Bool)
  | newTcpServer (fd : Nat) (name : String) (messageCallback writeCompleteCallback : Bool)
  | newTcpClient (messageCallback writeCompleteCallback : Bool)
  | newConnector (newConnectionCallback : Bool)
  | use (i : Nat) (u : Use L) (k : Answers)
  | destroyAcceptor (i : Nat)
  | destroyTcpServer (i : Nat)
  | destroyTcpClient (i : Nat)
  | destroyConnector (i : Nat)
  /-- `send` of a connection, by user code in the thread of its loop. -/
  | send (c : ConnRef) (message : List UInt8) (k : Answers)
  /-- `shutdown` of a connection, by user code in the thread of its loop. -/
  | shutdown (c : ConnRef)
  | poll (l : L) (ready : List Ready)
  | handle (l : L) (k : Answers)
  | beginFunctors (l : L)
  | runFunctor (l : L)
  | endDestroyed (l : L)
  | endFunctors (l : L)

structure NetState (L : Type u) where
  /-- The loop of the objects. -/
  base : L
  /-- The descriptors that the objects have open. -/
  opened : Nat → Bool
  /-- `channels_` of the poller of each loop. -/
  channels_ : L → Nat → Option ChannelRef
  acceptors : Nat → Option Acceptor
  servers : Nat → Option (TcpServer L)
  connectors : Nat → Option Connector
  clients : Nat → Option TcpClient
  conns : ConnRef → Option (NetConn L)
  functors : L → BatchQueue NetFunctor
  /-- The functors of the current batch that have run. -/
  spent : L → List NetFunctor
  pcs : L → NetPc
  /-- The retry timers in `timers_` of the loop: connector and id. -/
  timers : List (Nat × Nat)
  nextObject : Nat
  nextTimer : Nat
  fault : Option NetFault

namespace NetState

variable {L : Type u}

def start (base : L) : NetState L where
  base
  opened _ := false
  channels_ _ _ := none
  acceptors _ := none
  servers _ := none
  connectors _ := none
  clients _ := none
  conns _ := none
  functors _ := .empty
  spent _ := []
  pcs _ := .idle
  timers := []
  nextObject := 0
  nextTimer := 0
  fault := none

/-- The first assertion that fails counts. -/
def fail (s : NetState L) (fault : NetFault) : NetState L :=
  { s with fault := some (s.fault.getD fault) }

def setOpened (s : NetState L) (fd : Nat) (b : Bool) : NetState L :=
  { s with opened := Function.update s.opened fd b }

/-- The channels there are, with loop and descriptor. -/
def channelOf (s : NetState L) : ChannelRef → Option (L × Nat × Channel)
  | .acceptor i => (s.acceptors i).map fun a => (s.base, a.acceptSocket_, a.acceptChannel_)
  | .connector i => (s.connectors i).bind fun c =>
    c.channel_.map fun channel => (s.base, channel.fd_, channel.channel)
  | .conn c => (s.conns c).map fun nc => (nc.loop_, nc.fd_, nc.conn.channel_)

/-- `cancel` of a retry timer: one that has expired is not in `timers_` any more, and runs. -/
def cancel (s : NetState L) (timerId : Option Nat) : NetState L :=
  { s with timers := s.timers.filter fun t => some t.2 ≠ timerId }

variable [DecidableEq L]

def push (s : NetState L) (l : L) (f : NetFunctor) : NetState L :=
  { s with functors := Function.update s.functors l ((s.functors l).push f) }

def setPc (s : NetState L) (l : L) (pc : NetPc) : NetState L :=
  { s with pcs := Function.update s.pcs l pc }

/-- `channels_` after a method of the channel, of which it was a part before or was not. -/
def note (s : NetState L) (o : ChannelRef) (l : L) (fd : Nat) (was now : Bool) : NetState L :=
  if was = false ∧ now = true ∧ s.channels_ l fd ≠ none then s.fail (.poller .present)
  else { s with channels_ := noteEntry s.channels_ o l fd was now }

/-! ## Connections -/

/-- The connection `c` after one of its methods. -/
def setConn (s : NetState L) (c : ConnRef) (nc : NetConn L) (conn : TcpConnection) : NetState L :=
  { s with conns := Function.update s.conns c (some { nc with conn }) }.note (.conn c) nc.loop_ nc.fd_
    nc.conn.channel_.mapped conn.channel_.mapped

/-- `connections_` or `connection_` of its owner has the connection. -/
def listed (s : NetState L) (c : ConnRef) (nc : NetConn L) : Bool :=
  (s.servers c.owner).any (·.connections_ nc.name_ = some c.number) ||
    (s.clients c.owner).any (·.connection_ = some c.number)

/-- There is a `TcpConnectionPtr` to the connection. -/
def Owned (s : NetState L) (c : ConnRef) (nc : NetConn L) : Prop :=
  s.listed c nc = true ∨ ∃ l ∈ [s.base, nc.loop_], ∃ f ∈ s.spent l ++ (s.functors l).toList,
    f.holds = some c

instance (s : NetState L) (c : ConnRef) (nc : NetConn L) : Decidable (s.Owned c nc) :=
  inferInstanceAs (Decidable (_ ∨ _))

/-- The connection goes with a pointer that was one of these. -/
def Goes (s : NetState L) (cs : List ConnRef) (c : ConnRef) (nc : NetConn L) : Prop :=
  c ∈ cs ∧ ¬ s.Owned c nc

instance (s : NetState L) (cs : List ConnRef) (c : ConnRef) (nc : NetConn L) :
    Decidable (s.Goes cs c nc) :=
  inferInstanceAs (Decidable (_ ∧ _))

/-- Pointers to these connections are gone. `~TcpConnection` destroys the channel and closes the
descriptor, and that is all. -/
def letGo (s : NetState L) (cs : List ConnRef) : NetState L :=
  { s with
    conns := fun c => (s.conns c).filter fun nc => ¬ s.Goes cs c nc
    opened := fun fd => s.opened fd &&
      !cs.any fun c => (s.conns c).any fun nc => s.Goes cs c nc ∧ nc.fd_ = fd }

/-- `connectEstablished`; its one effect is the call of `connectionCallback_`. -/
def connectEstablished (s : NetState L) (c : ConnRef) (nc : NetConn L) : NetState L :=
  match nc.conn.connectEstablished with
  | .ok (conn, _) => s.setConn c nc conn
  | .error fault => s.fail (.conn fault)

/-! ## Connectors and clients -/

/-- `TcpClient::newConnection` -/
def newClientConnection (s : NetState L) (i : Nat) (client : TcpClient) (sockfd : Nat)
    (peerAddr : String) : NetState L :=
  let c : ConnRef := ⟨i, client.nextConnId_⟩
  let (conn, client') := client.newConnection
  let name := ":" ++ (peerAddr ++ ("#" ++ client.nextConnId_.repr))
  let nc : NetConn L := { loop_ := s.base, name_ := name, conn, fd_ := sockfd, closeCallback_ := .client }
  let s := { s with
    clients := Function.update s.clients i (some client')
    conns := Function.update s.conns c (some nc) }
  (s.letGo (client.connection_.toList.map (⟨i, ·⟩))).connectEstablished c nc

/-- What an effect of a connector does around it. -/
def connectorEffect (i : Nat) (k : Answers) (s : NetState L) : ConnectorEffect → NetState L
  | .socket sockfd => s.setOpened sockfd true
  | .close sockfd => s.setOpened sockfd false
  | .runAfter _ => { s with timers := s.timers ++ [(i, s.nextTimer)], nextTimer := s.nextTimer + 1 }
  | .queueResetChannel sockfd => s.push s.base (.resetChannel i sockfd)
  | .newConnectionCallback sockfd =>
    match s.clients i with
    | some client => s.newClientConnection i client sockfd k.peerAddr
    -- the descriptor is user code's, which may close it at any time
    | none => s.setOpened sockfd false

/-- The connector `i` after one of its methods. -/
def setConnector (s : NetState L) (i : Nat) (c c' : Connector) : NetState L :=
  let s := { s with connectors := Function.update s.connectors i (some c') }
  match c'.channel_ with
  | some channel => s.note (.connector i) s.base channel.fd_ (c.channel_.any (·.channel.mapped))
      channel.channel.mapped
  | none => s

/-- A method of the connector. -/
def onConnector (s : NetState L) (i : Nat) (k : Answers)
    (method : Connector → Except ConnectorFault (Connector × List ConnectorEffect)) : NetState L :=
  match s.connectors i with
  | some c =>
    match method c with
    | .ok (c', es) => es.foldl (connectorEffect i k) (s.setConnector i c c')
    | .error fault => s.fail (.connector fault)
  | none => s.fail .destroyed

def startInLoop (s : NetState L) (i : Nat) (k : Answers) : NetState L :=
  s.onConnector i k fun c => c.startInLoop k.sockfd k.savedErrno s.nextTimer

/-- `Connector::start` -/
def startConnector (s : NetState L) (i : Nat) (k : Answers) : NetState L :=
  s.onConnector i k fun c => { c with connect_ := true }.startInLoop k.sockfd k.savedErrno s.nextTimer

/-- `Connector::restart` -/
def restart (s : NetState L) (i : Nat) (k : Answers) : NetState L :=
  s.onConnector i k fun c => c.restart.startInLoop k.sockfd k.savedErrno s.nextTimer

/-- `Connector::stop` -/
def stopConnector (s : NetState L) (i : Nat) (k : Answers) : NetState L :=
  match s.connectors i with
  | some c => (s.onConnector i k fun c => .ok ({ c with connect_ := false }, [])).cancel c.timerId_
  | none => s.fail .destroyed

def setClient (s : NetState L) (i : Nat) (client : TcpClient) : NetState L :=
  { s with clients := Function.update s.clients i (some client) }

/-- `TcpClient::removeConnection` -/
def removeClientConnection (s : NetState L) (c : ConnRef) (k : Answers) : NetState L :=
  match s.clients c.owner with
  | some client =>
    match client.removeConnection c.number with
    | .ok client' =>
      let s := (s.setClient c.owner client').push s.base (.connectDestroyed c)
      if client'.reconnects then s.restart c.owner k else s
    | .error fault => s.fail (.client fault)
  | none => s.fail .destroyed

/-! ## Servers -/

def setServer (s : NetState L) (i : Nat) (server : TcpServer L) : NetState L :=
  { s with servers := Function.update s.servers i (some server) }

/-- `TcpServer::removeConnectionInLoop` -/
def removeConnectionInLoop (s : NetState L) (c : ConnRef) (nc : NetConn L) : NetState L :=
  match s.servers c.owner with
  | some server =>
    let (n, server) := server.erase nc.name_
    if n = 1 then (s.setServer c.owner server).push nc.loop_ (.connectDestroyed c)
    else s.fail .erase
  | none => s.fail .destroyed

/-- `TcpServer::removeConnection` -/
def removeServerConnection (s : NetState L) (c : ConnRef) (nc : NetConn L) : NetState L :=
  match s.servers c.owner with
  | some _ =>
    if nc.loop_ = s.base then s.removeConnectionInLoop c nc
    else s.push s.base (.removeConnectionInLoop c)
  | none => s.fail .destroyed

/-- `TcpServer::newConnection` -/
def newServerConnection (s : NetState L) (i : Nat) (server : TcpServer L) (connfd : Nat) :
    NetState L :=
  let c : ConnRef := ⟨i, server.nextConnId_⟩
  let (sc, server) := server.newConnection
  let nc : NetConn L := { toServerConn := sc, fd_ := connfd, closeCallback_ := .server }
  let s := { s.setServer i server with conns := Function.update s.conns c (some nc) }
  if sc.loop_ = s.base then s.connectEstablished c nc else s.push sc.loop_ (.connectEstablished c)

/-- What an effect of an acceptor does around it. -/
def acceptorEffect (i : Nat) (s : NetState L) : AcceptorEffect → NetState L
  | .accept connfd => s.setOpened connfd true
  | .close connfd => s.setOpened connfd false
  | .newConnectionCallback connfd =>
    match s.servers i with
    | some server => s.newServerConnection i server connfd
    | none => s.setOpened connfd false

/-- The acceptor `i` after `listen`. -/
def listen (s : NetState L) (i : Nat) (a : Acceptor) : NetState L :=
  match a.listen with
  | .ok a' =>
    { s with acceptors := Function.update s.acceptors i (some a') }.note (.acceptor i) s.base
      a.acceptSocket_ a.acceptChannel_.mapped a'.acceptChannel_.mapped
  | .error fault => s.fail (.poller fault)

/-- `TcpServer::start` -/
def startServer (s : NetState L) (i : Nat) (server : TcpServer L) (startLoop : Nat → L) : NetState L :=
  match server.start startLoop with
  | .ok server =>
    match s.acceptors i with
    | some a => if a.listening_ then s.setServer i server else (s.setServer i server).listen i a
    | none => s.fail .destroyed
  | .error fault => s.fail (.pool fault)

/-! ## What a connection does around it -/

/-- `closeCallback_` -/
def closeCallback (s : NetState L) (c : ConnRef) (nc : NetConn L) (k : Answers) : NetState L :=
  match nc.closeCallback_ with
  | .server => s.removeServerConnection c nc
  | .client => s.removeClientConnection c k
  | .detail => s.push s.base (.connectDestroyed c)

/-- The other two callbacks are user code. -/
def connEffect (c : ConnRef) (nc : NetConn L) (k : Answers) (s : NetState L) : ConnEffect → NetState L
  | .queueWriteComplete => s.push nc.loop_ (.writeComplete c)
  | .closeCallback => s.closeCallback c nc k
  | .write _ => s
  | .shutdownWrite => s
  | .messageCallback => s
  | .connectionCallback => s

/-- A method of the connection. -/
def onConn (s : NetState L) (c : ConnRef) (k : Answers)
    (method : TcpConnection → Except ConnFault (TcpConnection × List ConnEffect)) : NetState L :=
  match s.conns c with
  | some nc =>
    match method nc.conn with
    | .ok (conn, es) => es.foldl (connEffect c nc k) (s.setConn c nc conn)
    | .error fault => s.fail (.conn fault)
  | none => s.fail .destroyed

/-- `shutdown` in the thread of the loop. -/
def shutdown (s : NetState L) (c : ConnRef) : NetState L :=
  match s.conns c with
  | some nc =>
    if nc.conn.state_ = .kConnected then s.setConn c nc { nc.conn with state_ := .kDisconnecting }
    else s
  | none => s.fail .destroyed

/-! ## Steps -/

/-- The kernel gives no descriptor that is open. -/
def Fresh (s : NetState L) (k : Answers) : Prop :=
  s.opened k.sockfd = false ∧ ∀ connfd ∈ k.connfd, s.opened connfd = false

instance (s : NetState L) (k : Answers) : Decidable (s.Fresh k) :=
  inferInstanceAs (Decidable (_ ∧ _))

/-- A constructor, of an object with a socket or without. -/
def newAcceptor (s : NetState L) (fd : Nat) (newConnectionCallback : Bool) : NetState L :=
  { s.setOpened fd true with
    acceptors := Function.update s.acceptors s.nextObject (some (.new fd newConnectionCallback))
    nextObject := s.nextObject + 1 }

def newConnector (s : NetState L) (newConnectionCallback : Bool) : NetState L :=
  { s with
    connectors := Function.update s.connectors s.nextObject (some (.new newConnectionCallback))
    nextObject := s.nextObject + 1 }

/-- What user code calls between two iterations; `none` when there is no such object. -/
def use (s : NetState L) (i : Nat) (k : Answers) : Use L → Option (NetState L)
  | .listen => if (s.servers i).isNone then (s.acceptors i).map (s.listen i) else none
  | .setThreadNum numThreads => (s.servers i).map fun server =>
    s.setServer i (server.setThreadNum numThreads)
  | .startServer startLoop => (s.servers i).map fun server => s.startServer i server startLoop
  | .enableRetry => (s.clients i).map fun client => s.setClient i client.enableRetry
  | .connect => (s.clients i).map fun client =>
    (s.setClient i { client with connect_ := true }).startConnector i k
  | .disconnect => (s.clients i).map fun client =>
    let s := s.setClient i { client with connect_ := false }
    match client.connection_ with
    | some number => s.shutdown ⟨i, number⟩
    | none => s
  | .stopClient => (s.clients i).map fun client =>
    (s.setClient i { client with connect_ := false }).stopConnector i k
  | .start => if (s.clients i).isNone ∧ (s.connectors i).isSome then some (s.startConnector i k) else none
  | .restart => if (s.clients i).isNone ∧ (s.connectors i).isSome then some (s.restart i k) else none
  | .stop => if (s.clients i).isNone ∧ (s.connectors i).isSome then some (s.stopConnector i k) else none

/-- `~Acceptor`: the members go, the channel first. -/
def destroyAcceptor (s : NetState L) (i : Nat) (a : Acceptor) : NetState L :=
  { s.setOpened a.acceptSocket_ false with acceptors := Function.update s.acceptors i none }

/-- The pointers in `connections_`. -/
def pointers (i : Nat) (server : TcpServer L) : List ConnRef :=
  ((List.range server.nextConnId_).filter fun number =>
    server.connections_ (connName server.name_ number) = some number).map (⟨i, ·⟩)

/-- `~TcpServer`: `connections_` goes, and later `acceptor_`. -/
def destroyTcpServer (s : NetState L) (i : Nat) (server : TcpServer L) (a : Acceptor) : NetState L :=
  ({ s with servers := Function.update s.servers i none }.letGo (pointers i server)).destroyAcceptor i a

/-- `~Connector` -/
def destroyConnector (s : NetState L) (i : Nat) (c : Connector) : NetState L :=
  let s := s.cancel c.timerId_
  if c.channel_ = none then { s with connectors := Function.update s.connectors i none }
  else s.fail .connectorChannel

/-- `~TcpClient`: its body sets `closeCallback_` of an open connection, then `connection_` goes, and later
`connector_`. -/
def destroyTcpClient (s : NetState L) (i : Nat) (client : TcpClient) (connector : Connector) :
    NetState L :=
  let cs : List ConnRef := client.connection_.toList.map (⟨i, ·⟩)
  let s := { s with
    conns := fun c =>
      if c ∈ cs then (s.conns c).map (NetConn.setCloseCallback .detail) else s.conns c
    clients := Function.update s.clients i none }
  (s.letGo cs).destroyConnector i connector

/-- What epoll may report. -/
def MayReport (s : NetState L) (l : L) : Ready → Bool
  | .channel o revents => (s.channelOf o).any fun (l', _, channel) =>
    l' = l && channel.watched.any fun mask => mask.Reports revents
  | .timerfd => l = s.base

/-- The answers suit the handler. -/
def Answered (s : NetState L) (k : Answers) : Handler → Bool
  | .callback (.conn c) .write =>
    (s.conns c).all fun nc => k.write.Within nc.conn.outputBuffer_.length
  | .timerRead => k.expired.Sublist s.timers
  | _ => true

/-- A callback of a channel. Of an acceptor's only the read callback is set, of a connector's only the
write and the error callback. -/
def callback (s : NetState L) (k : Answers) : ChannelRef → ChannelCallback → NetState L
  | .acceptor i, .read =>
    match s.acceptors i with
    | some a => (a.handleRead k.connfd).foldl (acceptorEffect i) s
    | none => s.fail .destroyed
  | .acceptor _, _ => s
  | .connector i, .write => s.onConnector i k fun c => c.handleWrite k.err k.selfConnect s.nextTimer
  | .connector i, .error => s.onConnector i k fun c => c.handleError s.nextTimer
  | .connector _, _ => s
  | .conn c, .close => s.onConn c k TcpConnection.handleClose
  | .conn c, .error => s.onConn c k TcpConnection.handleError
  | .conn c, .read => s.onConn c k fun conn => conn.handleRead k.read
  | .conn c, .write => s.onConn c k fun conn => conn.handleWrite k.write

/-- The first of the handlers. -/
def handle (s : NetState L) (l : L) (k : Answers) (todo : List Handler) : Handler → NetState L
  | .callback o callback => (s.setPc l (.handlers todo)).callback k o callback
  | .timerRead =>
    { s.setPc l (.handlers (k.expired.map (fun t => .timer t.1 t.2) ++ todo)) with
      timers := s.timers.filter (· ∉ k.expired) }
  | .timer i _ => (s.setPc l (.handlers todo)).startInLoop i k

/-- One functor of the batch. -/
def runFunctor (s : NetState L) (l : L) : NetFunctor → NetState L
  | .connectEstablished c =>
    match s.conns c with
    | some nc => if nc.loop_ = l then s.connectEstablished c nc else s.fail .notInLoopThread
    | none => s.fail .destroyed
  | .writeComplete _ => s
  | .removeConnectionInLoop c =>
    match s.conns c with
    | some nc => s.removeConnectionInLoop c nc
    | none => s.fail .destroyed
  | .connectDestroyed c =>
    match s.conns c with
    | some nc =>
      if nc.loop_ = l then
        match nc.conn.beginDestroyed with
        | .ok (conn, _) => (s.setPc l (.destroying c)).setConn c nc conn
        | .error fault => s.fail (.conn fault)
      else s.fail .notInLoopThread
    | none => s.fail .destroyed
  | .resetChannel i _ =>
    match s.connectors i with
    | some c => { s with connectors := Function.update s.connectors i (some c.resetChannel) }
    | none => s.fail .destroyed

/-- `connectDestroyed` after its callback. -/
def endDestroyed (s : NetState L) (l : L) (c : ConnRef) : NetState L :=
  match s.conns c with
  | some nc =>
    match nc.conn.endDestroyed with
    | .ok conn => (s.setPc l .batch).setConn c nc conn
    | .error fault => s.fail (.conn fault)
  | none => s.fail .destroyed

/-- The end of the batch, with its functors. -/
def endFunctors (s : NetState L) (l : L) : NetState L :=
  { s.setPc l .idle with spent := Function.update s.spent l [] }.letGo
    ((s.spent l).filterMap NetFunctor.holds)

/-- The steps of the thread that makes, uses and destroys, between two iterations. -/
def idleStep (s : NetState L) : NetAct L → Option (NetState L)
  | .newAcceptor fd newConnectionCallback =>
    if s.opened fd = false then some (s.newAcceptor fd newConnectionCallback) else none
  | .newTcpServer fd name messageCallback writeCompleteCallback =>
    if s.opened fd = false then
      some { s.newAcceptor fd true with
        servers := Function.update s.servers s.nextObject
          (some (.new s.base name messageCallback writeCompleteCallback)) }
    else none
  | .newTcpClient messageCallback writeCompleteCallback =>
    some { s.newConnector true with
      clients := Function.update s.clients s.nextObject
        (some (.new messageCallback writeCompleteCallback)) }
  | .newConnector newConnectionCallback => some (s.newConnector newConnectionCallback)
  | .use i u k => if s.Fresh k then s.use i k u else none
  | .destroyAcceptor i =>
    match s.servers i, s.acceptors i with
    | none, some a => some (s.destroyAcceptor i a)
    | _, _ => none
  | .destroyTcpServer i =>
    match s.servers i, s.acceptors i with
    | some server, some a => some (s.destroyTcpServer i server a)
    | _, _ => none
  | .destroyTcpClient i =>
    match s.clients i, s.connectors i with
    | some client, some c => some (s.destroyTcpClient i client c)
    | _, _ => none
  | .destroyConnector i =>
    match s.clients i, s.connectors i with
    | none, some c => some (s.destroyConnector i c)
    | _, _ => none
  | _ => none

def step (s : NetState L) (a : NetAct L) : Option (NetState L) :=
  if s.fault.isSome then none
  else match a with
    | .send c message k =>
      match s.conns c with
      | some nc =>
        if nc.conn.state_ = .kConnected then
          if k.write.Within message.length then
            some (s.onConn c k fun conn => conn.sendInLoop message k.write)
          else none
        else some s
      | none => none
    | .shutdown c => if (s.conns c).isSome then some (s.shutdown c) else none
    | .poll l ready =>
      if s.pcs l = .idle ∧ (ready.map Ready.ref).Nodup ∧ ready.all (s.MayReport l) then
        some (s.setPc l (.handlers (ready.flatMap Ready.handlers)))
      else none
    | .handle l k =>
      match s.pcs l with
      | .handlers (h :: todo) =>
        if s.Fresh k ∧ s.Answered k h then some (s.handle l k todo h) else none
      | _ => none
    | .beginFunctors l =>
      if s.pcs l = .handlers [] then
        some { s.setPc l .batch with
          functors := Function.update s.functors l (s.functors l).swap }
      else none
    | .runFunctor l =>
      if s.pcs l = .batch then
        (s.functors l).next.map fun (f, rest) => { s with
          functors := Function.update s.functors l rest
          spent := Function.update s.spent l (s.spent l ++ [f]) }.runFunctor l f
      else none
    | .endDestroyed l =>
      match s.pcs l with
      | .destroying c => some (s.endDestroyed l c)
      | _ => none
    | .endFunctors l =>
      if s.pcs l = .batch ∧ (s.functors l).batch = [] then some (s.endFunctors l) else none
    | a => if s.pcs s.base = .idle then s.idleStep a else none

end NetState

/-- The machine of the loop and its objects. -/
def netLoop (L : Type u) [DecidableEq L] : Machine (NetState L) (NetAct L) where
  init s := ∃ base, s = .start base
  step := NetState.step

end Netfish

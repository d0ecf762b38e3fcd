import Mathlib.Logic.Function.Basic
import Netfish.Net.EventLoopThreadPool
import Netfish.Net.TcpConnection

/-!
# TcpServer

The server without its acceptor: the map of its connections by name and the names it gives. A
`TcpConnectionPtr` is the number the connection was made with. `nextConnId_` counts without overflow.
-/

set_option autoImplicit false

namespace Netfish

universe u

structure TcpServer (L : Type u) where
  /-- The loop of the acceptor. -/
  loop_ : L
  name_ : String
  threadPool_ : EventLoopThreadPool L
  started_ : Bool
  /-- Whether `messageCallback_` is set. -/
  messageCallback_ : Bool
  /-- Whether `writeCompleteCallback_` is set. -/
  writeCompleteCallback_ : Bool
  nextConnId_ : Nat
  connections_ : String → Option Nat

/-- A connection of a server, with its loop and its name. -/
structure ServerConn (L : Type u) where
  loop_ : L
  name_ : String
  conn : TcpConnection

/-- `name_ + "#%d"` -/
def connName (name : String) (connId : Nat) : String := name ++ ("#" ++ connId.repr)

/-- Two connections of a server have two names. -/
theorem connName_inj {name : String} {c d : Nat} (h : connName name c = connName name d) :
    c = d := by
  have hrepr : c.repr = d.repr := (String.append_right_inj _).mp ((String.append_right_inj _).mp h)
  have hdigits := congrArg (fun s => Nat.ofDigitChars 10 s.toList 0) hrepr
  simpa only [Nat.toList_repr, Nat.ofDigitChars_toDigits (by decide : 1 < 10) (Nat.le_refl 10)]
    using hdigits

namespace TcpServer

variable {L : Type u}

/-- The constructor, and the callbacks the owner sets. -/
def new (loop : L) (name : String) (messageCallback writeCompleteCallback : Bool) :
    TcpServer L where
  loop_ := loop
  name_ := name
  threadPool_ := .new loop
  started_ := false
  messageCallback_ := messageCallback
  writeCompleteCallback_ := writeCompleteCallback
  nextConnId_ := 1
  connections_ _ := none

def setThreadNum (server : TcpServer L) (numThreads : Nat) : TcpServer L :=
  { server with threadPool_ := server.threadPool_.setThreadNum numThreads }

/-- `start` without the acceptor's `listen`; the argument gives the loops of the new threads. -/
def start (server : TcpServer L) (startLoop : Nat → L) : Except PoolFault (TcpServer L) :=
  if server.started_ then .ok server
  else do
    let threadPool ← server.threadPool_.start startLoop
    .ok { server with started_ := true, threadPool_ := threadPool }

/-- `newConnection` up to the call of `connectEstablished`. -/
def newConnection (server : TcpServer L) : ServerConn L × TcpServer L :=
  let connName := connName server.name_ server.nextConnId_
  let (ioLoop, threadPool) := server.threadPool_.getNextLoop
  let conn := .new server.messageCallback_ server.writeCompleteCallback_
  ({ loop_ := ioLoop, name_ := connName, conn }, { server with
    nextConnId_ := server.nextConnId_ + 1
    threadPool_ := threadPool
    connections_ := Function.update server.connections_ connName (some server.nextConnId_) })

/-- `connections_.erase(name)`: the number of entries erased. -/
def erase (server : TcpServer L) (name : String) : Nat × TcpServer L :=
  (if (server.connections_ name).isSome then 1 else 0,
    { server with connections_ := Function.update server.connections_ name none })

end TcpServer

end Netfish

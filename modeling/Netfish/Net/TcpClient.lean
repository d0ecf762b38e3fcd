import Netfish.Net.TcpConnection

/-!
# TcpClient

The client without its connector. A `TcpConnectionPtr` is the number the connection was made with.
`nextConnId_` counts without overflow.
-/

set_option autoImplicit false

namespace Netfish

open Kit

inductive ClientFault where
  | conn (fault : ConnFault)
  /-- `assert(connection_ == conn)` in `removeConnection` -/
  | removeConnection
deriving DecidableEq, Repr

structure TcpClient where
  retry_ : Bool
  connect_ : Bool
  nextConnId_ : Nat
  /-- Whether `messageCallback_` is set. -/
  messageCallback_ : Bool
  /-- Whether `writeCompleteCallback_` is set. -/
  writeCompleteCallback_ : Bool
  connection_ : Option Nat
deriving DecidableEq, Repr

namespace TcpClient

/-- The constructor, and the callbacks the owner sets. -/
def new (messageCallback writeCompleteCallback : Bool) : TcpClient where
  retry_ := false
  connect_ := true
  nextConnId_ := 1
  messageCallback_ := messageCallback
  writeCompleteCallback_ := writeCompleteCallback
  connection_ := none

def enableRetry (client : TcpClient) : TcpClient := { client with retry_ := true }

/-- `newConnection` up to the call of `connectEstablished`. -/
def newConnection (client : TcpClient) : TcpConnection × TcpClient :=
  (.new client.messageCallback_ client.writeCompleteCallback_, { client with
    nextConnId_ := client.nextConnId_ + 1
    connection_ := some client.nextConnId_ })

/-- `removeConnection` under its lock. -/
def removeConnection (client : TcpClient) (conn : Nat) : Except ClientFault TcpClient := do
  check .removeConnection (client.connection_ = some conn)
  .ok { client with connection_ := none }

/-- `removeConnection` goes on to `restart`. -/
def reconnects (client : TcpClient) : Bool := client.retry_ && client.connect_

end TcpClient

end Netfish

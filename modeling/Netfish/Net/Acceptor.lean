import Netfish.Net.Channel

/-!
# Acceptor

The acceptor as `Acceptor.h` and `Acceptor.cc` have it. The result of `accept` is an argument. There is no
destructor beside that of the members: nothing disables or removes `acceptChannel_`.
-/

set_option autoImplicit false

namespace Netfish

open Kit

inductive AcceptorEffect where
  /-- `acceptSocket_.accept`, which returned this descriptor. -/
  | accept (connfd : Nat)
  | newConnectionCallback (connfd : Nat)
  /-- `sockets::close` -/
  | close (connfd : Nat)
deriving DecidableEq, Repr

structure Acceptor where
  /-- The descriptor of the socket. -/
  acceptSocket_ : Nat
  acceptChannel_ : Channel
  /-- Whether `newConnectionCallback_` is set. -/
  newConnectionCallback_ : Bool
  listening_ : Bool
deriving DecidableEq, Repr

namespace Acceptor

/-- The constructor, and the callback the owner sets. -/
def new (acceptSocket : Nat) (newConnectionCallback : Bool) : Acceptor where
  acceptSocket_ := acceptSocket
  acceptChannel_ := .new
  newConnectionCallback_ := newConnectionCallback
  listening_ := false

def listen (a : Acceptor) : Except PollerFault Acceptor := do
  let a := { a with listening_ := true }
  let channel ← a.acceptChannel_.enableReading
  .ok { a with acceptChannel_ := channel }

/-- With the result of `accept`: a descriptor, or none. -/
def handleRead (a : Acceptor) (connfd : Option Nat) : List AcceptorEffect :=
  match connfd with
  | some connfd =>
    if a.newConnectionCallback_ then [.accept connfd, .newConnectionCallback connfd]
    else [.accept connfd, .close connfd]
  | none => []

/-! ## The laws -/

/-- The channel is in the poller from `listen` on. -/
structure Fits (a : Acceptor) : Prop where
  wf : a.acceptChannel_.Wf
  mapped : a.acceptChannel_.mapped = a.listening_

theorem new_fits (acceptSocket : Nat) (newConnectionCallback : Bool) :
    (new acceptSocket newConnectionCallback).Fits :=
  ⟨Channel.new_wf, rfl⟩

theorem Fits.listen {a : Acceptor} (h : a.Fits) : ∃ channel,
    a.listen = .ok { a with listening_ := true, acceptChannel_ := channel } ∧
      { a with listening_ := true, acceptChannel_ := channel }.Fits := by
  obtain ⟨channel, hrun, hwf, -, hnew⟩ := h.wf.setEvents (a.acceptChannel_.events_.union kReadEvent)
  exact ⟨channel, bind_eq_ok.mpr ⟨channel, hrun, rfl⟩, hwf, hwf.mapped_iff.mpr hnew⟩

end Acceptor

end Netfish

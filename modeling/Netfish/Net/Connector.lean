import Netfish.Net.Channel

/-!
# Connector

The connector as `Connector.cc` has it. What a method does outside the object is returned as a list of
effects in order; the results of system calls, the descriptor of a new socket and the id of a new timer
are arguments.
-/

set_option autoImplicit false

namespace Netfish

open Kit

/-- `Connector::States` -/
inductive ConnectorStates where
  | kDisconnected
  | kConnecting
  | kConnected
deriving DecidableEq, Repr

/-- `savedErrno` after `sockets::connect`. -/
inductive ConnectErrno where
  | zero
  | EINPROGRESS
  | EINTR
  | EISCONN
  | EAGAIN
  | EADDRINUSE
  | EADDRNOTAVAIL
  | ECONNREFUSED
  | ENETUNREACH
  | EACCES
  | EPERM
  | EAFNOSUPPORT
  | EALREADY
  | EBADF
  | EFAULT
  | ENOTSOCK
  /-- Any other one. -/
  | unexpected
deriving DecidableEq, Repr

inductive ConnectorFault where
  | poller (fault : PollerFault)
  /-- `assert(state_ == kDisconnected)` in `startInLoop` -/
  | startInLoop
  /-- `assert(!channel_)` in `connecting` -/
  | connecting
  /-- `assert(state_ == kConnecting)` in `handleError` -/
  | handleError
  /-- The assertion of `scoped_ptr` in `channel_->`. -/
  | noChannel
deriving DecidableEq, Repr

inductive ConnectorEffect where
  /-- `createNonBlockingOrDie`, which returned this descriptor. -/
  | socket (sockfd : Nat)
  /-- `sockets::close` -/
  | close (sockfd : Nat)
  /-- `loop_->runAfter` of `startInLoop`, with the delay in milliseconds. -/
  | runAfter (delayMs : Nat)
  /-- `loop_->queueInLoop` of `resetChannel`, with the descriptor of the channel. -/
  | queueResetChannel (sockfd : Nat)
  | newConnectionCallback (sockfd : Nat)
deriving DecidableEq, Repr

/-- The channel object of an attempt. -/
structure ConnectorChannel where
  fd_ : Nat
  channel : Channel
deriving DecidableEq, Repr

structure Connector where
  connect_ : Bool
  state_ : ConnectorStates
  channel_ : Option ConnectorChannel
  /-- Whether `newConnectionCallback_` is set. -/
  newConnectionCallback_ : Bool
  retryDelayMs_ : Nat
  /-- The timer of the last `retry`, by its number. -/
  timerId_ : Option Nat
deriving DecidableEq, Repr

namespace Connector

def kMaxRetryDelayMs : Nat := 30 * 1000

def kInitRetryDelayMs : Nat := 500

/-- The constructor, and the callback the owner sets. -/
def new (newConnectionCallback : Bool) : Connector where
  connect_ := false
  state_ := .kDisconnected
  channel_ := none
  newConnectionCallback_ := newConnectionCallback
  retryDelayMs_ := kInitRetryDelayMs
  timerId_ := none

/-- A method of a channel. -/
def onChannel (channel : Except PollerFault Channel) : Except ConnectorFault Channel :=
  match channel with
  | .ok channel => .ok channel
  | .error fault => .error (.poller fault)

def connecting (c : Connector) (sockfd : Nat) : Except ConnectorFault Connector := do
  let c := { c with state_ := .kConnecting }
  check .connecting (c.channel_ = none)
  let channel ← onChannel Channel.new.enableWriting
  .ok { c with channel_ := some ⟨sockfd, channel⟩ }

def retry (c : Connector) (sockfd timerId : Nat) : Connector × List ConnectorEffect :=
  let c := { c with state_ := .kDisconnected }
  if c.connect_ then
    ({ c with
        timerId_ := some timerId
        retryDelayMs_ := min (c.retryDelayMs_ * 2) kMaxRetryDelayMs },
      [.close sockfd, .runAfter c.retryDelayMs_])
  else (c, [.close sockfd])

def connect (c : Connector) (sockfd : Nat) (savedErrno : ConnectErrno) (timerId : Nat) :
    Except ConnectorFault (Connector × List ConnectorEffect) :=
  match savedErrno with
  | .zero | .EINPROGRESS | .EINTR | .EISCONN => do
    let c ← c.connecting sockfd
    .ok (c, [.socket sockfd])
  | .EAGAIN | .EADDRINUSE | .EADDRNOTAVAIL | .ECONNREFUSED | .ENETUNREACH =>
    let (c, effects) := c.retry sockfd timerId
    .ok (c, .socket sockfd :: effects)
  | .EACCES | .EPERM | .EAFNOSUPPORT | .EALREADY | .EBADF | .EFAULT | .ENOTSOCK =>
    .ok (c, [.socket sockfd, .close sockfd])
  | .unexpected => .ok (c, [.socket sockfd, .close sockfd])

def startInLoop (c : Connector) (sockfd : Nat) (savedErrno : ConnectErrno) (timerId : Nat) :
    Except ConnectorFault (Connector × List ConnectorEffect) := do
  check .startInLoop (c.state_ = .kDisconnected)
  if c.connect_ then c.connect sockfd savedErrno timerId else .ok (c, [])

/-- The result is the descriptor of the channel. -/
def removeAndResetChannel (c : Connector) :
    Except ConnectorFault (Connector × List ConnectorEffect × Nat) :=
  match c.channel_ with
  | none => .error .noChannel
  | some ⟨sockfd, channel⟩ => do
    let channel ← onChannel channel.disableAll
    let channel ← onChannel channel.removeChannel
    .ok ({ c with channel_ := some ⟨sockfd, channel⟩ }, [.queueResetChannel sockfd], sockfd)

/-- With whether `getSocketError` returns an error, and `isSelfConnect`. -/
def handleWrite (c : Connector) (err selfConnect : Bool) (timerId : Nat) :
    Except ConnectorFault (Connector × List ConnectorEffect) :=
  if c.state_ = .kConnecting then do
    let (c, effects, sockfd) ← c.removeAndResetChannel
    if err || selfConnect then
      let (c, more) := c.retry sockfd timerId
      .ok (c, effects ++ more)
    else
      let c := { c with state_ := .kConnected }
      .ok (c, effects ++
        if c.connect_ then
          if c.newConnectionCallback_ then [.newConnectionCallback sockfd] else []
        else [.close sockfd])
  else .ok (c, [])

def handleError (c : Connector) (timerId : Nat) :
    Except ConnectorFault (Connector × List ConnectorEffect) := do
  check .handleError (c.state_ = .kConnecting)
  let (c, effects, sockfd) ← c.removeAndResetChannel
  let (c, more) := c.retry sockfd timerId
  .ok (c, effects ++ more)

/-- `restart`, up to its `startInLoop`, which comes last. -/
def restart (c : Connector) : Connector :=
  { c with state_ := .kDisconnected, retryDelayMs_ := kInitRetryDelayMs, connect_ := true }

def resetChannel (c : Connector) : Connector := { c with channel_ := none }

end Connector

/-! ## The laws -/

/-- The result of `sockets::connect` starts an attempt: `connect` goes on with `connecting`. -/
def ConnectErrno.begins : ConnectErrno → Bool
  | .zero | .EINPROGRESS | .EINTR | .EISCONN => true
  | _ => false

/-- The channel of an attempt: `enableWriting` of a new one. -/
def attempting : Channel where
  events_ := kWriteEvent
  index_ := .kAdded
  mapped := true
  watched := some kWriteEvent

namespace Connector

/-- Between `connecting` and the end of the attempt the channel is watched for writing; from there on it
is out of the poller, and one `resetChannel` is queued to destroy it. -/
def Fits (c : Connector) (resets : List Nat) : Prop :=
  match c.channel_ with
  | none => resets = [] ∧ c.state_ ≠ .kConnecting
  | some ⟨sockfd, channel⟩ =>
    (c.state_ = .kConnecting ∧ resets = [] ∧ channel = attempting) ∨
      (c.state_ ≠ .kConnecting ∧ resets = [sockfd] ∧ channel = .new)

/-- The connector when it waits for a retry timer. -/
def armed (c : Connector) (timerId : Nat) : Connector :=
  { c with
    timerId_ := some timerId
    retryDelayMs_ := min (c.retryDelayMs_ * 2) kMaxRetryDelayMs }

variable {c c' : Connector} {es : List ConnectorEffect} {sockfd timerId : Nat} {e : ConnectErrno}

theorem retry_of_connect (h : c.connect_ = true) : c.retry sockfd timerId =
    ({ c with state_ := .kDisconnected }.armed timerId,
      [.close sockfd, .runAfter c.retryDelayMs_]) :=
  if_pos h

theorem retry_of_not_connect (h : ¬ c.connect_ = true) : c.retry sockfd timerId =
    ({ c with state_ := .kDisconnected }, [.close sockfd]) :=
  if_neg h

theorem retry_state : (c.retry sockfd timerId).1.state_ = .kDisconnected := by
  unfold retry
  dsimp only
  split <;> rfl

theorem connect_of_begins (he : e.begins = true) :
    c.connect sockfd e timerId = (do
      let c ← c.connecting sockfd
      .ok (c, [.socket sockfd])) := by
  cases e <;> first
    | rfl
    | cases he

/-- What `startInLoop` does. -/
inductive Started (c : Connector) (sockfd timerId : Nat) (e : ConnectErrno) :
    Connector → List ConnectorEffect → Prop
  | off (h : c.connect_ = false) : Started c sockfd timerId e c []
  | began (h : c.connect_ = true) (he : e.begins = true) : Started c sockfd timerId e
      { c with state_ := .kConnecting, channel_ := some ⟨sockfd, attempting⟩ } [.socket sockfd]
  | retried (h : c.connect_ = true) : Started c sockfd timerId e (c.armed timerId)
      [.socket sockfd, .close sockfd, .runAfter c.retryDelayMs_]
  | failed (h : c.connect_ = true) :
      Started c sockfd timerId e c [.socket sockfd, .close sockfd]

/-- `startInLoop` gets past its assertions in `kDisconnected`, unless it begins an attempt while the
channel of another one is there. -/
theorem startInLoop_spec (sockfd timerId : Nat) (hstate : c.state_ = .kDisconnected)
    (hch : c.connect_ = true → e.begins = true → c.channel_ = none) :
    ∃ c' es, c.startInLoop sockfd e timerId = .ok (c', es) ∧ c.Started sockfd timerId e c' es := by
  unfold startInLoop
  rw [check_pos hstate, ok_bind]
  split
  · next hconnect =>
    by_cases he : e.begins = true
    · have hnone := hch hconnect he
      have hrun : c.connecting sockfd = .ok
          { c with state_ := .kConnecting, channel_ := some ⟨sockfd, attempting⟩ } := by
        simp only [connecting, hnone]
        rfl
      refine ⟨_, _, ?_, .began hconnect he⟩
      rw [connect_of_begins he, hrun, ok_bind]
    · have hretry : c.retry sockfd timerId =
          (c.armed timerId, [.close sockfd, .runAfter c.retryDelayMs_]) := by
        rw [retry_of_connect hconnect, ← hstate]
      unfold connect
      split
      iterate 4 · exact absurd rfl he
      iterate 5
        · rw [hretry]
          exact ⟨_, _, rfl, .retried hconnect⟩
      iterate 8 · exact ⟨_, _, rfl, .failed hconnect⟩
  · next hconnect => exact ⟨_, _, rfl, .off (by simpa using hconnect)⟩

theorem startInLoop_fault (hstate : c.state_ ≠ .kDisconnected) :
    c.startInLoop sockfd e timerId = .error .startInLoop := by
  rw [startInLoop, check_neg hstate]
  rfl

/-- An attempt that begins while the channel of another one is there. -/
theorem startInLoop_connecting (hstate : c.state_ = .kDisconnected) (hconnect : c.connect_ = true)
    (he : e.begins = true) (hch : c.channel_ ≠ none) :
    c.startInLoop sockfd e timerId = .error .connecting := by
  have hrun : c.connecting sockfd = .error .connecting := by
    rw [connecting, check_neg hch]
    rfl
  rw [startInLoop, check_pos hstate, ok_bind, if_pos hconnect, connect_of_begins he, hrun]
  rfl

/-- What the end of an attempt does, after `removeAndResetChannel`. -/
inductive Ended (c : Connector) (sockfd timerId : Nat) : Connector → List ConnectorEffect → Prop
  | retried (h : c.connect_ = true) : Ended c sockfd timerId
      ({ c with state_ := .kDisconnected, channel_ := some ⟨sockfd, .new⟩ }.armed timerId)
      [.queueResetChannel sockfd, .close sockfd, .runAfter c.retryDelayMs_]
  | stopped (h : c.connect_ = false) : Ended c sockfd timerId
      { c with state_ := .kDisconnected, channel_ := some ⟨sockfd, .new⟩ }
      [.queueResetChannel sockfd, .close sockfd]
  | connected (h : c.connect_ = true) : Ended c sockfd timerId
      { c with state_ := .kConnected, channel_ := some ⟨sockfd, .new⟩ }
      (.queueResetChannel sockfd ::
        if c.newConnectionCallback_ then [.newConnectionCallback sockfd] else [])
  | unwanted (h : c.connect_ = false) : Ended c sockfd timerId
      { c with state_ := .kConnected, channel_ := some ⟨sockfd, .new⟩ }
      [.queueResetChannel sockfd, .close sockfd]

theorem removeAndResetChannel_spec (hch : c.channel_ = some ⟨sockfd, attempting⟩) :
    c.removeAndResetChannel = .ok ({ c with channel_ := some ⟨sockfd, .new⟩ },
      [.queueResetChannel sockfd], sockfd) := by
  simp only [removeAndResetChannel, hch]
  rfl

theorem ended_retry (hch : c.channel_ = some ⟨sockfd, .new⟩) :
    c.Ended sockfd timerId (c.retry sockfd timerId).1
      ([.queueResetChannel sockfd] ++ (c.retry sockfd timerId).2) := by
  have hsame : { c with state_ := .kDisconnected } =
      ({ c with state_ := .kDisconnected, channel_ := some ⟨sockfd, .new⟩ } : Connector) := by
    rw [← hch]
  by_cases hconnect : c.connect_ = true
  · rw [retry_of_connect hconnect, hsame]
    exact .retried hconnect
  · rw [retry_of_not_connect hconnect, hsame]
    exact .stopped (by simpa using hconnect)

/-- The end of an attempt sees the channel that `removeAndResetChannel` has left. -/
theorem Ended.of_removed (h : { c with channel_ := some ⟨sockfd, .new⟩ }.Ended sockfd timerId c' es) :
    c.Ended sockfd timerId c' es := by
  cases h with
  | retried h => exact .retried h
  | stopped h => exact .stopped h
  | connected h => exact .connected h
  | unwanted h => exact .unwanted h

theorem handleError_fault (hstate : c.state_ ≠ .kConnecting) :
    c.handleError timerId = .error .handleError := by
  rw [handleError, check_neg hstate]
  rfl

theorem handleError_spec (timerId : Nat) (hstate : c.state_ = .kConnecting)
    (hch : c.channel_ = some ⟨sockfd, attempting⟩) :
    ∃ c' es, c.handleError timerId = .ok (c', es) ∧ c.Ended sockfd timerId c' es ∧
      c'.state_ = .kDisconnected := by
  refine ⟨_, _, ?_, (ended_retry rfl).of_removed, retry_state⟩
  rw [handleError, check_pos hstate, ok_bind, removeAndResetChannel_spec hch, ok_bind]

theorem handleWrite_spec (timerId : Nat) (hstate : c.state_ = .kConnecting)
    (hch : c.channel_ = some ⟨sockfd, attempting⟩) (err selfConnect : Bool) :
    ∃ c' es, c.handleWrite err selfConnect timerId = .ok (c', es) ∧
      c.Ended sockfd timerId c' es ∧
      c'.state_ = if err || selfConnect then .kDisconnected else .kConnected := by
  rw [handleWrite, if_pos hstate, removeAndResetChannel_spec hch, ok_bind]
  dsimp only
  split
  · exact ⟨_, _, rfl, (ended_retry rfl).of_removed, retry_state⟩
  · by_cases hconnect : c.connect_ = true
    · rw [if_pos hconnect]
      exact ⟨_, _, rfl, .connected hconnect, rfl⟩
    · rw [if_neg hconnect]
      exact ⟨_, _, rfl, .unwanted (by simpa using hconnect), rfl⟩

/-- Outside an attempt the write callback does nothing. -/
theorem handleWrite_of_ne (hstate : c.state_ ≠ .kConnecting) (err selfConnect : Bool) :
    c.handleWrite err selfConnect timerId = .ok (c, []) :=
  if_neg hstate

/-- In an attempt the channel is watched and no `resetChannel` is queued. -/
theorem Fits.of_connecting {resets : List Nat} (h : c.Fits resets)
    (hstate : c.state_ = .kConnecting) :
    ∃ sockfd, c.channel_ = some ⟨sockfd, attempting⟩ ∧ resets = [] := by
  unfold Fits at h
  split at h
  · exact absurd hstate h.2
  · next sockfd channel hch =>
    rcases h with ⟨-, hresets, rfl⟩ | ⟨hno, -⟩
    · exact ⟨sockfd, hch, hresets⟩
    · exact absurd hstate hno

/-- Outside an attempt the channel is there as long as its `resetChannel` is queued. -/
theorem Fits.of_not_connecting {resets : List Nat} (h : c.Fits resets)
    (hstate : c.state_ ≠ .kConnecting) :
    (c.channel_ = none ∧ resets = []) ∨
      ∃ sockfd, c.channel_ = some ⟨sockfd, .new⟩ ∧ resets = [sockfd] := by
  unfold Fits at h
  split at h
  · next hch => exact .inl ⟨hch, h.1⟩
  · next sockfd channel hch =>
    rcases h with ⟨hyes, -⟩ | ⟨-, hresets, rfl⟩
    · exact absurd hyes hstate
    · exact .inr ⟨sockfd, hch, hresets⟩

end Connector

end Netfish

import Mathlib.Data.List.Basic
import Netfish.Net.Channel

/-!
# TcpConnection

The connection as `TcpConnection.cc` has it, less its input buffer. What a method does outside the
object is returned as a list of effects in order: bytes the kernel took, functors queued, callbacks
called. The result of a system call is an argument. `outputBuffer_` is an exact byte queue.

Each method has one law, for a connection whose channel is `Wf`.
-/

set_option autoImplicit false

namespace Netfish

open Kit

inductive StateE where
  | kConnecting
  | kConnected
  | kDisconnecting
  | kDisconnected
deriving DecidableEq, Repr

inductive ConnFault where
  | poller (fault : PollerFault)
  /-- `assert(state_ == kConnecting)` in `connectEstablished` -/
  | connectEstablished
  /-- `assert(state_ == kConnected || state_ == kDisconnecting)` in `connectDestroyed` -/
  | connectDestroyed
  /-- `assert(state_ == kConnected || state_ == kDisconnecting)` in `handleClose` -/
  | handleClose
  /-- `assert(len <= readableBytes())` in `Buffer::retrieve` -/
  | retrieve
deriving DecidableEq, Repr

/-- The result of `::write`. -/
inductive WriteResult where
  | wrote (n : Nat)
  | failed
deriving DecidableEq, Repr

/-- A count stays within the bytes offered. -/
def WriteResult.Within (len : Nat) : WriteResult → Prop
  | .wrote n => n ≤ len
  | .failed => True

instance (len : Nat) (w : WriteResult) : Decidable (w.Within len) :=
  match w with
  | .wrote n => inferInstanceAs (Decidable (n ≤ len))
  | .failed => inferInstanceAs (Decidable True)

/-- The result of `inputBuffer_.readFd`: some bytes, the end of the stream, or an error. -/
inductive ReadResult where
  | data
  | eof
  | error
deriving DecidableEq, Repr

inductive ConnEffect where
  /-- The kernel took these bytes. -/
  | write (bytes : List UInt8)
  /-- `loop_->queueInLoop(writeCompleteCallback_)` -/
  | queueWriteComplete
  /-- `socket_->shutdownWrite()` -/
  | shutdownWrite
  | closeCallback
  | messageCallback
  | connectionCallback
deriving DecidableEq, Repr

/-- Not one of the callbacks. -/
def ConnEffect.isOutput : ConnEffect → Bool
  | .write _ => true
  | .queueWriteComplete => true
  | .shutdownWrite => true
  | _ => false

/-- The bytes the kernel took, in order. -/
def wireOf (effects : List ConnEffect) : List UInt8 :=
  effects.flatMap fun
    | .write bytes => bytes
    | _ => []

@[simp] theorem wireOf_nil : wireOf [] = [] := rfl

@[simp] theorem wireOf_write (bytes : List UInt8) (es : List ConnEffect) :
    wireOf (.write bytes :: es) = bytes ++ wireOf es := rfl

/-- What the kernel has at each `shutdownWrite` of the effects, starting from `wire`. -/
def shutdownsOf (wire : List UInt8) : List ConnEffect → List (List UInt8)
  | [] => []
  | .write bytes :: es => shutdownsOf (wire ++ bytes) es
  | .shutdownWrite :: es => wire :: shutdownsOf wire es
  | _ :: es => shutdownsOf wire es

theorem shutdownsOf_eq_nil {wire : List UInt8} {es : List ConnEffect} :
    shutdownsOf wire es = [] ↔ .shutdownWrite ∉ es := by
  induction es generalizing wire with
  | nil => simp [shutdownsOf]
  | cons e es ih => cases e <;> simp [shutdownsOf, ih]

/-- Without a write the kernel has at every `shutdownWrite` what it had. -/
theorem shutdownsOf_of_silent {wire wire' : List UInt8} {es : List ConnEffect}
    (h : wireOf es = []) (hmem : wire' ∈ shutdownsOf wire es) : wire' = wire := by
  induction es generalizing wire with
  | nil => cases hmem
  | cons e es ih =>
    cases e with
    | write bytes =>
      obtain ⟨rfl, hes⟩ := List.append_eq_nil_iff.mp h
      exact (ih hes hmem).trans (List.append_nil wire)
    | shutdownWrite =>
      rcases List.mem_cons.mp hmem with rfl | hmem
      · rfl
      · exact ih h hmem
    | _ => exact ih h hmem

structure TcpConnection where
  state_ : StateE
  channel_ : Channel
  outputBuffer_ : List UInt8
  /-- Whether `messageCallback_` is set. -/
  messageCallback_ : Bool
  /-- Whether `writeCompleteCallback_` is set. -/
  writeCompleteCallback_ : Bool
deriving DecidableEq, Repr

namespace TcpConnection

/-- The constructor, and the callbacks the owner sets. -/
def new (messageCallback writeCompleteCallback : Bool) : TcpConnection where
  state_ := .kConnecting
  channel_ := .new
  outputBuffer_ := []
  messageCallback_ := messageCallback
  writeCompleteCallback_ := writeCompleteCallback

/-- Whether `shutdownWrite`, `handleClose` and so on find the connection in use. -/
def inUse (c : TcpConnection) : Bool :=
  c.state_ = .kConnected || c.state_ = .kDisconnecting

/-- A method of the channel. -/
def onChannel (c : TcpConnection) (channel : Except PollerFault Channel) :
    Except ConnFault TcpConnection :=
  match channel with
  | .ok channel => .ok { c with channel_ := channel }
  | .error fault => .error (.poller fault)

/-- `connectEstablished`, up to its callback, which comes last. -/
def connectEstablished (c : TcpConnection) :
    Except ConnFault (TcpConnection × List ConnEffect) := do
  check .connectEstablished (c.state_ = .kConnecting)
  let c := { c with state_ := .kConnected }
  let c ← c.onChannel c.channel_.enableReading
  .ok (c, [.connectionCallback])

/-- `connectDestroyed` up to its callback. -/
def beginDestroyed (c : TcpConnection) : Except ConnFault (TcpConnection × List ConnEffect) := do
  check .connectDestroyed (c.inUse = true)
  let c := { c with state_ := .kDisconnected }
  let c ← c.onChannel c.channel_.disableAll
  .ok (c, [.connectionCallback])

/-- `connectDestroyed` after its callback. -/
def endDestroyed (c : TcpConnection) : Except ConnFault TcpConnection :=
  c.onChannel c.channel_.removeChannel

def handleClose (c : TcpConnection) : Except ConnFault (TcpConnection × List ConnEffect) := do
  check .handleClose (c.inUse = true)
  let c ← c.onChannel c.channel_.disableAll
  .ok (c, [.closeCallback])

/-- Only logs. -/
def handleError (c : TcpConnection) : Except ConnFault (TcpConnection × List ConnEffect) :=
  .ok (c, [])

def handleRead (c : TcpConnection) (r : ReadResult) :
    Except ConnFault (TcpConnection × List ConnEffect) :=
  match r with
  | .data => .ok (c, if c.messageCallback_ then [.messageCallback] else [])
  | .eof => c.handleClose
  | .error => c.handleError

def shutdownInLoop (c : TcpConnection) : List ConnEffect :=
  if c.channel_.isWriting then [] else [.shutdownWrite]

/-- The direct write of `sendInLoop`: `nwrote`, and what happened. -/
def directWrite (c : TcpConnection) (message : List UInt8) (w : WriteResult) :
    Nat × List ConnEffect :=
  if c.channel_.isWriting = false ∧ c.outputBuffer_ = [] then
    match w with
    | .wrote n =>
      (n, .write (message.take n) ::
        if n < message.length then []
        else if c.writeCompleteCallback_ then [.queueWriteComplete] else [])
    | .failed => (0, [])
  else (0, [])

/-- `outputBuffer_.append`. -/
def buffered (c : TcpConnection) (rest : List UInt8) : TcpConnection :=
  { c with outputBuffer_ := c.outputBuffer_ ++ rest }

def sendInLoop (c : TcpConnection) (message : List UInt8) (w : WriteResult) :
    Except ConnFault (TcpConnection × List ConnEffect) := do
  let (nwrote, effects) := c.directWrite message w
  if nwrote < message.length then
    let c := c.buffered (message.drop nwrote)
    if c.channel_.isWriting then .ok (c, effects)
    else
      let c ← c.onChannel c.channel_.enableWriting
      .ok (c, effects)
  else .ok (c, effects)

/-- The end of `handleWrite` when the buffer is empty. -/
def outputDrained (c : TcpConnection) : Except ConnFault (TcpConnection × List ConnEffect) := do
  let c ← c.onChannel c.channel_.disableWriting
  .ok (c, (if c.writeCompleteCallback_ then [.queueWriteComplete] else []) ++
    if c.state_ = .kDisconnecting then c.shutdownInLoop else [])

/-- `handleWrite` after the kernel took `n` bytes. -/
def retrieveWritten (c : TcpConnection) (n : Nat) :
    Except ConnFault (TcpConnection × List ConnEffect) := do
  check .retrieve (n ≤ c.outputBuffer_.length)
  let written := ConnEffect.write (c.outputBuffer_.take n)
  let c := { c with outputBuffer_ := c.outputBuffer_.drop n }
  if c.outputBuffer_ = [] then
    let (c, effects) ← c.outputDrained
    .ok (c, written :: effects)
  else .ok (c, [written])

def handleWrite (c : TcpConnection) (w : WriteResult) :
    Except ConnFault (TcpConnection × List ConnEffect) :=
  if c.channel_.isWriting then
    match w with
    | .wrote n => if 0 < n then c.retrieveWritten n else .ok (c, [])
    | .failed => .ok (c, [])
  else .ok (c, [])

/-! ## The laws -/

variable {c c' : TcpConnection} {es : List ConnEffect} {w : WriteResult} {message : List UInt8}

/-- What every method leaves alone, and what it may not do. -/
structure Quiet (c c' : TcpConnection) (es : List ConnEffect) : Prop where
  state : c'.state_ = c.state_
  wf : c'.channel_.Wf
  interest : c'.channel_.events_.minus kWriteEvent = c.channel_.events_.minus kWriteEvent
  noClose : .closeCallback ∉ es

/-- What `sendInLoop` does: the message goes, whole, behind what was there, and if it had bytes and
some are left the channel is writing. -/
structure Sent (c : TcpConnection) (message : List UInt8) (c' : TcpConnection)
    (es : List ConnEffect) : Prop extends c.Quiet c' es where
  stream : wireOf es ++ c'.outputBuffer_ = c.outputBuffer_ ++ message
  noShutdown : .shutdownWrite ∉ es
  writing : message ≠ [] → c'.outputBuffer_ ≠ [] → c'.channel_.isWriting = true
  empty : message = [] → c'.outputBuffer_ = c.outputBuffer_ ∧ c'.channel_ = c.channel_
  registered : c.channel_.index_ ≠ .kNew → c'.channel_.index_ ≠ .kNew

/-- `handleWrite` sends all that is left, in `kDisconnecting`. -/
def Drains (c : TcpConnection) (w : WriteResult) : Prop :=
  c.channel_.isWriting = true ∧ c.state_ = .kDisconnecting ∧ c.outputBuffer_ ≠ [] ∧
    w = .wrote c.outputBuffer_.length

/-- What `handleWrite` does: bytes move from the buffer to the kernel, and the write side is shut
down when the buffer is drained in `kDisconnecting`, not otherwise. -/
structure Wrote (c : TcpConnection) (w : WriteResult) (c' : TcpConnection) (es : List ConnEffect) :
    Prop extends c.Quiet c' es where
  stream : wireOf es ++ c'.outputBuffer_ = c.outputBuffer_
  writing : c'.channel_.isWriting = true ∨ c'.outputBuffer_ = [] ∨ c' = c
  shutdown : .shutdownWrite ∈ es ↔ c.Drains w
  drained : c.Drains w → c'.outputBuffer_ = []
  full : ∀ wire, ∀ wire' ∈ shutdownsOf wire es, wire' = wire ++ wireOf es
  registered : c.channel_.index_ ≠ .kNew → c'.channel_.index_ ≠ .kNew

theorem onChannel_setEvents (h : c.channel_.Wf) (events : Events) :
    ∃ channel, c.onChannel (c.channel_.setEvents events) = .ok { c with channel_ := channel } ∧
      channel.Wf ∧ channel.events_ = events ∧ channel.index_ ≠ .kNew := by
  obtain ⟨channel, hrun, hwf, hev, hnew⟩ := h.setEvents events
  exact ⟨channel, by simp only [onChannel, hrun], hwf, hev, hnew⟩

theorem directWrite_stream (c : TcpConnection) (message : List UInt8) (w : WriteResult) :
    wireOf (c.directWrite message w).2 ++ (c.outputBuffer_ ++ message.drop (c.directWrite message w).1) =
      c.outputBuffer_ ++ message := by
  unfold directWrite
  split
  · next h =>
    cases w with
    | wrote n =>
      have htail : wireOf (if n < message.length then [] else
          if c.writeCompleteCallback_ then [ConnEffect.queueWriteComplete] else []) = [] := by
        split
        · rfl
        · split <;> rfl
      simp [h.2, htail]
    | failed => rfl
  · rfl

theorem directWrite_quiet (c : TcpConnection) (message : List UInt8) (w : WriteResult) :
    .closeCallback ∉ (c.directWrite message w).2 ∧ .shutdownWrite ∉ (c.directWrite message w).2 := by
  unfold directWrite
  split
  · cases w with
    | wrote n => dsimp only; split <;> [simp; split <;> simp]
    | failed => simp
  · simp

theorem sendInLoop_spec (h : c.channel_.Wf) (message : List UInt8) (w : WriteResult) :
    ∃ c' es, c.sendInLoop message w = .ok (c', es) ∧ c.Sent message c' es := by
  have hstream := directWrite_stream c message w
  obtain ⟨hclose, hshut⟩ := directWrite_quiet c message w
  unfold sendInLoop
  dsimp only
  split
  · next hlt =>
    have hne : message ≠ [] := by
      rintro rfl
      exact absurd hlt (by simp)
    split
    · next hw =>
      exact ⟨_, _, rfl, ⟨rfl, h, rfl, hclose⟩, hstream, hshut, fun _ _ => hw,
        fun h0 => absurd h0 hne, id⟩
    · have hbuf : (c.buffered (message.drop (c.directWrite message w).1)).channel_.Wf := h
      obtain ⟨channel, hrun, hwf, hev, hnew⟩ := onChannel_setEvents hbuf
        (c.channel_.events_.union kWriteEvent)
      refine ⟨_, _, bind_eq_ok.mpr ⟨_, hrun, rfl⟩, ⟨rfl, hwf, ?_, hclose⟩, hstream, hshut, ?_,
        fun h0 => absurd h0 hne, fun _ => hnew⟩
      · simp [hev]
      · intro _ _
        simp [Channel.isWriting, hev]
  · next hge =>
    have hdrop : message.drop (c.directWrite message w).1 = [] :=
      List.drop_eq_nil_of_le (Nat.le_of_not_lt hge)
    rw [hdrop, List.append_nil] at hstream
    refine ⟨_, _, rfl, ⟨rfl, h, rfl, hclose⟩, hstream, hshut, ?_, fun _ => ⟨rfl, rfl⟩, id⟩
    intro hne hout
    -- all of a message with bytes went out directly, so the buffer was empty
    unfold directWrite at hge
    split at hge
    · next hd => exact absurd hd.2 hout
    · exact absurd (List.length_pos_iff.mpr hne) hge

theorem outputDrained_spec (h : c.channel_.Wf) :
    ∃ channel es, c.outputDrained = .ok ({ c with channel_ := channel }, es) ∧ channel.Wf ∧
      channel.events_ = c.channel_.events_.minus kWriteEvent ∧ channel.index_ ≠ .kNew ∧
      wireOf es = [] ∧ .closeCallback ∉ es ∧ (.shutdownWrite ∈ es ↔ c.state_ = .kDisconnecting) := by
  obtain ⟨channel, hrun, hwf, hev, hnew⟩ := onChannel_setEvents h
    (c.channel_.events_.minus kWriteEvent)
  have hoff : channel.isWriting = false := by simp [Channel.isWriting, hev]
  refine ⟨channel, _, bind_eq_ok.mpr ⟨_, hrun, rfl⟩, hwf, hev, hnew, ?_⟩
  simp only [shutdownInLoop, hoff, Bool.false_eq_true, if_false]
  split <;> split <;> simp_all [wireOf]

theorem retrieveWritten_spec (h : c.channel_.Wf) {n : Nat} (hn : 0 < n)
    (hle : n ≤ c.outputBuffer_.length) (hw : c.channel_.isWriting = true) :
    ∃ c' es, c.retrieveWritten n = .ok (c', es) ∧ c.Wrote (.wrote n) c' es := by
  have hne : c.outputBuffer_ ≠ [] := List.length_pos_iff.mp (by omega)
  unfold retrieveWritten
  rw [check_pos hle, ok_bind]
  dsimp only
  split
  · next hempty =>
    have hlen : n = c.outputBuffer_.length := Nat.le_antisymm hle (List.drop_eq_nil_iff.mp hempty)
    have hall : c.outputBuffer_.take n = c.outputBuffer_ := hlen ▸ List.take_length
    obtain ⟨channel, es, hrun, hwf, hev, hnew, hwire, hclose, hshut⟩ :=
      outputDrained_spec (c := { c with outputBuffer_ := c.outputBuffer_.drop n }) h
    refine ⟨_, _, bind_eq_ok.mpr ⟨_, hrun, rfl⟩, ⟨rfl, hwf, by simp [hev], by simp [hclose]⟩, ?_,
      .inr (.inl hempty), ?_, fun _ => hempty, ?_, fun _ => hnew⟩
    · rw [wireOf_write, hwire, hall, hempty]
      simp
    · simp [hshut, Drains, hw, hne, hlen]
    · intro wire wire' hmem
      rw [wireOf_write, hwire, List.append_nil]
      exact shutdownsOf_of_silent hwire hmem
  · next hrest =>
    have hlt : n ≠ c.outputBuffer_.length := fun he => hrest (he ▸ List.drop_length)
    exact ⟨_, _, rfl, ⟨rfl, h, rfl, by simp⟩, by simp, .inl hw, by simp [Drains, hlt],
      fun hd => absurd (WriteResult.wrote.inj hd.2.2.2) hlt, fun _ _ => nofun, id⟩

theorem handleWrite_spec (h : c.channel_.Wf) (hw : w.Within c.outputBuffer_.length) :
    ∃ c' es, c.handleWrite w = .ok (c', es) ∧ c.Wrote w c' es := by
  have hstay : ¬ c.Drains w → c.Wrote w c [] := fun hd =>
    ⟨⟨rfl, h, rfl, List.not_mem_nil⟩, rfl, .inr (.inr rfl),
      ⟨fun hm => absurd hm List.not_mem_nil, fun hd' => absurd hd' hd⟩, fun hd' => absurd hd' hd,
      fun _ _ => nofun, id⟩
  unfold handleWrite
  split
  · next hwriting =>
    cases w with
    | failed => exact ⟨_, _, rfl, hstay fun hd => nomatch hd.2.2.2⟩
    | wrote n =>
      dsimp only
      split
      · next hn => exact retrieveWritten_spec h hn hw hwriting
      · next hn =>
        refine ⟨_, _, rfl, hstay fun hd => hn ?_⟩
        rw [WriteResult.wrote.inj hd.2.2.2]
        exact List.length_pos_iff.mpr hd.2.2.1
  · next hwriting => exact ⟨_, _, rfl, hstay fun hd => hwriting hd.1⟩

theorem directWrite_output (c : TcpConnection) (message : List UInt8) (w : WriteResult) :
    ∀ e ∈ (c.directWrite message w).2, e.isOutput = true := by
  unfold directWrite
  split
  · cases w with
    | wrote n => dsimp only; split <;> [simp [ConnEffect.isOutput]; split <;> simp [ConnEffect.isOutput]]
    | failed => simp
  · simp

/-- `send` has no effects but those of output. -/
theorem sendInLoop_output (hrun : c.sendInLoop message w = .ok (c', es)) :
    ∀ e ∈ es, e.isOutput = true := by
  have hdirect := directWrite_output c message w
  unfold sendInLoop at hrun
  dsimp only at hrun
  split at hrun
  · split at hrun
    · cases hrun
      exact hdirect
    · obtain ⟨_, -, hrun⟩ := bind_eq_ok.mp hrun
      cases hrun
      exact hdirect
  · cases hrun
    exact hdirect

theorem shutdownInLoop_output (c : TcpConnection) : ∀ e ∈ c.shutdownInLoop, e.isOutput = true := by
  unfold shutdownInLoop
  split <;> simp [ConnEffect.isOutput]

theorem outputDrained_output (hrun : c.outputDrained = .ok (c', es)) :
    ∀ e ∈ es, e.isOutput = true := by
  obtain ⟨d, -, hrun⟩ := bind_eq_ok.mp hrun
  have hshut := d.shutdownInLoop_output
  cases hrun
  intro e he
  rcases List.mem_append.mp he with he | he
  · split at he
    · rw [List.mem_singleton.mp he]
      rfl
    · cases he
  · split at he
    · exact hshut e he
    · cases he

/-- Neither has the write callback. -/
theorem handleWrite_output (hrun : c.handleWrite w = .ok (c', es)) :
    ∀ e ∈ es, e.isOutput = true := by
  unfold handleWrite at hrun
  split at hrun
  · cases w with
    | failed => cases hrun; simp
    | wrote n =>
      dsimp only at hrun
      split at hrun
      · obtain ⟨-, hrun⟩ := check_bind_eq_ok.mp hrun
        dsimp only at hrun
        split at hrun
        · obtain ⟨⟨d, ds⟩, hdrained, hrun⟩ := bind_eq_ok.mp hrun
          cases hrun
          exact List.forall_mem_cons.mpr ⟨rfl, outputDrained_output hdrained⟩
        · cases hrun
          simp [ConnEffect.isOutput]
      · cases hrun
        simp
  · cases hrun
    simp

theorem handleClose_spec (h : c.channel_.Wf) (hin : c.inUse = true) :
    ∃ channel, c.handleClose = .ok ({ c with channel_ := channel }, [.closeCallback]) ∧
      channel.Wf ∧ channel.events_ = .none ∧ channel.index_ ≠ .kNew := by
  obtain ⟨channel, hrun, hch⟩ := onChannel_setEvents h .none
  exact ⟨channel, check_bind_eq_ok.mpr ⟨hin, bind_eq_ok.mpr ⟨_, hrun, rfl⟩⟩, hch⟩

theorem connectEstablished_spec (h : c.channel_.Wf) (hs : c.state_ = .kConnecting) :
    ∃ channel, c.connectEstablished =
        .ok ({ c with state_ := .kConnected, channel_ := channel }, [.connectionCallback]) ∧
      channel.Wf ∧ channel.events_ = c.channel_.events_.union kReadEvent ∧
      channel.index_ ≠ .kNew := by
  obtain ⟨channel, hrun, hch⟩ := onChannel_setEvents (c := { c with state_ := .kConnected }) h
    (c.channel_.events_.union kReadEvent)
  exact ⟨channel, check_bind_eq_ok.mpr ⟨hs, bind_eq_ok.mpr ⟨_, hrun, rfl⟩⟩, hch⟩

theorem beginDestroyed_spec (h : c.channel_.Wf) (hin : c.inUse = true) :
    ∃ channel, c.beginDestroyed =
        .ok ({ c with state_ := .kDisconnected, channel_ := channel }, [.connectionCallback]) ∧
      channel.Wf ∧ channel.events_ = .none ∧ channel.index_ ≠ .kNew := by
  obtain ⟨channel, hrun, hch⟩ := onChannel_setEvents (c := { c with state_ := .kDisconnected }) h
    .none
  exact ⟨channel, check_bind_eq_ok.mpr ⟨hin, bind_eq_ok.mpr ⟨_, hrun, rfl⟩⟩, hch⟩

theorem endDestroyed_spec (h : c.channel_.Wf) (hnone : c.channel_.events_ = .none)
    (hnew : c.channel_.index_ ≠ .kNew) : c.endDestroyed = .ok { c with channel_ := .new } := by
  simp only [endDestroyed, onChannel, h.removeChannel hnone hnew]

end TcpConnection

end Netfish

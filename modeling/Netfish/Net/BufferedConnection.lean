import Netfish.Buffer.Room
import Netfish.Buffer.ScatterRead
import Netfish.Net.TcpConnection

/-!
# A connection and its buffers

`TcpConnection` takes `outputBuffer_` for a byte queue and leaves `inputBuffer_` out. Here is the object with
both, each a `Buffer` with its storage and indices, and with the methods that touch them as `TcpConnection.cc`
has them; the others are those of `TcpConnection`.

`bufferedConnection` makes any calls on such an object, `queuedConnection` the same calls on a connection with
two byte queues. Every run of the first is a run of the second, effect for effect; and a run of the second is
one of the first exactly when every buffer that has to take bytes has room for them, in the sense of
`Buffer.HasRoom`.
-/

set_option autoImplicit false

namespace Netfish

open Kit

inductive BufferedFault where
  | conn (fault : ConnFault)
  | buffer (fault : BufferAssertion)
deriving DecidableEq, Repr

structure BufferedConnection where
  state_ : StateE
  channel_ : Channel
  inputBuffer_ : Buffer
  outputBuffer_ : Buffer
  /-- Whether `messageCallback_` is set. -/
  messageCallback_ : Bool
  /-- Whether `writeCompleteCallback_` is set. -/
  writeCompleteCallback_ : Bool
deriving DecidableEq, Repr

/-- What `handleRead` makes of the answer of `readv`. -/
def Buffer.ReadResult.kind : Buffer.ReadResult → Netfish.ReadResult
  | .data bytes => if 0 < bytes.length then .data else .eof
  | .error _ => .error

namespace BufferedConnection

/-- The constructor, and the callbacks the owner sets. -/
def new (messageCallback writeCompleteCallback : Bool) : BufferedConnection where
  state_ := .kConnecting
  channel_ := .new
  inputBuffer_ := .new
  outputBuffer_ := .new
  messageCallback_ := messageCallback
  writeCompleteCallback_ := writeCompleteCallback

/-- The connection, its output as a byte queue. -/
def queued (c : BufferedConnection) : TcpConnection where
  state_ := c.state_
  channel_ := c.channel_
  outputBuffer_ := c.outputBuffer_.readable
  messageCallback_ := c.messageCallback_
  writeCompleteCallback_ := c.writeCompleteCallback_

/-- A method that leaves both buffers alone. -/
def onQueued (c : BufferedConnection)
    (r : Except ConnFault (TcpConnection × List ConnEffect)) :
    Except BufferedFault (BufferedConnection × List ConnEffect) :=
  match r with
  | .ok (d, effects) => .ok ({ c with state_ := d.state_, channel_ := d.channel_ }, effects)
  | .error fault => .error (.conn fault)

/-- A method of a buffer. -/
def onBuffer {α : Type} (r : Except BufferAssertion α) : Except BufferedFault α :=
  match r with
  | .ok a => .ok a
  | .error fault => .error (.buffer fault)

/-- A method of the channel. -/
def onChannel (c : BufferedConnection) (channel : Except PollerFault Channel) :
    Except BufferedFault BufferedConnection :=
  match channel with
  | .ok channel => .ok { c with channel_ := channel }
  | .error fault => .error (.conn (.poller fault))

def handleRead (c : BufferedConnection) (r : Buffer.ReadResult) :
    Except BufferedFault (BufferedConnection × List ConnEffect) := do
  let (n, input) ← onBuffer (c.inputBuffer_.readFd r)
  let c := { c with inputBuffer_ := input }
  match n with
  | .ok n =>
    if 0 < n then .ok (c, if c.messageCallback_ then [.messageCallback] else [])
    else c.onQueued c.queued.handleClose
  | .error _ => c.onQueued c.queued.handleError

/-- The direct write of `sendInLoop`: `nwrote`, and what happened. -/
def directWrite (c : BufferedConnection) (message : List UInt8) (w : WriteResult) :
    Nat × List ConnEffect :=
  if c.channel_.isWriting = false ∧ c.outputBuffer_.readableBytes = 0 then
    match w with
    | .wrote n =>
      (n, .write (message.take n) ::
        if n < message.length then []
        else if c.writeCompleteCallback_ then [.queueWriteComplete] else [])
    | .failed => (0, [])
  else (0, [])

def sendInLoop (c : BufferedConnection) (message : List UInt8) (w : WriteResult) :
    Except BufferedFault (BufferedConnection × List ConnEffect) := do
  let (nwrote, effects) := c.directWrite message w
  if nwrote < message.length then
    let output ← onBuffer (c.outputBuffer_.append (message.drop nwrote))
    let c := { c with outputBuffer_ := output }
    if c.channel_.isWriting then .ok (c, effects)
    else
      let c ← c.onChannel c.channel_.enableWriting
      .ok (c, effects)
  else .ok (c, effects)

/-- `handleWrite` after the kernel took `n` bytes. -/
def retrieveWritten (c : BufferedConnection) (n : Nat) :
    Except BufferedFault (BufferedConnection × List ConnEffect) := do
  let written := ConnEffect.write (c.outputBuffer_.readable.take n)
  let output ← onBuffer (c.outputBuffer_.retrieve n)
  let c := { c with outputBuffer_ := output }
  if c.outputBuffer_.readableBytes = 0 then
    let (c, effects) ← c.onQueued c.queued.outputDrained
    .ok (c, written :: effects)
  else .ok (c, [written])

def handleWrite (c : BufferedConnection) (w : WriteResult) :
    Except BufferedFault (BufferedConnection × List ConnEffect) :=
  if c.channel_.isWriting then
    match w with
    | .wrote n => if 0 < n then c.retrieveWritten n else .ok (c, [])
    | .failed => .ok (c, [])
  else .ok (c, [])

end BufferedConnection

/-! ## Calls -/

/-- A call of a method, with the result of its system call; or bytes that the message callback takes out of
`inputBuffer_`. -/
inductive ConnectionCall where
  | connectEstablished
  | sendInLoop (message : List UInt8) (w : WriteResult)
  /-- `setState(kDisconnecting)` in `shutdown`. -/
  | setDisconnecting
  | shutdownInLoop
  | handleRead (r : Buffer.ReadResult)
  | handleWrite (w : WriteResult)
  | handleClose
  | handleError
  | beginDestroyed
  | endDestroyed
  | retrieve (len : Nat)
  | retrieveAsString
deriving DecidableEq, Repr

/-- The calls that leave both buffers alone. -/
def TcpConnection.plainCall (c : TcpConnection) :
    ConnectionCall → Option (Except ConnFault (TcpConnection × List ConnEffect))
  | .connectEstablished => some c.connectEstablished
  | .setDisconnecting => some (.ok ({ c with state_ := .kDisconnecting }, []))
  | .shutdownInLoop => some (.ok (c, c.shutdownInLoop))
  | .handleClose => some c.handleClose
  | .handleError => some c.handleError
  | .beginDestroyed => some c.beginDestroyed
  | .endDestroyed => some (c.endDestroyed.map (·, []))
  | _ => none

/-- One call; `none` when an assertion fails, or the kernel answers what it cannot. -/
def BufferedConnection.call (c : BufferedConnection) (a : ConnectionCall) :
    Option (BufferedConnection × List ConnEffect) :=
  match a with
  | .sendInLoop message w =>
    if w.Within message.length then (c.sendInLoop message w).toOption else none
  | .handleRead r => (c.handleRead r).toOption
  | .handleWrite w =>
    if w.Within c.outputBuffer_.readableBytes then (c.handleWrite w).toOption else none
  | .retrieve len =>
    (c.inputBuffer_.retrieve len).toOption.map fun b => ({ c with inputBuffer_ := b }, [])
  | .retrieveAsString =>
    c.inputBuffer_.retrieveAsString.toOption.map fun p => ({ c with inputBuffer_ := p.2 }, [])
  | a => (c.queued.plainCall a).bind fun r => (c.onQueued r).toOption

/-- A connection with byte queues for its buffers, the input queue beside it. -/
abbrev QueuedConnection := TcpConnection × ByteQueue

def QueuedConnection.call (c : QueuedConnection) (a : ConnectionCall) :
    Option (QueuedConnection × List ConnEffect) :=
  match a with
  | .sendInLoop message w =>
    if w.Within message.length then
      (c.1.sendInLoop message w).toOption.map fun (d, es) => ((d, c.2), es)
    else none
  | .handleRead r =>
    (ByteQueue.call c.2 (.readFd r)).bind fun input =>
      (c.1.handleRead r.kind).toOption.map fun (d, es) => ((d, input), es)
  | .handleWrite w =>
    if w.Within c.1.outputBuffer_.length then
      (c.1.handleWrite w).toOption.map fun (d, es) => ((d, c.2), es)
    else none
  | .retrieve len => (ByteQueue.call c.2 (.retrieve len)).map fun input => ((c.1, input), [])
  | .retrieveAsString => (ByteQueue.call c.2 .retrieveAsString).map fun input => ((c.1, input), [])
  | a => (c.1.plainCall a).bind fun r => r.toOption.map fun (d, es) => ((d, c.2), es)

/-- Calls on one object, with the effects so far. -/
def calledObject {σ : Type} (new : σ) (call : σ → ConnectionCall → Option (σ × List ConnEffect)) :
    Machine (σ × List ConnEffect) ConnectionCall where
  init p := p = (new, [])
  step p a := (call p.1 a).map fun (c, es) => (c, p.2 ++ es)

def bufferedConnection (m w : Bool) : Machine (BufferedConnection × List ConnEffect) ConnectionCall :=
  calledObject (.new m w) BufferedConnection.call

def queuedConnection (m w : Bool) : Machine (QueuedConnection × List ConnEffect) ConnectionCall :=
  calledObject (.new m w, []) QueuedConnection.call

/-! ## The methods -/

namespace Buffer

theorem Wf.readable_eq_nil_iff {b : Buffer} (h : b.Wf) : b.readable = [] ↔ b.readableBytes = 0 := by
  rw [← h.readable_length, List.length_eq_zero_iff]

/-- A fresh buffer takes up to 1024 bytes and more than 1032. -/
theorem new_hasRoom_iff (len : Nat) : new.HasRoom len ↔ len ≤ 1024 ∨ 1032 < len := by
  rw [HasRoom, new_writableBytes, new_prependableBytes]
  unfold kInitialSize kCheapPrepend
  omega

/-- A read fits exactly when an append of its bytes does. -/
theorem readFd_ok_iff {b : Buffer} (hb : b.Wf) (bytes : List UInt8) :
    (∃ p, b.readFd (.data bytes) = .ok p) ↔ b.HasRoom bytes.length := by
  rw [← append_ok_iff hb]
  cases hread : b.readFd (.data bytes) with
  | error fault =>
    rw [(readFd_error_iff hb bytes fault).mp hread]
    exact ⟨fun ⟨_, h⟩ => (nomatch h), fun ⟨_, h⟩ => (nomatch h)⟩
  | ok p =>
    obtain ⟨-, c, happend, -⟩ := readFd_ok hb hread
    exact ⟨fun _ => ⟨c, happend⟩, fun _ => ⟨p, rfl⟩⟩

end Buffer

namespace TcpConnection

variable {c d : TcpConnection} {es : List ConnEffect} {a : ConnectionCall}

/-- A call that leaves the buffers alone changes the state and the channel at most. -/
structure Plain (c d : TcpConnection) : Prop where
  wf : d.channel_.Wf
  same : d = { c with state_ := d.state_, channel_ := d.channel_ }

theorem handleClose_plain (h : c.channel_.Wf) (hrun : c.handleClose = .ok (d, es)) : c.Plain d := by
  obtain ⟨hin, -⟩ := check_bind_eq_ok.mp hrun
  obtain ⟨channel, hclose, hwf, -⟩ := handleClose_spec h hin
  cases hrun.symm.trans hclose
  exact ⟨hwf, rfl⟩

theorem plainCall_plain (h : c.channel_.Wf) (ha : c.plainCall a = some (.ok (d, es))) : c.Plain d := by
  cases a with
  | connectEstablished =>
    have hrun := Option.some.inj ha
    obtain ⟨hstate, -⟩ := check_bind_eq_ok.mp hrun
    obtain ⟨channel, hest, hwf, -⟩ := connectEstablished_spec h hstate
    cases hrun.symm.trans hest
    exact ⟨hwf, rfl⟩
  | setDisconnecting | shutdownInLoop | handleError =>
    cases ha
    exact ⟨h, rfl⟩
  | handleClose => exact handleClose_plain h (Option.some.inj ha)
  | beginDestroyed =>
    have hrun := Option.some.inj ha
    obtain ⟨hin, -⟩ := check_bind_eq_ok.mp hrun
    obtain ⟨channel, hbegin, hwf, -⟩ := beginDestroyed_spec h hin
    cases hrun.symm.trans hbegin
    exact ⟨hwf, rfl⟩
  | endDestroyed =>
    obtain ⟨d', hend, heq⟩ := map_eq_ok.mp (Option.some.inj ha)
    cases heq
    unfold endDestroyed onChannel at hend
    split at hend
    · next channel hrun =>
      cases hend
      exact ⟨h.of_removeChannel hrun, rfl⟩
    · cases hend
  | _ => cases ha

end TcpConnection

namespace BufferedConnection

variable {c c' : BufferedConnection} {es : List ConnEffect} {message : List UInt8} {w : WriteResult}

structure Wf (c : BufferedConnection) : Prop where
  channel : c.channel_.Wf
  input : c.inputBuffer_.Wf
  output : c.outputBuffer_.Wf

theorem new_wf (m w : Bool) : (new m w).Wf := ⟨Channel.new_wf, Buffer.new_wf, Buffer.new_wf⟩

/-- The object for its user: a connection with byte queues. -/
def view (c : BufferedConnection) : QueuedConnection := (c.queued, c.inputBuffer_.readable)

theorem new_view (m w : Bool) : (new m w).view = (.new m w, []) := by
  have hnew : Buffer.new.readable = [] := Buffer.new_readable
  simp only [view, queued, new, hnew]
  rfl

/-- What a method of the object returns, against the same method on the queue. -/
structure Returns (c c' : BufferedConnection) (es : List ConnEffect)
    (r : Except BufferedFault (BufferedConnection × List ConnEffect))
    (q : Except ConnFault (TcpConnection × List ConnEffect)) : Prop where
  run : r = .ok (c', es)
  queue : q = .ok (c'.queued, es)
  wf : c'.Wf
  input : c'.inputBuffer_ = c.inputBuffer_

/-- A method that leaves the buffers alone. -/
theorem onQueued_returns (h : c.Wf) {q : Except ConnFault (TcpConnection × List ConnEffect)}
    {d : TcpConnection} (hq : q = .ok (d, es)) (hplain : c.queued.Plain d) :
    ∃ c', c.Returns c' es (c.onQueued q) q ∧ c'.queued = d := by
  subst hq
  refine ⟨{ c with state_ := d.state_, channel_ := d.channel_ }, ⟨rfl, ?_, ?_, rfl⟩, ?_⟩
  · rw [hplain.same]
    rfl
  · exact ⟨hplain.wf, h.input, h.output⟩
  · exact hplain.same.symm

theorem directWrite_queued (h : c.Wf) (message : List UInt8) (w : WriteResult) :
    c.queued.directWrite message w = c.directWrite message w := by
  have hempty : c.queued.outputBuffer_ = [] ↔ c.outputBuffer_.readableBytes = 0 :=
    h.output.readable_eq_nil_iff
  unfold TcpConnection.directWrite directWrite
  simp only [hempty]
  rfl

/-! ### `sendInLoop` -/

/-- With room for what the kernel did not take, `sendInLoop` is that of the queue. -/
theorem sendInLoop_returns (h : c.Wf)
    (hroom : c.outputBuffer_.HasRoom (message.length - (c.directWrite message w).1)) :
    ∃ c' es, c.Returns c' es (c.sendInLoop message w) (c.queued.sendInLoop message w) := by
  have hdirect := directWrite_queued h message w
  unfold sendInLoop TcpConnection.sendInLoop
  rw [hdirect]
  dsimp only
  by_cases hlt : (c.directWrite message w).1 < message.length
  · rw [← List.length_drop] at hroom
    obtain ⟨output, happend⟩ := (Buffer.append_ok_iff h.output _).mpr hroom
    obtain ⟨hwf, hread⟩ := Buffer.append_spec h.output happend
    have hbuffered : c.queued.buffered (message.drop (c.directWrite message w).1) =
        { c with outputBuffer_ := output }.queued := by
      simp only [queued, TcpConnection.buffered, hread]
    rw [if_pos hlt, if_pos hlt, happend, hbuffered]
    simp only [onBuffer, ok_bind]
    by_cases hwriting : c.channel_.isWriting = true
    · have hwriting' : { c with outputBuffer_ := output }.queued.channel_.isWriting = true := hwriting
      rw [if_pos hwriting, if_pos hwriting']
      exact ⟨_, _, rfl, rfl, ⟨h.channel, h.input, hwf⟩, rfl⟩
    · have hwriting' : ¬ { c with outputBuffer_ := output }.queued.channel_.isWriting = true := hwriting
      obtain ⟨channel, hrun, hch, -⟩ := h.channel.setEvents (c.channel_.events_.union kWriteEvent)
      have henable : c.channel_.enableWriting = .ok channel := hrun
      have henable' : { c with outputBuffer_ := output }.queued.channel_.enableWriting =
          .ok channel := hrun
      rw [if_neg hwriting, if_neg hwriting', henable, henable']
      exact ⟨{ c with outputBuffer_ := output, channel_ := channel }, _, rfl, rfl,
        ⟨hch, h.input, hwf⟩, rfl⟩
  · rw [if_neg hlt, if_neg hlt]
    exact ⟨c, _, rfl, rfl, h, rfl⟩

/-- Without it an assertion of the buffer fails. -/
theorem sendInLoop_aborts (h : c.Wf)
    (hroom : ¬ c.outputBuffer_.HasRoom (message.length - (c.directWrite message w).1)) :
    ∃ fault, c.sendInLoop message w = .error (.buffer fault) := by
  have hlt : (c.directWrite message w).1 < message.length := by
    by_contra hge
    apply hroom
    left
    omega
  unfold sendInLoop
  dsimp only
  rw [if_pos hlt]
  cases happend : c.outputBuffer_.append (message.drop (c.directWrite message w).1) with
  | error fault => exact ⟨fault, rfl⟩
  | ok output =>
    refine absurd ?_ hroom
    rw [← List.length_drop]
    exact (Buffer.append_ok_iff h.output _).mp ⟨output, happend⟩

/-! ### `handleWrite` -/

theorem retrieveWritten_returns (h : c.Wf) {n : Nat} (hle : n ≤ c.outputBuffer_.readableBytes) :
    ∃ c' es, c.Returns c' es (c.retrieveWritten n) (c.queued.retrieveWritten n) := by
  obtain ⟨output, hretrieve⟩ : ∃ output, c.outputBuffer_.retrieve n = .ok output :=
    ⟨_, Buffer.retrieve_eq_ok.mpr ⟨hle, rfl⟩⟩
  obtain ⟨hwf, hread⟩ := Buffer.retrieve_spec h.output hretrieve
  have hlen : n ≤ c.queued.outputBuffer_.length := by
    show n ≤ c.outputBuffer_.readable.length
    rw [h.output.readable_length]
    exact hle
  have hqueued : { c.queued with outputBuffer_ := c.queued.outputBuffer_.drop n } =
      { c with outputBuffer_ := output }.queued := by
    simp only [queued, hread]
  have hd : { c with outputBuffer_ := output }.Wf := ⟨h.channel, h.input, hwf⟩
  have hempty : c.queued.outputBuffer_.drop n = [] ↔ output.readableBytes = 0 := by
    rw [← hwf.readable_eq_nil_iff, hread]
    rfl
  unfold retrieveWritten TcpConnection.retrieveWritten
  rw [hretrieve, check_pos hlen, ok_bind]
  simp only [onBuffer, ok_bind]
  rw [hqueued]
  by_cases hout : output.readableBytes = 0
  · rw [if_pos hout, if_pos (hempty.mpr hout)]
    obtain ⟨channel, es, hrun, hch, -⟩ :=
      TcpConnection.outputDrained_spec (c := { c with outputBuffer_ := output }.queued) hd.channel
    obtain ⟨c', hret, -⟩ := onQueued_returns hd hrun ⟨hch, rfl⟩
    rw [hret.run, hret.queue]
    exact ⟨c', _, rfl, rfl, hret.wf, hret.input⟩
  · rw [if_neg hout, if_neg (mt hempty.mp hout)]
    exact ⟨_, _, rfl, rfl, hd, rfl⟩

theorem handleWrite_returns (h : c.Wf) (hw : w.Within c.outputBuffer_.readableBytes) :
    ∃ c' es, c.Returns c' es (c.handleWrite w) (c.queued.handleWrite w) := by
  unfold handleWrite TcpConnection.handleWrite
  show ∃ c' es, c.Returns c' es _ (if c.channel_.isWriting then _ else _)
  split
  · cases w with
    | failed => exact ⟨c, _, rfl, rfl, h, rfl⟩
    | wrote n =>
      dsimp only
      split
      · exact retrieveWritten_returns h hw
      · exact ⟨c, _, rfl, rfl, h, rfl⟩
  · exact ⟨c, _, rfl, rfl, h, rfl⟩

/-! ### `handleRead` -/

/-- With room for what `readv` delivers, `handleRead` is that of the queue with the bytes in the buffer. -/
theorem handleRead_eq (h : c.Wf) (r : Buffer.ReadResult)
    (hroom : ∀ bytes, r = .data bytes → c.inputBuffer_.HasRoom bytes.length) :
    ∃ input, input.Wf ∧
      ByteQueue.call c.inputBuffer_.readable (.readFd r) = some input.readable ∧
      c.handleRead r = onQueued { c with inputBuffer_ := input } (c.queued.handleRead r.kind) := by
  cases r with
  | error errno => exact ⟨c.inputBuffer_, h.input, rfl, rfl⟩
  | data bytes =>
    obtain ⟨⟨n, input⟩, hread⟩ := (Buffer.readFd_ok_iff h.input bytes).mpr (hroom bytes rfl)
    obtain ⟨hwf, hbytes, rfl⟩ := Buffer.readFd_data_spec h.input hread
    refine ⟨input, hwf, congrArg some hbytes.symm, ?_⟩
    unfold handleRead Buffer.ReadResult.kind
    rw [hread]
    simp only [onBuffer, ok_bind]
    split <;> rfl

theorem handleRead_aborts (h : c.Wf) {bytes : List UInt8}
    (hroom : ¬ c.inputBuffer_.HasRoom bytes.length) :
    ∃ fault, c.handleRead (.data bytes) = .error (.buffer fault) := by
  cases hread : c.inputBuffer_.readFd (.data bytes) with
  | ok p => exact absurd ((Buffer.readFd_ok_iff h.input bytes).mp ⟨p, hread⟩) hroom
  | error fault =>
    unfold handleRead
    rw [hread]
    exact ⟨fault, rfl⟩

end BufferedConnection

namespace TcpConnection

/-- Reading touches the connection only at the end of the stream. -/
theorem handleRead_plain {c d : TcpConnection} {es : List ConnEffect} (h : c.channel_.Wf) {r : ReadResult}
    (hrun : c.handleRead r = .ok (d, es)) : c.Plain d := by
  cases r with
  | eof => exact handleClose_plain h hrun
  | data | error =>
    cases hrun
    exact ⟨h, rfl⟩

end TcpConnection

/-! ## One call -/

namespace BufferedConnection

variable {c c' : BufferedConnection} {es : List ConnEffect} {a : ConnectionCall}

/-- The buffer that the call appends to has room for the bytes. -/
def HasRoomFor (c : BufferedConnection) : ConnectionCall → Prop
  | .sendInLoop message w => c.outputBuffer_.HasRoom (message.length - (c.directWrite message w).1)
  | .handleRead (.data bytes) => c.inputBuffer_.HasRoom bytes.length
  | _ => True

/-- Two results of a call agree: both there, or both not. -/
structure Agrees (r : Option (BufferedConnection × List ConnEffect))
    (q : Option (QueuedConnection × List ConnEffect)) : Prop where
  wf : ∀ p, r = some p → p.1.Wf
  eq : r.map (fun p => (p.1.view, p.2)) = q

/-- Neither is there. -/
theorem agrees_none : Agrees none none where
  wf _ hp := by cases hp
  eq := rfl

theorem agrees_of_returns {r : Except BufferedFault (BufferedConnection × List ConnEffect)}
    {q : Except ConnFault (TcpConnection × List ConnEffect)} (h : c.Returns c' es r q) :
    Agrees r.toOption (q.toOption.map fun (d, es) => ((d, c.inputBuffer_.readable), es)) := by
  rw [h.run, h.queue, ← h.input]
  refine ⟨?_, rfl⟩
  rintro p hp
  cases hp
  exact h.wf

/-- A method that leaves the buffers alone fails as it does on the queue. -/
theorem agrees_onQueued (h : c.Wf) {q : Except ConnFault (TcpConnection × List ConnEffect)}
    (hplain : ∀ d es, q = .ok (d, es) → c.queued.Plain d) :
    Agrees (c.onQueued q).toOption
      (q.toOption.map fun (d, es) => ((d, c.inputBuffer_.readable), es)) := by
  cases q with
  | error fault => exact agrees_none
  | ok p =>
    obtain ⟨c', hret, -⟩ := onQueued_returns h rfl (hplain p.1 p.2 rfl)
    exact agrees_of_returns hret

theorem plainCall_agrees (h : c.Wf) {q : Except ConnFault (TcpConnection × List ConnEffect)}
    (ha : c.queued.plainCall a = some q) : Agrees (c.onQueued q).toOption
      (q.toOption.map fun (d, es) => ((d, c.inputBuffer_.readable), es)) := by
  refine agrees_onQueued h ?_
  rintro d es rfl
  exact TcpConnection.plainCall_plain h.channel ha

/-- With room, a call is the call on the queues. -/
theorem call_agrees (h : c.Wf) (hroom : c.HasRoomFor a) : Agrees (c.call a) (c.view.call a) := by
  cases a with
  | sendInLoop message w =>
    obtain ⟨c', es, hret⟩ := sendInLoop_returns h hroom
    simp only [call, QueuedConnection.call]
    split
    · exact agrees_of_returns hret
    · exact agrees_none
  | handleRead r =>
    obtain ⟨input, hwf, hqueue, hrun⟩ := handleRead_eq h r fun bytes hr => by subst hr; exact hroom
    simp only [call, QueuedConnection.call, view, hrun, hqueue, Option.bind_some]
    exact agrees_onQueued (c := { c with inputBuffer_ := input }) ⟨h.channel, hwf, h.output⟩
      fun d es hq => TcpConnection.handleRead_plain h.channel hq
  | handleWrite w =>
    have hlen : c.queued.outputBuffer_.length = c.outputBuffer_.readableBytes := h.output.readable_length
    simp only [call, QueuedConnection.call, view, hlen]
    split
    · next hw =>
      obtain ⟨c', es, hret⟩ := handleWrite_returns h hw
      exact agrees_of_returns hret
    · exact agrees_none
  | retrieve len =>
    simp only [call, QueuedConnection.call, view, ByteQueue.call, ByteQueue.dropFront,
      h.input.readable_length]
    by_cases hle : len ≤ c.inputBuffer_.readableBytes
    · have hrun := Buffer.retrieve_eq_ok.mpr ⟨hle, rfl⟩
      obtain ⟨hwf, hread⟩ := Buffer.retrieve_spec h.input hrun
      rw [hrun, if_pos hle, ← hread]
      refine ⟨?_, rfl⟩
      rintro p hp
      cases hp
      exact ⟨h.channel, hwf, h.output⟩
    · rw [if_neg hle, Buffer.retrieve, check_neg hle]
      exact agrees_none
  | retrieveAsString =>
    obtain ⟨b, hb⟩ := c.inputBuffer_.retrieveAll_ok
    obtain ⟨hwf, hread⟩ := Buffer.retrieveAll_spec h.input hb
    have hrun := Buffer.retrieveAsString_eq_ok.mpr ⟨rfl, hb⟩
    simp only [call, QueuedConnection.call, view, ByteQueue.call, hrun]
    rw [← hread]
    refine ⟨?_, rfl⟩
    rintro p hp
    cases hp
    exact ⟨h.channel, hwf, h.output⟩
  | connectEstablished => exact plainCall_agrees (a := .connectEstablished) h rfl
  | setDisconnecting => exact plainCall_agrees (a := .setDisconnecting) h rfl
  | shutdownInLoop => exact plainCall_agrees (a := .shutdownInLoop) h rfl
  | handleClose => exact plainCall_agrees (a := .handleClose) h rfl
  | handleError => exact plainCall_agrees (a := .handleError) h rfl
  | beginDestroyed => exact plainCall_agrees (a := .beginDestroyed) h rfl
  | endDestroyed => exact plainCall_agrees (a := .endDestroyed) h rfl

/-- Without room there is no step. -/
theorem call_aborts (h : c.Wf) (hroom : ¬ c.HasRoomFor a) : c.call a = none := by
  cases a with
  | sendInLoop message w =>
    obtain ⟨fault, hrun⟩ := sendInLoop_aborts h hroom
    simp only [call, hrun]
    split <;> rfl
  | handleRead r =>
    cases r with
    | error errno => exact absurd trivial hroom
    | data bytes =>
      obtain ⟨fault, hrun⟩ := handleRead_aborts h hroom
      simp only [call, hrun]
      rfl
  | _ => exact absurd trivial hroom

/-- The first read of a connection aborts when it delivers a few bytes more than a fresh buffer has room for. -/
theorem first_read_aborts_iff (h : c.Wf) (hin : c.queued.inUse = true) (hnew : c.inputBuffer_ = .new)
    (bytes : List UInt8) :
    c.call (.handleRead (.data bytes)) = none ↔ 1024 < bytes.length ∧ bytes.length ≤ 1032 := by
  have hiff := Buffer.new_hasRoom_iff bytes.length
  rw [← hnew] at hiff
  by_cases hroom : c.inputBuffer_.HasRoom bytes.length
  · obtain ⟨input, hwf, -, hrun⟩ := handleRead_eq h (.data bytes) fun _ hr => by cases hr; exact hroom
    have hsome : ∃ p, c.queued.handleRead (Buffer.ReadResult.data bytes).kind = .ok p := by
      by_cases hlen : 0 < bytes.length
      · exact ⟨_, by rw [Buffer.ReadResult.kind, if_pos hlen]; rfl⟩
      · obtain ⟨channel, hclose, -⟩ := TcpConnection.handleClose_spec (c := c.queued) h.channel hin
        exact ⟨_, by rw [Buffer.ReadResult.kind, if_neg hlen]; exact hclose⟩
    obtain ⟨p, hp⟩ := hsome
    rw [hp] at hrun
    simp only [call, hrun, onQueued]
    exact ⟨fun hnone => (nomatch hnone), fun hlen => by have := hiff.mp hroom; omega⟩
  · rw [call_aborts (a := .handleRead (.data bytes)) h hroom]
    refine ⟨fun _ => ?_, fun _ => rfl⟩
    have hno := mt hiff.mpr hroom
    omega

end BufferedConnection

/-! ## Every run -/

variable {m w : Bool} {p p' : BufferedConnection × List ConnEffect} {a : ConnectionCall}

/-- A step is the step of the queues. -/
theorem bufferedConnection_sim (h : p.1.Wf) (hs : (bufferedConnection m w).step p a = some p') :
    p'.1.Wf ∧ (queuedConnection m w).step (p.1.view, p.2) a = some (p'.1.view, p'.2) := by
  obtain ⟨⟨c, es⟩, hcall, rfl⟩ := Option.map_eq_some_iff.mp hs
  have hroom : p.1.HasRoomFor a := by
    by_contra hno
    cases hcall.symm.trans (BufferedConnection.call_aborts h hno)
  have hagrees := BufferedConnection.call_agrees h hroom
  refine ⟨hagrees.wf (c, es) hcall, ?_⟩
  have heq := hagrees.eq
  rw [hcall] at heq
  simp only [queuedConnection, calledObject, ← heq, Option.map_some]

/-- It is taken when the queues take it and there is room. -/
theorem bufferedConnection_fits (h : p.1.Wf) : ((bufferedConnection m w).step p a).isSome ↔
    ((queuedConnection m w).step (p.1.view, p.2) a).isSome ∧ p.1.HasRoomFor a := by
  simp only [bufferedConnection, queuedConnection, calledObject, Option.isSome_map]
  by_cases hroom : p.1.HasRoomFor a
  · rw [← (BufferedConnection.call_agrees h hroom).eq, Option.isSome_map]
    exact ⟨fun hs => ⟨hs, hroom⟩, And.left⟩
  · rw [BufferedConnection.call_aborts h hroom]
    exact ⟨fun hs => (nomatch hs), fun hs => absurd hs.2 hroom⟩

/-- **The buffers of a connection are byte queues.** Every run of calls on a new connection with its two
buffers is the run of the same calls on a connection with byte queues: the same bytes written, callbacks
called and functors queued in the same order, and the readable bytes of the buffers are the queues. -/
theorem bufferedConnection_refines {cs : List ConnectionCall} {p : BufferedConnection × List ConnEffect}
    (h : (bufferedConnection m w).run (.new m w, []) cs = some p) :
    (queuedConnection m w).run ((.new m w, []), []) cs =
      some ((p.1.queued, p.1.inputBuffer_.readable), p.2) := by
  have hsim := Machine.run_simulates (N := queuedConnection m w)
    (fun p : BufferedConnection × List ConnEffect => p.1.Wf) (fun p => (p.1.view, p.2))
    (fun _ _ _ => bufferedConnection_sim) (BufferedConnection.new_wf m w) h
  have hrun := hsim.2
  rw [BufferedConnection.new_view] at hrun
  exact hrun

set_option maxRecDepth 20000 in
/-- Two bytes are read and one of them is retrieved; the answer is written in two parts. -/
theorem bufferedConnection_refines_echo : ∃ p : BufferedConnection × List ConnEffect,
    (queuedConnection true false).run ((.new true false, []), [])
      [.connectEstablished, .handleRead (.data [7, 8]), .retrieve 1, .sendInLoop [1, 2, 3] (.wrote 2),
        .handleWrite (.wrote 1)] = some ((p.1.queued, p.1.inputBuffer_.readable), p.2) :=
  ⟨_, bufferedConnection_refines rfl⟩

/-- **When the buffers abort a connection.** The calls that connections with byte queues run through are run
through with buffers if and only if, at every call, the buffer that takes bytes has room for them. -/
theorem bufferedConnection_aborts_iff (m w : Bool) (cs : List ConnectionCall) :
    ((bufferedConnection m w).run (.new m w, []) cs).isSome ↔
      ((queuedConnection m w).run ((.new m w, []), []) cs).isSome ∧
      (bufferedConnection m w).Meets (fun p a => p.1.HasRoomFor a) (.new m w, []) cs := by
  have hiff : ((bufferedConnection m w).run (.new m w, []) cs).isSome ↔
      ((queuedConnection m w).run ((BufferedConnection.new m w).view, []) cs).isSome ∧
      (bufferedConnection m w).Meets (fun p a => p.1.HasRoomFor a) (.new m w, []) cs :=
    Machine.run_isSome_iff (fun p : BufferedConnection × List ConnEffect => p.1.Wf)
      (fun p => (p.1.view, p.2)) (fun p a => p.1.HasRoomFor a) (fun _ _ _ => bufferedConnection_sim)
      (fun _ _ => bufferedConnection_fits) (BufferedConnection.new_wf m w)
  rwa [BufferedConnection.new_view] at hiff

end Netfish

import Netfish.Kit.Repeats
import Netfish.Net.Link
import Netfish.Net.Owners

/-!
# The ping-pong programs

`pingPongClient` sends a message when its connection is up and then sends back what comes;
`pingPongServer` sends back what comes. Each is one end of a `tcpLink`, with the callbacks of its program as
the only user code. A `Session` may be stopped at any time, from any thread, also while `onConnection` runs
and has not sent the message: `connected` and `greet` are steps of their own.

`ping_pong_echo`: the client reads back what it wrote, in order, and every stream is the message over and over.
`ping_pong_circulates`: until one end shuts down, what is between the two programs is always the whole message,
rotated by what the client has read, wherever its bytes are. `ping_pong_runs_on`: some of them are in a place
from which they are going to move.
-/

set_option autoImplicit false

namespace Netfish

open Kit

universe u

/-- The counters of a `Session`. -/
structure Session where
  bytesRead_ : Nat
  bytesWritten_ : Nat
  messagesRead_ : Nat
deriving DecidableEq, Repr

def Session.new : Session := ⟨0, 0, 0⟩

/-- The counting in `Session::onMessage`. -/
def Session.onMessage (s : Session) (readableBytes : Nat) : Session where
  messagesRead_ := s.messagesRead_ + 1
  bytesRead_ := s.bytesRead_ + readableBytes
  bytesWritten_ := s.bytesWritten_ + readableBytes

/-- A step that only the loop's thread takes. -/
def ConnAct.inLoop {T : Type u} : ConnAct T → Bool
  | .sendTest o _ | .shutTest o | .shutSet o => o.isNone
  | .sendPush _ | .shutPush _ | .queueDestroyed => false
  | _ => true

def PeerAct.inLoop {T : Type u} : PeerAct T → Bool
  | .conn a => a.inLoop
  | .close => false
  | _ => true

/-- A step the callbacks of the programs take. -/
def PeerAct.byCallback {T : Type u} : PeerAct T → Bool
  | .conn (.sendTest ..) => true
  | .conn .connectEstablished => true
  | .retrieve _ => true
  | _ => false

/-- `TcpConnection::shutdown` is called. -/
def PeerAct.callsShutdown {T : Type u} : PeerAct T → Bool
  | .conn (.shutTest _) => true
  | _ => false

structure PingPong (T : Type u) where
  link : Party → Peer T
  session : Session
  /-- The client is in `onConnection`, before its `send`. -/
  inOnConnection : Bool

inductive PingPongAct (T : Type u) where
  /-- `connectEstablished`, with `onConnection` up to the `send`. -/
  | connected (i : Party)
  /-- `conn->send(owner_->message())` -/
  | greet
  | onMessage (i : Party)
  /-- What is not in a callback. -/
  | link (a : Party × PeerAct T)

namespace PingPong

variable {T : Type u}

/-- A callback is running, or about to, that has to be done before the loop's thread goes on. -/
def inCallback (s : PingPong T) (i : Party) : Bool :=
  !(s.link i).inputBuffer_.readable.isEmpty || (i = .client && s.inOnConnection)

/-- The steps outside the callbacks. Only the client shuts down, in `Session::stop`. -/
def allows (s : PingPong T) (a : Party × PeerAct T) : Bool :=
  !a.2.byCallback && (!a.2.callsShutdown || a.1 = .client) && (!a.2.inLoop || !s.inCallback a.1)

variable [DecidableEq T]

/-- `retrieveAsString` and `send` in either `onMessage`; the client counts. -/
def onMessage (s : PingPong T) (i : Party) : Option (PingPong T) :=
  let buf := (s.link i).inputBuffer_
  ((tcpLink T).run s.link [(i, .retrieve buf.readableBytes), (i, .conn (.sendTest none buf.readable))]).map
    fun link => { s with
      link, session := if i = .client then s.session.onMessage buf.readableBytes else s.session }

def step (message : List UInt8) (s : PingPong T) : PingPongAct T → Option (PingPong T)
  | .connected i =>
    ((tcpLink T).step s.link (i, .conn .connectEstablished)).map fun link =>
      { s with link, inOnConnection := s.inOnConnection || i = .client }
  | .greet =>
    if s.inOnConnection then
      ((tcpLink T).step s.link (.client, .conn (.sendTest none message))).map fun link =>
        { s with link, inOnConnection := false }
    else none
  | .onMessage i =>
    if (s.link i).inputBuffer_.readable ≠ [] ∧ ¬ (i = .client ∧ s.inOnConnection = true) then s.onMessage i
    else none
  | .link a =>
    if s.allows a then ((tcpLink T).step s.link a).map fun link => { s with link } else none

end PingPong

/-- The two programs, the client with this message. Both have a message callback, and none has one for
`writeComplete`. -/
def pingPong (T : Type u) [DecidableEq T] (message : List UInt8) : Machine (PingPong T) (PingPongAct T) where
  init s := s = ⟨fun _ => .start true false, .new, false⟩
  step := PingPong.step message

/-! ## One end -/

namespace ConnState

variable {T : Type u} [DecidableEq T] {s s' : ConnState T} {a : ConnAct T}

/-- Neither `send` nor `connectEstablished`. -/
theorem apart_of_step (hwf : s.conn.channel_.Wf) (ha : (PeerAct.conn a).byCallback = false)
    (hs : s.step a = some s') :
    s'.accepted = s.accepted ∧ (s'.conn.state_ = .kConnected → s.conn.state_ = .kConnected) := by
  cases step_move hwf hs with
  | accept | connectEstablished => cases ha
  | sendHere _ hsent | runSend _ _ hsent =>
    rw [perform_eq]
    exact ⟨rfl, fun h => hsent.state.symm.trans h⟩
  | callWrite _ hwrote =>
    rw [perform_eq]
    exact ⟨rfl, fun h => hwrote.state.symm.trans h⟩
  | shutHere | runShutdown =>
    rw [perform_eq]
    exact ⟨rfl, id⟩
  | shutSet | beginDestroyed => exact ⟨rfl, nofun⟩
  | _ => exact ⟨rfl, id⟩

/-- A `send` that is accepted, or not. -/
theorem sendTest_of_step {o : Option T} {message : List UInt8} (hs : s.step (.sendTest o message) = some s') :
    (s.conn.state_ = .kConnected ∧ s' = { s.setCall o (.sending message) with
      accepted := Function.update s.accepted o (s.accepted o ++ [message]) }) ∨
    (s.conn.state_ ≠ .kConnected ∧ s' = s) := by
  cases (step_moves hs).2 with
  | sendTest _ hstate => exact .inl ⟨hstate, rfl⟩
  | sendNot hstate => exact .inr ⟨hstate, rfl⟩

end ConnState

namespace Peer

section

variable {T : Type u}

/-- The bytes the program has given to `send`. -/
def sent (p : Peer T) : List UInt8 := (p.conn.accepted none).flatten

/-- The bytes between the two programs on the way to `p`, the first to come first. -/
def toCome (p other : Peer T) : List UInt8 :=
  p.inputBuffer_.readable ++ p.arriving other ++ other.conn.conn.outputBuffer_ ++
    (other.conn.calls none).message.flatten

/-- An end that sends a greeting, and then what it has taken, while it is connected. -/
structure Echoes (greeting : List UInt8) (p : Peer T) : Prop where
  alone : ∀ t, p.conn.accepted (some t) = []
  unborn : p.conn.fresh = true → p.conn.Unborn ∧ p.sent = [] ∧ p.taken = []
  echo : p.sent <+: greeting ++ p.taken
  whole : p.conn.conn.state_ = .kConnected → p.sent = greeting ++ p.taken

theorem start_echoes (m w : Bool) (greeting : List UInt8) : (start m w : Peer T).Echoes greeting where
  alone _ := rfl
  unborn _ := ⟨⟨rfl, rfl, rfl, fun _ => rfl, rfl, .inl rfl⟩, rfl, rfl⟩
  echo := List.nil_prefix
  whole := nofun

/-- The message callback runs on a connection that is not new. -/
theorem Echoes.fresh_of_inMessage {p : Peer T} {greeting : List UInt8} (h : p.Echoes greeting)
    (hmessage : p.conn.pc.inMessage = true) : p.conn.fresh = false := by
  apply Bool.eq_false_iff.mpr
  intro hfresh
  rcases (h.unborn hfresh).1.pc with hpc | hpc
  · rw [hpc] at hmessage
    cases hmessage
  · rw [hpc] at hmessage
    cases hmessage

end

variable {T : Type u} [DecidableEq T] {p p' other : Peer T} {a : PeerAct T} {greeting : List UInt8}

/-- What was given to `send` at the other end has been taken, or is to come. -/
theorem Fed.taken_append_toCome (h : p.Fed other) (hstreams : other.conn.Streams)
    (halone : ∀ t, other.conn.accepted (some t) = []) : p.taken ++ p.toCome other = other.sent := by
  rw [sent, hstreams.accepted_alone halone, List.flatten_append, ← hstreams.bytes, ← h.arriving, ← h.taken]
  simp [toCome]

/-- The kernel has only what was given to `send`. -/
theorem Fed.wire_begins (h : p.Fed other) (halone : ∀ t, p.conn.accepted (some t) = []) :
    p.conn.wire <+: p.sent := by
  rw [sent, h.streams.accepted_alone halone, List.flatten_append, ← h.streams.bytes, List.append_assoc]
  exact List.prefix_append ..

/-- A step outside the callbacks. -/
theorem step_apart (hfed : p.Fed other) (ha : a.byCallback = false) (hs : p.step other a = some p') :
    p'.taken = p.taken ∧ p'.conn.accepted = p.conn.accepted ∧
      (p'.conn.conn.state_ = .kConnected → p.conn.conn.state_ = .kConnected) ∧
      (p'.conn.fresh = true → p.conn.fresh = true ∧ (p.conn.Unborn → p'.conn.Unborn)) := by
  have hwf := hfed.streams.wf
  cases step_moves hs with
  | conn _ hconn =>
    obtain ⟨hacc, hstate⟩ := ConnState.apart_of_step hwf ha hconn
    exact ⟨rfl, hacc, hstate, fun hf => ⟨ConnState.fresh_of_step hwf hconn hf, fun h => h.step hconn hf⟩⟩
  | read _ hconn =>
    obtain ⟨hacc, hstate⟩ := ConnState.apart_of_step hwf rfl hconn
    exact ⟨rfl, hacc, hstate, fun hf => ⟨ConnState.fresh_of_step hwf hconn hf, fun h => h.step hconn hf⟩⟩
  | readEnd _ _ hconn =>
    obtain ⟨hacc, hstate⟩ := ConnState.apart_of_step hwf rfl hconn
    exact ⟨rfl, hacc, hstate, fun hf => ⟨ConnState.fresh_of_step hwf hconn hf, fun h => h.step hconn hf⟩⟩
  | retrieve => cases ha
  | abort | close => exact ⟨rfl, rfl, id, fun hf => ⟨hf, id⟩⟩

theorem Echoes.apart (h : p.Echoes greeting) (hfed : p.Fed other) (ha : a.byCallback = false)
    (hs : p.step other a = some p') : p'.Echoes greeting := by
  obtain ⟨htaken, hacc, hstate, hfresh⟩ := step_apart hfed ha hs
  have hsent : p'.sent = p.sent := by rw [sent, sent, hacc]
  refine ⟨?_, ?_, ?_, ?_⟩
  · intro t
    rw [hacc]
    exact h.alone t
  · intro hf
    obtain ⟨hf, hunborn⟩ := hfresh hf
    rw [hsent, htaken]
    exact ⟨hunborn (h.unborn hf).1, (h.unborn hf).2⟩
  · rw [hsent, htaken]
    exact h.echo
  · intro hc
    rw [hsent, htaken]
    exact h.whole (hstate hc)

/-- `connectEstablished` happens to a connection to which nothing has happened. -/
theorem connected_eq (hs : p.step other (.conn .connectEstablished) = some p') :
    p.conn.fresh = true ∧ ∃ conn, p' = { p with conn } ∧
      p.conn.step .connectEstablished = some conn := by
  cases step_moves hs with
  | conn _ hconn => exact ⟨ConnState.fresh_of_connectEstablished hconn, _, rfl, hconn⟩

/-- The connection is up, and the greeting has still to be sent. -/
theorem Echoes.connected (h : p.Echoes greeting)
    (hs : p.step other (.conn .connectEstablished) = some p') :
    p'.Echoes [] ∧ p'.conn.fresh = false ∧ p'.sent = [] ∧ p.taken = [] ∧ p'.taken = [] := by
  obtain ⟨hfresh, conn, rfl, hconn⟩ := connected_eq hs
  obtain ⟨hunborn, hsent, htaken⟩ := h.unborn hfresh
  obtain ⟨channel, hrun, -⟩ := TcpConnection.connectEstablished_spec
    (hunborn.channel ▸ Channel.new_wf) hunborn.state
  cases (ConnState.step_moves hconn).2 with
  | connectEstablished =>
    rw [hrun]
    refine ⟨⟨h.alone, nofun, ?_, ?_⟩, rfl, hsent, htaken, htaken⟩
    · show p.sent <+: _
      rw [hsent]
      exact List.nil_prefix
    · intro _
      show p.sent = [] ++ p.taken
      rw [hsent, htaken]
      rfl

/-- One more message to `send`, of an end whose connection is the same. -/
theorem Echoes.sends {q : Peer T} {message g : List UInt8} (h : p.Echoes greeting)
    (hconn : q.conn = p.conn) (hfresh : p.conn.fresh = false)
    (htaken : g ++ q.taken = greeting ++ p.taken ++ message)
    (hs : q.step other (.conn (.sendTest none message)) = some p') :
    p'.Echoes g ∧ p'.taken = q.taken ∧ p'.inputBuffer_ = q.inputBuffer_ := by
  cases step_moves hs with
  | conn _ hstep =>
    rw [hconn] at hstep
    rcases ConnState.sendTest_of_step hstep with ⟨hstate, rfl⟩ | ⟨hstate, rfl⟩
    · have hsent : List.flatten (Function.update p.conn.accepted none (p.conn.accepted none ++ [message]) none) =
          g ++ q.taken := by
        rw [Function.update_self, List.flatten_append, List.flatten_singleton, htaken]
        exact congrArg (· ++ message) (h.whole hstate)
      refine ⟨⟨?_, ?_, hsent ▸ List.prefix_rfl, fun _ => hsent⟩, rfl, rfl⟩
      · intro t
        show Function.update p.conn.accepted none (p.conn.accepted none ++ [message]) (some t) = []
        rw [Function.update_of_ne (Option.some_ne_none t)]
        exact h.alone t
      · intro hf
        cases hf.symm.trans hfresh
    · refine ⟨⟨h.alone, ?_, ?_, fun hc => absurd hc hstate⟩, rfl, rfl⟩
      · intro hf
        cases hf.symm.trans hfresh
      · show p.sent <+: g ++ q.taken
        rw [htaken]
        exact h.echo.trans (List.prefix_append ..)

/-- `retrieveAsString` takes all there is. -/
theorem retrieve_all {q : Peer T} (hfed : p.Fed other)
    (hr : p.step other (.retrieve p.inputBuffer_.readableBytes) = some q) :
    p.conn.pc.inMessage = true ∧ q.conn = p.conn ∧ q.taken = p.taken ++ p.inputBuffer_.readable ∧
      q.inputBuffer_.readable = [] := by
  have hall := hfed.input.readable_length
  cases step_moves hr with
  | retrieve hmessage hrun =>
    obtain ⟨-, hleft⟩ := Buffer.retrieve_spec hfed.input hrun
    rw [← hall, List.drop_length] at hleft
    refine ⟨hmessage, rfl, ?_, hleft⟩
    show p.taken ++ p.inputBuffer_.readable.take p.inputBuffer_.readableBytes = _
    rw [← hall, List.take_length]

/-- `onMessage` takes all there is, and sends it. -/
theorem Echoes.onMessage {q : Peer T} (h : p.Echoes greeting) (hfed : p.Fed other)
    (hr : p.step other (.retrieve p.inputBuffer_.readableBytes) = some q)
    (hs : q.step other (.conn (.sendTest none p.inputBuffer_.readable)) = some p') :
    p'.Echoes greeting ∧ p'.taken = p.taken ++ p.inputBuffer_.readable ∧ p'.inputBuffer_.readable = [] := by
  obtain ⟨hmessage, hconn, htaken, hleft⟩ := retrieve_all hfed hr
  have hmore : greeting ++ q.taken = greeting ++ p.taken ++ p.inputBuffer_.readable := by
    rw [htaken, List.append_assoc]
  obtain ⟨hechoes, htaken', hinput⟩ := h.sends hconn (h.fresh_of_inMessage hmessage) hmore hs
  exact ⟨hechoes, htaken'.trans htaken, hinput ▸ hleft⟩

end Peer

/-! ## Both programs -/

namespace PingPong

variable {T : Type u} {s s' : PingPong T} {message : List UInt8}

/-- What an end has sent, or is going to, before it has read anything. -/
def greeting (message : List UInt8) (s : PingPong T) : Party → List UInt8
  | .client => if s.inOnConnection then [] else message
  | .server => []

/-- An end that has stepped, and the other one. -/
theorem echoes_update {link : Party → Peer T} {i : Party} {p : Peer T} {g g' : Party → List UInt8}
    (h : ∀ j, (link j).Echoes (g j)) (hi : p.Echoes (g' i)) (hg : ∀ j, j ≠ i → g' j = g j) (j : Party) :
    (Function.update link i p j).Echoes (g' j) := by
  by_cases hj : j = i
  · subst hj
    rw [Function.update_self]
    exact hi
  · rw [Function.update_of_ne hj, hg j hj]
    exact h j

variable [DecidableEq T]

/-- The invariant. -/
structure Flows (message : List UInt8) (s : PingPong T) : Prop where
  fed : LinkFed s.link
  echoes : ∀ i, (s.link i).Echoes (s.greeting message i)
  greets : s.inOnConnection = true → (s.link .client).conn.fresh = false ∧ (s.link .client).taken = []
  repeats : Repeats message (s.link .client).sent
  bytesRead : s.session.bytesRead_ = (s.link .client).taken.length
  bytesWritten : s.session.bytesWritten_ = s.session.bytesRead_
  messagesRead : s.session.messagesRead_ ≤ s.session.bytesRead_

/-- Two steps of one end. -/
theorem link_run_two {link link' : Party → Peer T} {i : Party} {a b : PeerAct T}
    (h : (tcpLink T).run link [(i, a), (i, b)] = some link') :
    ∃ q p, (link i).step (link i.other) a = some q ∧ q.step (link i.other) b = some p ∧
      link' = Function.update link i p := by
  obtain ⟨mid, hs, h⟩ := Machine.run_cons_eq_some.mp h
  obtain ⟨last, hs', h⟩ := Machine.run_cons_eq_some.mp h
  cases h
  obtain ⟨q, -, hq, rfl⟩ := link_step hs
  obtain ⟨p, -, hp, rfl⟩ := link_step hs'
  rw [Function.update_self, Function.update_of_ne (Party.other_ne i)] at hp
  exact ⟨q, p, hq, hp, Function.update_idem ..⟩

/-- What a step of the programs can do. -/
inductive Moves (message : List UInt8) (s : PingPong T) : PingPongAct T → PingPong T → Prop
  | connected {i : Party} {p : Peer T}
      (hs : (s.link i).step (s.link i.other) (.conn .connectEstablished) = some p) :
      Moves message s (.connected i)
        { s with link := Function.update s.link i p, inOnConnection := s.inOnConnection || i = .client }
  | greet {p : Peer T} (hin : s.inOnConnection = true)
      (hs : (s.link .client).step (s.link .server) (.conn (.sendTest none message)) = some p) :
      Moves message s .greet { s with link := Function.update s.link .client p, inOnConnection := false }
  | onMessage {i : Party} {q p : Peer T} (hsome : (s.link i).inputBuffer_.readable ≠ [])
      (hin : i = .client → s.inOnConnection = false)
      (hr : (s.link i).step (s.link i.other) (.retrieve (s.link i).inputBuffer_.readableBytes) = some q)
      (hs : q.step (s.link i.other) (.conn (.sendTest none (s.link i).inputBuffer_.readable)) = some p) :
      Moves message s (.onMessage i) { s with
        link := Function.update s.link i p
        session := if i = .client then s.session.onMessage (s.link i).inputBuffer_.readableBytes
          else s.session }
  | link {i : Party} {a : PeerAct T} {p : Peer T} (hallows : s.allows (i, a) = true)
      (hs : (s.link i).step (s.link i.other) a = some p) :
      Moves message s (.link (i, a)) { s with link := Function.update s.link i p }

theorem step_moves {a : PingPongAct T} (h : (pingPong T message).step s a = some s') :
    Moves message s a s' := by
  cases a with
  | connected i =>
    obtain ⟨link, hs, rfl⟩ := Option.map_eq_some_iff.mp h
    obtain ⟨p, -, hp, rfl⟩ := link_step hs
    exact .connected hp
  | greet =>
    obtain ⟨hin, h⟩ := Option.ite_none_right_eq_some.mp h
    obtain ⟨link, hs, rfl⟩ := Option.map_eq_some_iff.mp h
    obtain ⟨p, -, hp, rfl⟩ := link_step hs
    exact .greet hin hp
  | onMessage i =>
    obtain ⟨⟨hsome, hin⟩, h⟩ := Option.ite_none_right_eq_some.mp h
    obtain ⟨link, hr, rfl⟩ := Option.map_eq_some_iff.mp h
    obtain ⟨q, p, hq, hp, rfl⟩ := link_run_two hr
    exact .onMessage hsome (fun hi => Bool.eq_false_iff.mpr fun hb => hin ⟨hi, hb⟩) hq hp
  | link a =>
    obtain ⟨hallows, h⟩ := Option.ite_none_right_eq_some.mp h
    obtain ⟨link, hs, rfl⟩ := Option.map_eq_some_iff.mp h
    obtain ⟨p, -, hp, rfl⟩ := link_step hs
    exact .link hallows hp

/-- A step of the programs is one of the connections, or two. -/
theorem link_of_step {a : PingPongAct T} (h : (pingPong T message).step s a = some s') :
    ∃ as, (tcpLink T).run s.link as = some s'.link := by
  cases a with
  | connected i =>
    obtain ⟨link, hs, rfl⟩ := Option.map_eq_some_iff.mp h
    exact ⟨[_], Machine.run_cons_eq_some.mpr ⟨link, hs, rfl⟩⟩
  | greet =>
    obtain ⟨-, h⟩ := Option.ite_none_right_eq_some.mp h
    obtain ⟨link, hs, rfl⟩ := Option.map_eq_some_iff.mp h
    exact ⟨[_], Machine.run_cons_eq_some.mpr ⟨link, hs, rfl⟩⟩
  | onMessage i =>
    obtain ⟨-, h⟩ := Option.ite_none_right_eq_some.mp h
    obtain ⟨link, hr, rfl⟩ := Option.map_eq_some_iff.mp h
    exact ⟨_, hr⟩
  | link a =>
    obtain ⟨-, h⟩ := Option.ite_none_right_eq_some.mp h
    obtain ⟨link, hs, rfl⟩ := Option.map_eq_some_iff.mp h
    exact ⟨[_], Machine.run_cons_eq_some.mpr ⟨link, hs, rfl⟩⟩

theorem Flows.fed_step (h : s.Flows message) {a : PingPongAct T}
    (hs : (pingPong T message).step s a = some s') : LinkFed s'.link := by
  obtain ⟨as, hr⟩ := link_of_step hs
  exact (h.fed.run hr).1

/-- What the client reads back is what it wrote. -/
theorem received_begins (hfed : LinkFed s.link) (hechoes : ∀ i, (s.link i).Echoes (s.greeting message i)) :
    (s.link .client).received <+: (s.link .client).conn.wire := by
  have hclient : (s.link .client).received <+: (s.link .server).conn.wire := (hfed .client).arrived
  have hserver : (s.link .server).received <+: (s.link .client).conn.wire := (hfed .server).arrived
  have hsent : (s.link .server).conn.wire <+: (s.link .server).sent :=
    (hfed .server).wire_begins (hechoes .server).alone
  have hecho : (s.link .server).sent <+: (s.link .server).taken := (hechoes .server).echo
  have htaken : (s.link .server).taken <+: (s.link .server).received := by
    rw [← (hfed .server).taken]
    exact List.prefix_append ..
  exact hclient.trans (hsent.trans (hecho.trans (htaken.trans hserver)))

theorem Flows.received_sent (h : s.Flows message) : (s.link .client).received <+: (s.link .client).sent :=
  (received_begins h.fed h.echoes).trans ((h.fed .client).wire_begins (h.echoes .client).alone)

/-- The step lemma. -/
theorem Flows.step (h : s.Flows message) {a : PingPongAct T}
    (hs : (pingPong T message).step s a = some s') : s'.Flows message := by
  have hfed := h.fed_step hs
  cases step_moves hs with
  | @connected i p hp =>
    obtain ⟨hechoes, hfresh, hsent, hnone, htaken⟩ := (h.echoes i).connected hp
    cases i with
    | server =>
      refine ⟨hfed, echoes_update h.echoes hechoes ?_, ?_, h.repeats, h.bytesRead, h.bytesWritten,
        h.messagesRead⟩
      · intro j hj
        cases Party.eq_other hj
        simp [greeting]
      · intro hin
        exact h.greets (by simpa using hin)
    | client =>
      refine ⟨hfed, echoes_update h.echoes ?_ ?_, ?_, ?_, ?_, h.bytesWritten, h.messagesRead⟩
      · simpa [greeting] using hechoes
      · intro j hj
        cases Party.eq_other hj
        rfl
      · intro _
        simp only [Function.update_self]
        exact ⟨hfresh, htaken⟩
      · simp only [Function.update_self]
        rw [hsent]
        exact repeats_nil message
      · simp only [Function.update_self]
        rw [htaken, h.bytesRead, hnone]
  | @greet p hin hp =>
    obtain ⟨hfresh, hnone⟩ := h.greets hin
    have hclient : (s.link .client).Echoes [] := by simpa [greeting, hin] using h.echoes .client
    obtain ⟨hechoes, htaken, -⟩ := hclient.sends (g := message) rfl hfresh (by simp [hnone]) hp
    refine ⟨hfed, echoes_update h.echoes ?_ ?_, nofun, ?_, ?_, h.bytesWritten, h.messagesRead⟩
    · exact hechoes
    · intro j hj
      cases Party.eq_other hj
      rfl
    · simp only [Function.update_self]
      have hecho := hechoes.echo
      rw [htaken, hnone, List.append_nil] at hecho
      exact (repeats_self message).of_beginning hecho
    · simp only [Function.update_self]
      rw [htaken]
      exact h.bytesRead
  | @onMessage i q p hsome hin hr hp =>
    obtain ⟨hechoes, htaken, -⟩ := (h.echoes i).onMessage (h.fed i) hr hp
    cases i with
    | server =>
      exact ⟨hfed, echoes_update h.echoes hechoes fun _ _ => rfl, h.greets, h.repeats, h.bytesRead,
        h.bytesWritten, h.messagesRead⟩
    | client =>
      have hlen := (h.fed .client).input.readable_length
      have hpos := List.length_pos_iff.mpr hsome
      refine ⟨hfed, echoes_update h.echoes hechoes fun _ _ => rfl, ?_, ?_, ?_, ?_, ?_⟩
      · intro hyes
        cases hyes.symm.trans (hin rfl)
      · simp only [Function.update_self]
        -- what it has taken now had been sent before
        have hback : p.taken <+: (s.link .client).sent := by
          rw [htaken, (h.fed .client).taken]
          exact h.received_sent
        have hecho : p.sent <+: message ++ p.taken := by
          simpa [greeting, hin] using hechoes.echo
        exact (h.repeats.of_beginning hback).append.of_beginning hecho
      · simp only [Function.update_self]
        rw [htaken, List.length_append, hlen]
        exact congrArg (· + _) h.bytesRead
      · exact congrArg (· + _) h.bytesWritten
      · have hle := h.messagesRead
        show s.session.messagesRead_ + 1 ≤ s.session.bytesRead_ + _
        omega
  | @link i a p hallows hp =>
    have ha : a.byCallback = false := by
      simp only [allows, Bool.and_eq_true, Bool.not_eq_true'] at hallows
      exact hallows.1.1
    obtain ⟨htaken, hacc, -, hfresh⟩ := Peer.step_apart (h.fed i) ha hp
    have hechoes := (h.echoes i).apart (h.fed i) ha hp
    cases i with
    | server =>
      exact ⟨hfed, echoes_update h.echoes hechoes fun _ _ => rfl, h.greets, h.repeats, h.bytesRead,
        h.bytesWritten, h.messagesRead⟩
    | client =>
      refine ⟨hfed, echoes_update h.echoes hechoes fun _ _ => rfl, ?_, ?_, ?_, h.bytesWritten,
        h.messagesRead⟩
      · intro hin
        obtain ⟨hold, hnone⟩ := h.greets hin
        simp only [Function.update_self]
        rw [htaken]
        refine ⟨Bool.eq_false_iff.mpr ?_, hnone⟩
        intro hf
        cases (hfresh hf).1.symm.trans hold
      · simp only [Function.update_self]
        rw [Peer.sent, hacc]
        exact h.repeats
      · simp only [Function.update_self]
        rw [htaken]
        exact h.bytesRead

theorem flows_of_reachable (h : (pingPong T message).Reachable s) : s.Flows message := by
  apply h.invariant (Flows message)
  · rintro s rfl
    refine ⟨linkFed_of_reachable (.start fun i => ⟨true, false, rfl⟩), fun i => Peer.start_echoes ..,
      nofun, repeats_nil message, rfl, rfl, Nat.le_refl _⟩
  · intro s a s' hflows hs
    exact hflows.step hs

/-- Every stream is the message over and over. -/
theorem Flows.wire_repeats (h : s.Flows message) (i : Party) : Repeats message (s.link i).conn.wire := by
  have hclient := h.repeats.of_beginning ((h.fed .client).wire_begins (h.echoes .client).alone)
  cases i with
  | client => exact hclient
  | server =>
    have hsent := (h.fed .server).wire_begins (h.echoes .server).alone
    have hecho : (s.link .server).sent <+: (s.link .server).taken := (h.echoes .server).echo
    have htaken : (s.link .server).taken <+: (s.link .server).received := by
      rw [← (h.fed .server).taken]
      exact List.prefix_append ..
    exact hclient.of_beginning (hsent.trans (hecho.trans (htaken.trans (h.fed .server).arrived)))

/-- What an end has taken and what is to come to it is what the other has sent. -/
theorem Flows.taken_append_toCome (h : s.Flows message) (i : Party) :
    (s.link i).taken ++ (s.link i).toCome (s.link i.other) = (s.link i.other).sent :=
  (h.fed i).taken_append_toCome (h.fed i.other).streams (h.echoes i.other).alone

/-- While both ends are connected, the message is on its way. -/
theorem Flows.circulates (h : s.Flows message) (hup : ∀ i, (s.link i).conn.conn.state_ = .kConnected)
    (hgreeted : s.inOnConnection = false) :
    (s.link .client).toCome (s.link .server) ++ (s.link .server).toCome (s.link .client) =
      message.rotate s.session.bytesRead_ := by
  have hserver : (s.link .server).sent = (s.link .server).taken := (h.echoes .server).whole (hup .server)
  have hclient : (s.link .client).sent = message ++ (s.link .client).taken := by
    simpa [greeting, hgreeted] using (h.echoes .client).whole (hup .client)
  rw [h.bytesRead]
  apply eq_rotate_of_append_eq
  calc message ++ (s.link .client).taken
      = (s.link .server).taken ++ (s.link .server).toCome (s.link .client) :=
        hclient.symm.trans (h.taken_append_toCome .server).symm
    _ = (s.link .client).taken ++ (s.link .client).toCome (s.link .server) ++
          (s.link .server).toCome (s.link .client) := by
        rw [← hserver]
        exact congrArg (· ++ _) (h.taken_append_toCome .client).symm
    _ = _ := List.append_assoc ..

end PingPong

variable {T : Type u} [DecidableEq T] {s : PingPong T} {message : List UInt8}

/-- **The echo.** In every reachable state of the two programs: what the client has received is what it wrote,
in order, as far as it has come back; the byte at place `k` of either stream is that of the message at `k`
modulo its length; and the counters of the `Session` are the bytes it has taken. -/
theorem ping_pong_echo (h : (pingPong T message).Reachable s) :
    (s.link .client).received <+: (s.link .client).conn.wire ∧
    (∀ i k b, (s.link i).conn.wire[k]? = some b → message[k % message.length]? = some b) ∧
    s.session.bytesRead_ = (s.link .client).taken.length ∧
    s.session.bytesWritten_ = s.session.bytesRead_ ∧ s.session.messagesRead_ ≤ s.session.bytesRead_ := by
  have hflows := PingPong.flows_of_reachable h
  refine ⟨PingPong.received_begins hflows.fed hflows.echoes, ?_, hflows.bytesRead, hflows.bytesWritten,
    hflows.messagesRead⟩
  intro i k b hb
  obtain ⟨hk, -⟩ := List.getElem?_eq_some_iff.mp hb
  exact ((hflows.wire_repeats i).getElem?_eq hk).symm.trans hb

/-- A round of a message of two bytes, which the server reads one by one. -/
def roundRun : List (PingPongAct Unit) :=
  [.connected .server, .connected .client, .greet, .link (.client, .conn (.sendHere (.wrote 2))),
    .link (.server, .conn (.poll { pollin := true })), .link (.server, .conn .handleEvent),
    .link (.server, .read 1), .onMessage .server, .link (.server, .conn (.sendHere (.wrote 1))),
    .link (.client, .conn (.poll { pollin := true })), .link (.client, .conn .handleEvent),
    .link (.client, .read 9), .onMessage .client, .link (.client, .conn (.sendHere .failed))]

set_option maxRecDepth 20000 in
/-- The client has one byte back, and sends it again. -/
theorem ping_pong_echo_round : ∃ s : PingPong Unit, s.session = ⟨1, 1, 1⟩ ∧
    (s.link .client).received <+: (s.link .client).conn.wire := by
  have hreach : (pingPong Unit [5, 6]).Reachable _ := ⟨_, roundRun, rfl, rfl⟩
  exact ⟨_, rfl, (ping_pong_echo hreach).1⟩

/-- **Nothing but the message circulates.** In every reachable state there are at most as many bytes between
the two programs as the message has. While both ends are connected, and the client has sent the message, the
bytes on the way to the client and then those on the way to the server, wherever they are, are exactly the
message, rotated by what the client has read. -/
theorem ping_pong_circulates (h : (pingPong T message).Reachable s) :
    ((s.link .client).toCome (s.link .server)).length +
      ((s.link .server).toCome (s.link .client)).length ≤ message.length ∧
    ((∀ i, (s.link i).conn.conn.state_ = .kConnected) → s.inOnConnection = false →
      (s.link .client).toCome (s.link .server) ++ (s.link .server).toCome (s.link .client) =
        message.rotate s.session.bytesRead_) := by
  have hflows := PingPong.flows_of_reachable h
  refine ⟨?_, hflows.circulates⟩
  have hserver := (hflows.echoes .server).echo.length_le
  have hclient := (hflows.echoes .client).echo.length_le
  have hback := congrArg List.length (hflows.taken_append_toCome .client)
  have hforth := congrArg List.length (hflows.taken_append_toCome .server)
  have hgreeting : (s.greeting message .client).length ≤ message.length := by
    show (if s.inOnConnection then [] else message).length ≤ _
    split
    · exact Nat.zero_le _
    · exact Nat.le_refl _
  have hnone : (s.greeting message .server).length = 0 := rfl
  rw [List.length_append] at hserver hclient hback hforth
  simp only [Party.other] at hback hforth
  omega

set_option maxRecDepth 20000 in
/-- One byte has not left the kernel, the other is in the client's buffer. -/
theorem ping_pong_circulates_round : ∃ s : PingPong Unit, s.session.bytesRead_ = 1 ∧
    (s.link .client).toCome (s.link .server) ++ (s.link .server).toCome (s.link .client) = [6, 5] := by
  have hreach : (pingPong Unit [5, 6]).Reachable _ := ⟨_, roundRun, rfl, rfl⟩
  exact ⟨_, rfl, (ping_pong_circulates hreach).2 (fun i => by cases i <;> rfl) rfl⟩

end Netfish

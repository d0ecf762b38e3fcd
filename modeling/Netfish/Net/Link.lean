import Netfish.Buffer.Spec
import Netfish.Net.WriteComplete

/-!
# Both ends of a connection

Two programs of this library at the ends of one TCP connection. Each end is the connection among its threads,
as it stands in `tcpConnection`, with its `inputBuffer_`; between them are the bytes that the kernel took of
one end and has not given to the other. `handleRead` takes some of them, in order, into the buffer, and the
message callback retrieves what it likes. The end of the stream is read when all the bytes have been, and the
other end has shut its write side down or closed the socket; a write after that fails.

`link_delivers` is about every interleaving of the two ends and all their threads: no byte is lost, doubled or
out of order anywhere between `sendInLoop` and the message callback of the other end. `link_end` says what the
end of the stream means.
-/

set_option autoImplicit false

namespace Netfish

open Kit

universe u

/-- The two ends. -/
inductive Party where
  | client
  | server
deriving DecidableEq, Repr

def Party.other : Party → Party
  | .client => .server
  | .server => .client

@[simp] theorem Party.other_other (i : Party) : i.other.other = i := by cases i <;> rfl

theorem Party.other_ne (i : Party) : i.other ≠ i := by cases i <;> nofun

/-- What is not one end is the other. -/
theorem Party.eq_other {i j : Party} (h : j ≠ i) : j = i.other := by
  cases i <;> cases j <;> first
    | rfl
    | exact absurd rfl h

/-- `messageCallback_` is running. -/
def ConnPc.inMessage : ConnPc → Bool
  | .event _ inMessage => inMessage
  | _ => false

structure Peer (T : Type u) where
  conn : ConnState T
  inputBuffer_ : Buffer
  /-- The assertion of `inputBuffer_` that stopped the program. -/
  aborted : Option BufferAssertion
  /-- The socket is closed: the connection object is gone. -/
  closed : Bool
  /-- History: the bytes `handleRead` took from the kernel. -/
  received : List UInt8
  /-- History: the bytes the message callback retrieved. -/
  taken : List UInt8
  /-- History: `handleRead` has found the end of the stream. -/
  ended : Bool

namespace Peer

variable {T : Type u}

def start (messageCallback writeCompleteCallback : Bool) : Peer T where
  conn := .start messageCallback writeCompleteCallback
  inputBuffer_ := .new
  aborted := none
  closed := false
  received := []
  taken := []
  ended := false

/-- The program is up and the object is there. -/
def running (p : Peer T) : Bool := p.aborted.isNone && !p.closed

/-- Nothing more is going to come from this end. -/
def silent (p : Peer T) : Bool := p.closed || !p.conn.shutdowns.isEmpty

/-- What the kernel has for `p`, of the bytes it took from the other end. -/
def arriving (p other : Peer T) : List UInt8 := other.conn.wire.drop p.received.length

end Peer

/-- A step of one end. -/
inductive PeerAct (T : Type u) where
  /-- Of the connection among its threads, apart from the reads below. -/
  | conn (a : ConnAct T)
  /-- `handleRead`, with this many bytes at most. -/
  | read (n : Nat)
  | readEnd
  /-- In the message callback. -/
  | retrieve (len : Nat)
  /-- The last pointer to the connection is dropped. -/
  | close

/-- `handleRead` with bytes or at the end of the stream. -/
def ConnAct.reads {T : Type u} : ConnAct T → Bool
  | .callRead .data => true
  | .callRead .eof => true
  | _ => false

namespace Peer

variable {T : Type u} [DecidableEq T]

/-- A step of the connection among its threads. After `shutdownWrite` the kernel takes no bytes. -/
def connStep (p : Peer T) (a : ConnAct T) : Option (Peer T) :=
  (p.conn.step a).bind fun conn =>
    if p.silent = true → conn.wire = p.conn.wire then some { p with conn } else none

/-- `handleRead` when `readv` delivers these bytes. -/
def read (p : Peer T) (bytes : List UInt8) : Option (Peer T) :=
  (p.conn.step (.callRead .data)).map fun conn =>
    match p.inputBuffer_.readFd (.data bytes) with
    | .ok (_, input) => { p with conn, inputBuffer_ := input, received := p.received ++ bytes }
    | .error fault => { p with aborted := some fault }

/-- `handleRead` at the end of the stream. -/
def readEnd (p : Peer T) : Option (Peer T) :=
  (p.conn.step (.callRead .eof)).map fun conn => { p with conn, ended := true }

/-- `retrieve` in the message callback. -/
def retrieve (p : Peer T) (len : Nat) : Option (Peer T) :=
  match p.inputBuffer_.retrieve len with
  | .ok input =>
    some { p with inputBuffer_ := input, taken := p.taken ++ p.inputBuffer_.readable.take len }
  | .error _ => none

/-- The step of one end, the other standing still. -/
def step (p other : Peer T) : PeerAct T → Option (Peer T)
  | .conn a => if a.reads then none else p.connStep a
  | .read n =>
    let bytes := (p.arriving other).take n
    if bytes ≠ [] ∧ bytes.length ≤ p.inputBuffer_.writableBytes + Buffer.kExtraSize then p.read bytes
    else none
  | .readEnd => if p.arriving other = [] ∧ other.silent then p.readEnd else none
  | .retrieve len => if p.conn.pc.inMessage ∧ p.conn.calls none = .idle then p.retrieve len else none
  | .close =>
    if p.conn.conn.state_ = .kDisconnected ∧ p.conn.pc ≠ .destroying then some { p with closed := true }
    else none

end Peer

/-- The two ends of one TCP connection. -/
def tcpLink (T : Type u) [DecidableEq T] : Machine (Party → Peer T) (Party × PeerAct T) where
  init s := ∀ i, ∃ messageCallback writeCompleteCallback,
    s i = .start messageCallback writeCompleteCallback
  step s a :=
    if (s a.1).running then ((s a.1).step (s a.1.other) a.2).map (Function.update s a.1) else none

namespace ConnState

variable {T : Type u} [DecidableEq T] {s s' : ConnState T} {a : ConnAct T}

/-- The histories of the output only grow. -/
theorem step_grows (hwf : s.conn.channel_.Wf) (hs : s.step a = some s') :
    s.wire <+: s'.wire ∧ s.shutdowns <+: s'.shutdowns ∧ s.ran <+: s'.ran := by
  cases step_move hwf hs with
  | sendHere | runSend =>
    rw [perform_eq]
    exact ⟨List.prefix_append .., List.prefix_append .., List.prefix_append ..⟩
  | callWrite | shutHere | runShutdown =>
    rw [perform_eq]
    exact ⟨List.prefix_append .., List.prefix_append .., List.prefix_rfl⟩
  | _ => exact ⟨List.prefix_rfl, List.prefix_rfl, List.prefix_rfl⟩

/-- Reading gives the kernel nothing. -/
theorem callRead_quiet (hwf : s.conn.channel_.Wf) {r : ReadResult}
    (hs : s.step (.callRead r) = some s') : s'.wire = s.wire ∧ s'.shutdowns = s.shutdowns := by
  cases step_move hwf hs with
  | _ => exact ⟨rfl, rfl⟩

end ConnState

namespace Peer

section

variable {T : Type u} {p p' : Peer T}

/-- What one end does is nothing to the other but more bytes, or silence; and the end of the stream is the
end. -/
structure Feeds (p p' : Peer T) : Prop where
  grows : p.conn.wire <+: p'.conn.wire
  stays : p.silent = true → p'.silent = true ∧ p'.conn.wire = p.conn.wire
  ended : p.ended = true → p'.ended = true

theorem silent_of_eq (hclosed : p'.closed = p.closed) (hshut : p.conn.shutdowns <+: p'.conn.shutdowns)
    (h : p.silent = true) : p'.silent = true := by
  unfold silent at h ⊢
  rw [hclosed]
  rcases Bool.or_eq_true_iff.mp h with h | h
  · rw [h]
    rfl
  · obtain ⟨rest, hrest⟩ := hshut
    rw [← hrest]
    cases hs : p.conn.shutdowns with
    | nil =>
      rw [hs] at h
      cases h
    | cons => simp

/-- A step that gives the kernel nothing. -/
theorem feeds_of_eq (hwire : p'.conn.wire = p.conn.wire) (hsilent : p.silent = true → p'.silent = true)
    (hended : p.ended = true → p'.ended = true) : p.Feeds p' :=
  ⟨hwire ▸ List.prefix_rfl, fun h => ⟨hsilent h, hwire⟩, hended⟩

theorem Feeds.refl (p : Peer T) : p.Feeds p := feeds_of_eq rfl id id

theorem Feeds.trans {p'' : Peer T} (h : p.Feeds p') (h' : p'.Feeds p'') : p.Feeds p'' where
  grows := h.grows.trans h'.grows
  stays hsilent := by
    obtain ⟨hsilent', hwire⟩ := h.stays hsilent
    obtain ⟨hsilent'', hwire'⟩ := h'.stays hsilent'
    exact ⟨hsilent'', hwire'.trans hwire⟩
  ended hended := h'.ended (h.ended hended)

end

variable {T : Type u} [DecidableEq T] {p p' other other' : Peer T} {a : PeerAct T}

/-- What a step of one end can do. -/
inductive Moves (p other : Peer T) : PeerAct T → Peer T → Prop
  | conn {a : ConnAct T} {conn : ConnState T} (ha : a.reads = false) (hs : p.conn.step a = some conn)
      (hsilent : p.silent = true → conn.wire = p.conn.wire) : Moves p other (.conn a) { p with conn }
  | read {n : Nat} {conn : ConnState T} {input : Buffer} {m : Except Nat Nat}
      (hsome : (p.arriving other).take n ≠ []) (hs : p.conn.step (.callRead .data) = some conn)
      (hread : p.inputBuffer_.readFd (.data ((p.arriving other).take n)) = .ok (m, input)) :
      Moves p other (.read n) { p with
        conn, inputBuffer_ := input, received := p.received ++ (p.arriving other).take n }
  | abort {n : Nat} (fault : BufferAssertion) : Moves p other (.read n) { p with aborted := some fault }
  | readEnd {conn : ConnState T} (hnone : p.arriving other = []) (hsilent : other.silent = true)
      (hs : p.conn.step (.callRead .eof) = some conn) :
      Moves p other .readEnd { p with conn, ended := true }
  | retrieve {len : Nat} {input : Buffer} (hmessage : p.conn.pc.inMessage = true)
      (hrun : p.inputBuffer_.retrieve len = .ok input) :
      Moves p other (.retrieve len) { p with
        inputBuffer_ := input, taken := p.taken ++ p.inputBuffer_.readable.take len }
  | close (hstate : p.conn.conn.state_ = .kDisconnected) : Moves p other .close { p with closed := true }

theorem step_moves (h : p.step other a = some p') : Moves p other a p' := by
  cases a with
  | conn a =>
    simp only [step, connStep] at h
    split at h
    · cases h
    · next ha =>
      obtain ⟨conn, hs, h⟩ := Option.bind_eq_some_iff.mp h
      obtain ⟨hsilent, h⟩ := Option.ite_none_right_eq_some.mp h
      cases h
      exact .conn (by simpa using ha) hs hsilent
  | read n =>
    obtain ⟨⟨hsome, -⟩, h⟩ := Option.ite_none_right_eq_some.mp h
    obtain ⟨conn, hs, rfl⟩ := Option.map_eq_some_iff.mp h
    split
    · next hread => exact .read hsome hs hread
    · next fault hread => exact .abort fault
  | readEnd =>
    obtain ⟨⟨hnone, hsilent⟩, h⟩ := Option.ite_none_right_eq_some.mp h
    obtain ⟨conn, hs, rfl⟩ := Option.map_eq_some_iff.mp h
    exact .readEnd hnone hsilent hs
  | retrieve len =>
    obtain ⟨⟨hmessage, -⟩, h⟩ := Option.ite_none_right_eq_some.mp h
    unfold Peer.retrieve at h
    split at h
    · next hrun => cases h; exact .retrieve hmessage hrun
    · cases h
  | close =>
    obtain ⟨⟨hstate, -⟩, h⟩ := Option.ite_none_right_eq_some.mp h
    cases h
    exact .close hstate

/-- What holds of one end `p`, against the other. -/
structure Fed (p other : Peer T) : Prop where
  streams : p.conn.Streams
  input : p.inputBuffer_.Wf
  taken : p.taken ++ p.inputBuffer_.readable = p.received
  arrived : p.received <+: other.conn.wire
  ended : p.ended = true → other.silent = true ∧ p.received = other.conn.wire

theorem start_fed (m w m' w' : Bool) : (start m w : Peer T).Fed (start m' w') where
  streams := ConnState.start_streams m w
  input := Buffer.new_wf
  taken := Buffer.new_readable
  arrived := List.prefix_rfl
  ended := nofun

/-- The bytes on their way are the rest of what the kernel took. -/
theorem Fed.arriving (h : p.Fed other) : p.received ++ p.arriving other = other.conn.wire := by
  obtain ⟨rest, hrest⟩ := h.arrived
  rw [Peer.arriving, ← hrest, List.drop_left]

theorem Fed.of_feeds (h : p.Fed other) (hother : other.Feeds other') : p.Fed other' where
  streams := h.streams
  input := h.input
  taken := h.taken
  arrived := h.arrived.trans hother.grows
  ended hended := by
    obtain ⟨hsilent, hall⟩ := h.ended hended
    obtain ⟨hsilent', hwire⟩ := hother.stays hsilent
    exact ⟨hsilent', hall.trans hwire.symm⟩

/-- The step lemma: the end that steps keeps what it has, and the other one sees bytes or silence. -/
theorem Fed.step (h : p.Fed other) (hs : p.step other a = some p') : p'.Fed other ∧ p.Feeds p' := by
  cases step_moves hs with
  | conn ha hconn hsilent =>
    obtain ⟨hwire, hshut, -⟩ := ConnState.step_grows h.streams.wf hconn
    refine ⟨⟨h.streams.step hconn, h.input, h.taken, h.arrived, h.ended⟩, hwire, ?_, id⟩
    intro hp
    exact ⟨silent_of_eq (p := p) rfl hshut hp, hsilent hp⟩
  | @read n conn input m hsome hconn hread =>
    obtain ⟨hwire, hshut⟩ := ConnState.callRead_quiet h.streams.wf hconn
    obtain ⟨hwf, hreadable, -⟩ := Buffer.readFd_data_spec h.input hread
    constructor
    · refine ⟨h.streams.step hconn, hwf, ?_, ?_, ?_⟩
      · show p.taken ++ input.readable = p.received ++ _
        rw [hreadable, ← List.append_assoc, h.taken]
      · show p.received ++ _ <+: _
        rw [← h.arriving]
        exact (List.prefix_append_right_inj _).mpr (List.take_prefix ..)
      · -- after the end nothing arrives
        intro hended
        have hall := (h.ended hended).2
        have hnone : p.arriving other = [] := by
          rw [Peer.arriving, hall, List.drop_length]
        rw [hnone] at hsome
        exact absurd List.take_nil hsome
    · exact feeds_of_eq hwire (silent_of_eq rfl (hshut ▸ List.prefix_rfl)) id
  | abort =>
    exact ⟨⟨h.streams, h.input, h.taken, h.arrived, h.ended⟩, feeds_of_eq rfl id id⟩
  | readEnd hnone hsilent hconn =>
    obtain ⟨hwire, hshut⟩ := ConnState.callRead_quiet h.streams.wf hconn
    constructor
    · refine ⟨h.streams.step hconn, h.input, h.taken, h.arrived, fun _ => ⟨hsilent, ?_⟩⟩
      rw [← h.arriving, hnone, List.append_nil]
    · exact feeds_of_eq hwire (silent_of_eq rfl (hshut ▸ List.prefix_rfl)) fun _ => rfl
  | @retrieve len input hmessage hrun =>
    obtain ⟨hwf, hreadable⟩ := Buffer.retrieve_spec h.input hrun
    refine ⟨⟨h.streams, hwf, ?_, h.arrived, h.ended⟩, feeds_of_eq rfl id id⟩
    show p.taken ++ p.inputBuffer_.readable.take len ++ input.readable = p.received
    rw [hreadable, List.append_assoc, List.take_append_drop, h.taken]
  | close =>
    exact ⟨⟨h.streams, h.input, h.taken, h.arrived, h.ended⟩, feeds_of_eq rfl (fun _ => rfl) id⟩

end Peer

/-! ## Both ends -/

variable {T : Type u} [DecidableEq T] {s s' : Party → Peer T} {i : Party}

/-- Each end against the other. -/
def LinkFed (s : Party → Peer T) : Prop := ∀ i, (s i).Fed (s i.other)

/-- A step of the link is a step of one end. -/
theorem link_step {a : Party × PeerAct T} (hs : (tcpLink T).step s a = some s') :
    ∃ p, (s a.1).running = true ∧ (s a.1).step (s a.1.other) a.2 = some p ∧
      s' = Function.update s a.1 p := by
  obtain ⟨hrunning, hs⟩ := Option.ite_none_right_eq_some.mp hs
  obtain ⟨p, hp, rfl⟩ := Option.map_eq_some_iff.mp hs
  exact ⟨p, hrunning, hp, rfl⟩

theorem LinkFed.step {a : Party × PeerAct T} (h : LinkFed s) (hs : (tcpLink T).step s a = some s') :
    LinkFed s' ∧ ∀ j, (s j).Feeds (s' j) := by
  obtain ⟨p, -, hp, rfl⟩ := link_step hs
  obtain ⟨hfed, hfeeds⟩ := (h a.1).step hp
  constructor
  · intro j
    by_cases hj : j = a.1
    · subst hj
      rw [Function.update_self, Function.update_of_ne (Party.other_ne _)]
      exact hfed
    · obtain rfl := Party.eq_other hj
      rw [Function.update_of_ne hj, Party.other_other, Function.update_self]
      have hother := h a.1.other
      rw [Party.other_other] at hother
      exact hother.of_feeds hfeeds
  · intro j
    by_cases hj : j = a.1
    · subst hj
      rw [Function.update_self]
      exact hfeeds
    · rw [Function.update_of_ne hj]
      exact .refl _

theorem linkFed_of_reachable (h : (tcpLink T).Reachable s) : LinkFed s := by
  apply h.invariant LinkFed
  · intro s hinit i
    obtain ⟨m, w, hi⟩ := hinit i
    obtain ⟨m', w', ho⟩ := hinit i.other
    rw [hi, ho]
    exact Peer.start_fed m w m' w'
  · intro s a s' hfed hs
    exact (hfed.step hs).1

theorem LinkFed.run {as : List (Party × PeerAct T)} (h : LinkFed s) (hr : (tcpLink T).run s as = some s') :
    LinkFed s' ∧ ∀ j, (s j).Feeds (s' j) := by
  apply Machine.run_invariant (fun t => LinkFed t ∧ ∀ j, (s j).Feeds (t j)) ?_ ⟨h, fun j => .refl _⟩ hr
  intro t a t' ht hs
  obtain ⟨hfed, hfeeds⟩ := ht.1.step hs
  exact ⟨hfed, fun j => (ht.2 j).trans (hfeeds j)⟩

/-- The client sends three bytes, of which the kernel takes two at first, and shuts down; the server reads
them in two parts, retrieves two of them, and reads the end of the stream. -/
def partedRun : List (Party × PeerAct Unit) :=
  [(.client, .conn .connectEstablished), (.server, .conn .connectEstablished),
    (.client, .conn (.sendTest none [1, 2, 3])), (.client, .conn (.sendHere (.wrote 2))),
    (.server, .conn (.poll { pollin := true })), (.server, .conn .handleEvent), (.server, .read 2),
    (.server, .retrieve 1), (.server, .conn .eventDone),
    (.client, .conn (.shutTest none)), (.client, .conn (.shutSet none)), (.client, .conn .shutHere),
    (.client, .conn (.poll { pollout := true })), (.client, .conn .handleEvent),
    (.client, .conn (.callWrite (.wrote 1))), (.client, .conn .eventDone),
    (.server, .conn (.poll { pollin := true })), (.server, .conn .handleEvent), (.server, .read 9),
    (.server, .retrieve 1), (.server, .conn .eventDone),
    (.server, .conn (.poll { pollin := true })), (.server, .conn .handleEvent), (.server, .readEnd)]

def partedStart : Party → Peer Unit := fun _ => .start true false

theorem partedStart_init : (tcpLink Unit).init partedStart := fun _ => ⟨true, false, rfl⟩

/-- **End-to-end delivery.** In every reachable state of two connected ends, in either direction: the bytes
that the message callback has retrieved, then those in `inputBuffer_`, then those on their way, then those in
the `outputBuffer_` of the other end, are the messages given to `sendInLoop` there, whole and in the order it
ran. -/
theorem link_delivers (h : (tcpLink T).Reachable s) (i : Party) :
    (s i).taken ++ (s i).inputBuffer_.readable ++ (s i).arriving (s i.other) ++
      (s i.other).conn.conn.outputBuffer_ = ((s i.other).conn.ran.map Prod.snd).flatten := by
  have hfed := linkFed_of_reachable h
  rw [(hfed i).taken, (hfed i).arriving, (hfed i.other).streams.bytes]

set_option maxRecDepth 20000 in
/-- The kernel has the last byte, and the server's program has one of the two that arrived. -/
theorem link_delivers_parted : ∃ s : Party → Peer Unit, (s .server).taken = [1] ∧
    (s .server).taken ++ (s .server).inputBuffer_.readable ++ (s .server).arriving (s .client) ++
      (s .client).conn.conn.outputBuffer_ = ((s .client).conn.ran.map Prod.snd).flatten := by
  have hreach : (tcpLink Unit).Reachable _ :=
    ⟨partedStart, partedRun.take 16, partedStart_init, rfl⟩
  exact ⟨_, rfl, link_delivers hreach .server⟩

namespace ConnState

variable {s s' : ConnState T} {a : ConnAct T}

/-- The history entry of a `shutdownWrite` is what the step leaves behind, for it comes last. -/
theorem shutdowns_of_step (hwf : s.conn.channel_.Wf) (hs : s.step a = some s') :
    ∀ q ∈ s'.shutdowns, q ∈ s.shutdowns ∨ q = (s'.ran, s'.wire) := by
  intro q hq
  cases step_move hwf hs with
  | sendHere _ hsent | runSend _ _ hsent =>
    rw [perform_eq] at hq
    simp only [setCall, record, shutdownsOf_eq_nil.mpr hsent.noShutdown, List.map_nil,
      List.append_nil] at hq
    exact .inl hq
  | callWrite _ hwrote =>
    rw [perform_eq] at hq ⊢
    rcases List.mem_append.mp hq with hq | hq
    · exact .inl hq
    · obtain ⟨wire, hmem, rfl⟩ := List.mem_map.mp hq
      rw [hwrote.full _ wire hmem]
      exact .inr rfl
  | shutHere | runShutdown =>
    rw [perform_eq] at hq ⊢
    rcases List.mem_append.mp hq with hq | hq
    · exact .inl hq
    · obtain ⟨wire, hmem, rfl⟩ := List.mem_map.mp hq
      rw [wireOf_shutdownInLoop, shutdownsOf_of_silent (wireOf_shutdownInLoop _) hmem, List.append_nil]
      exact .inr rfl
  | _ => exact .inl hq

/-- What the kernel has since the first `shutdownWrite`: the messages that had run by then. -/
def Sealed (s : ConnState T) : Prop :=
  ∀ q, s.shutdowns.head? = some q →
    q.1 <+: s.ran ∧ q.2 = s.wire ∧ q.2 = (q.1.map Prod.snd).flatten

/-- Each step up to the first `disableAll` keeps it, if the kernel takes nothing after `shutdownWrite`. -/
theorem Sealed.step (h : s.Sealed) (hst : s.Streams) (hf : s.Followed)
    (hopen : s.beforeDisableAll a = true) (hs : s.step a = some s')
    (hsilent : s.shutdowns ≠ [] → s'.wire = s.wire) : s'.Sealed := by
  obtain ⟨-, ⟨new, hnew⟩, hran⟩ := step_grows hst.wf hs
  intro q hq
  cases hshut : s.shutdowns with
  | nil =>
    have hmem : q ∈ s'.shutdowns := List.mem_of_mem_head? hq
    have hchanged : s'.shutdowns ≠ s.shutdowns := by
      rw [hshut]
      exact List.ne_nil_of_mem hmem
    rcases shutdowns_of_step hst.wf hs q hmem with hold | rfl
    · rw [hshut] at hold
      cases hold
    · exact ⟨List.prefix_rfl, rfl, (hst.step hs).all_written (hf.shuts_empty hopen hs hchanged)⟩
  | cons first rest =>
    have hfirst : s.shutdowns.head? = some q := by
      rw [← hnew, hshut] at hq
      rw [hshut]
      exact hq
    obtain ⟨hearlier, hwire, hall⟩ := h q hfirst
    have hsame := hsilent (by simp [hshut])
    exact ⟨hearlier.trans hran, hwire.trans hsame.symm, hall⟩

end ConnState

/-- Up to the first `disableAll` of this end. -/
def Peer.beforeDisableAll (p : Peer T) : PeerAct T → Bool
  | .conn a => p.conn.beforeDisableAll a
  | .readEnd => false
  | .close => false
  | _ => true

/-- The link up to the first `disableAll` of one end. -/
def linkFrom (T : Type u) [DecidableEq T] (i : Party) : Machine (Party → Peer T) (Party × PeerAct T) :=
  (tcpLink T).restrict fun s a => a.1 ≠ i || (s i).beforeDisableAll a.2

namespace Peer

variable {p p' other : Peer T} {a : PeerAct T}

/-- What holds of an end up to its first `disableAll`. -/
structure Open (p : Peer T) : Prop where
  followed : p.conn.Followed
  unsealed : p.conn.Sealed
  there : p.closed = false

theorem Open.step (h : p.Open) (hfed : p.Fed other) (hopen : p.beforeDisableAll a = true)
    (hs : p.step other a = some p') : p'.Open := by
  have hsilent : p.conn.shutdowns ≠ [] → p.silent = true := by
    intro hshut
    unfold silent
    cases hlist : p.conn.shutdowns with
    | nil => exact absurd hlist hshut
    | cons => simp
  cases step_moves hs with
  | conn ha hconn hwire =>
    exact ⟨h.followed.step hfed.streams hopen hconn,
      h.unsealed.step hfed.streams h.followed hopen hconn fun hshut => hwire (hsilent hshut), h.there⟩
  | read hsome hconn hread =>
    obtain ⟨hwire, -⟩ := ConnState.callRead_quiet hfed.streams.wf hconn
    exact ⟨h.followed.step hfed.streams rfl hconn,
      h.unsealed.step hfed.streams h.followed rfl hconn fun _ => hwire, h.there⟩
  | readEnd | close => cases hopen
  | abort | retrieve => exact ⟨h.followed, h.unsealed, h.there⟩

end Peer

theorem open_of_reachable (h : (linkFrom T i).Reachable s) : LinkFed s ∧ (s i).Open := by
  apply h.invariant fun s => LinkFed s ∧ (s i).Open
  · intro s hinit
    refine ⟨linkFed_of_reachable (.start hinit), ?_⟩
    obtain ⟨m, w, hi⟩ := hinit i
    rw [hi]
    exact ⟨ConnState.start_followed m w, fun _ hq => (nomatch hq), rfl⟩
  · rintro s a s' ⟨hfed, hopen⟩ hs
    obtain ⟨hallowed, hs⟩ := Machine.restrict_step.mp hs
    refine ⟨(hfed.step hs).1, ?_⟩
    obtain ⟨p, -, hp, rfl⟩ := link_step hs
    by_cases hi : a.1 = i
    · subst hi
      rw [Function.update_self]
      exact hopen.step (hfed a.1) (by simpa using hallowed) hp
    · rw [Function.update_of_ne (Ne.symm hi)]
      exact hopen

/-- **The end of the stream is the end of a message.** When an end that is not closed has shut its write side
down and the other one reads the end of the stream, that one has received exactly the messages for which
`sendInLoop` ran before the first `shutdownWrite`, whole. -/
theorem link_end_whole (h : (linkFrom T i).Reachable s) (hended : (s i.other).ended = true) :
    ∃ ran, ran <+: (s i).conn.ran ∧ (s i).conn.shutdowns.head? = some (ran, (s i).conn.wire) ∧
      (s i.other).received = (ran.map Prod.snd).flatten := by
  obtain ⟨hfed, hopen⟩ := open_of_reachable h
  have hother := hfed i.other
  rw [Party.other_other] at hother
  obtain ⟨hsilent, hall⟩ := hother.ended hended
  unfold Peer.silent at hsilent
  rw [hopen.there, Bool.false_or] at hsilent
  cases hshut : (s i).conn.shutdowns with
  | nil =>
    rw [hshut] at hsilent
    cases hsilent
  | cons first rest =>
    obtain ⟨hearlier, hwire, hwhole⟩ := hopen.unsealed first (by rw [hshut]; rfl)
    refine ⟨first.1, hearlier, ?_, ?_⟩
    · rw [← hwire]
      rfl
    · rw [hall, ← hwire, hwhole]

set_option maxRecDepth 20000 in
/-- The server has read the end, and has the message. -/
theorem link_end_whole_parted : ∃ s : Party → Peer Unit, (s .server).received = [1, 2, 3] ∧
    ∃ ran, ran <+: (s .client).conn.ran ∧
      (s .client).conn.shutdowns.head? = some (ran, (s .client).conn.wire) ∧
      (s .server).received = (ran.map Prod.snd).flatten := by
  have hreach : (linkFrom Unit .client).Reachable _ := ⟨partedStart, partedRun, partedStart_init, rfl⟩
  exact ⟨_, rfl, link_end_whole hreach rfl⟩

end Netfish

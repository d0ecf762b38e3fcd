import Netfish.Net.ClientMoves
import Netfish.Net.ConnectorRest

/-!
# The phases of a client's connection

A client has no connection, or one that is up, or one whose close callback was called and whose
`connectDestroyed` is still queued, or one that is in `connectDestroyed`. `Cycles` says what holds in
each phase, of the connection, its events, the queue and the connector; every other connection is gone.
The laws of the connection's methods keep it.
-/

set_option autoImplicit false

namespace Netfish

open Kit

universe u

/-- Where the client's connection stands. -/
inductive Phase where
  | away
  | up (c : Nat)
  /-- Its `connectDestroyed` is queued. -/
  | closing (c : Nat)
  /-- In `connectDestroyed`, inside `connectionCallback_`. -/
  | leaving (c : Nat)
deriving DecidableEq, Repr

namespace Phase

/-- The connection that is not gone. -/
def conn : Phase → Option Nat
  | .away => none
  | .up c => some c
  | .closing c => some c
  | .leaving c => some c

/-- The connection between `connectEstablished` and `connectDestroyed`. -/
def inUse : Phase → Option Nat
  | .up c => some c
  | .closing c => some c
  | _ => none

/-- The connections whose `connectDestroyed` is queued. -/
def destroys : Phase → List Nat
  | .closing c => [c]
  | _ => []

theorem conn_of_inUse {p : Phase} {c : Nat} (h : p.inUse = some c) : p.conn = some c := by
  cases p with
  | away => cases h
  | up d => exact h
  | closing d => exact h
  | leaving d => cases h

end Phase

/-- The connections that `connectDestroyed` functors are about. -/
def destroysOf (fs : List ClientFunctor) : List Nat :=
  fs.filterMap fun
    | .connectDestroyed c => some c
    | _ => none

@[simp] theorem destroysOf_nil : destroysOf [] = [] := rfl

@[simp] theorem destroysOf_append (fs gs : List ClientFunctor) :
    destroysOf (fs ++ gs) = destroysOf fs ++ destroysOf gs :=
  List.filterMap_append ..

/-- The functor is none of a `send` or a `shutdown`. -/
def ClientFunctor.own : ClientFunctor → Bool
  | .writeComplete _ => true
  | .connectDestroyed _ => true
  | _ => false

/-- The connection a caller is in a `send` or a `shutdown` of. -/
def ClientCall.conn : ClientCall → Option Nat
  | .sending c _ => some c
  | .shutting c => some c
  | .shut c => some c
  | _ => none

/-- The functors that a connection's effects queue. -/
def completions (c : Nat) (es : List ConnEffect) : List ClientFunctor :=
  es.filterMap fun
    | .queueWriteComplete => some (.writeComplete c)
    | _ => none

theorem eq_of_mem_completions {c : Nat} {es : List ConnEffect} {f : ClientFunctor}
    (h : f ∈ completions c es) : f = .writeComplete c := by
  obtain ⟨e, -, he⟩ := List.mem_filterMap.mp h
  cases e <;> cases he
  rfl

@[simp] theorem destroysOf_completions (c : Nat) (es : List ConnEffect) :
    destroysOf (completions c es) = [] := by
  refine List.filterMap_eq_nil_iff.mpr fun f hf => ?_
  rw [eq_of_mem_completions hf]

/-- The calls of `connectionCallback_` come in turn, and the last one was an up call of this
connection. -/
inductive AlternatesTo : List (Nat × Bool) → Option Nat → Prop
  | start : AlternatesTo [] none
  | up {log : List (Nat × Bool)} (h : AlternatesTo log none) (c : Nat) :
      AlternatesTo (log ++ [(c, true)]) (some c)
  | down {log : List (Nat × Bool)} {c : Nat} (h : AlternatesTo log (some c)) :
      AlternatesTo (log ++ [(c, false)]) none

namespace TcpConnection

/-- In use, registered, and with this interest besides that in writing. -/
structure Serves (conn : TcpConnection) (interest : Events) : Prop where
  inUse : conn.inUse = true
  wf : conn.channel_.Wf
  interest : conn.channel_.events_.minus kWriteEvent = interest
  registered : conn.channel_.index_ ≠ .kNew

theorem Serves.quiet {conn conn' : TcpConnection} {interest : Events} {es : List ConnEffect}
    (h : conn.Serves interest) (hquiet : conn.Quiet conn' es)
    (hreg : conn.channel_.index_ ≠ .kNew → conn'.channel_.index_ ≠ .kNew) : conn'.Serves interest :=
  ⟨by rw [TcpConnection.inUse, hquiet.state]; exact h.inUse, hquiet.wf,
    hquiet.interest.trans h.interest, hreg h.registered⟩

/-- Destroyed, and out of the poller. -/
structure Gone (conn : TcpConnection) : Prop where
  state : conn.state_ = .kDisconnected
  channel : conn.channel_ = .new

theorem Gone.not_inUse {conn : TcpConnection} (h : conn.Gone) : conn.inUse = false := by
  simp [TcpConnection.inUse, h.state]

end TcpConnection

namespace ClientState

variable {T : Type u} {s s' : ClientState T} {p : Phase} {c : Nat} {conn conn' : TcpConnection}
  {es : List ConnEffect}

/-- The effects of a method that closes nothing and makes no call of `connectionCallback_`. -/
theorem foldl_effect_quiet (hclose : .closeCallback ∉ es) (hcall : .connectionCallback ∉ es)
    (s : ClientState T) :
    es.foldl (effect c conn) s = { s with functors := s.functors.pushAll (completions c es) } := by
  induction es generalizing s with
  | nil => simp [completions, BatchQueue.pushAll]
  | cons e es ih =>
    obtain ⟨hne, hclose⟩ := List.ne_and_not_mem_of_not_mem_cons hclose
    obtain ⟨hne', hcall⟩ := List.ne_and_not_mem_of_not_mem_cons hcall
    rw [List.foldl_cons, ih hclose hcall]
    cases e with
    | closeCallback => exact absurd rfl hne
    | connectionCallback => exact absurd rfl hne'
    | queueWriteComplete =>
      simp [effect, ClientState.queueInLoop, completions, BatchQueue.pushAll, BatchQueue.push]
    | write => rfl
    | shutdownWrite => rfl
    | messageCallback => rfl

theorem after_quiet (hclose : .closeCallback ∉ es) (hcall : .connectionCallback ∉ es)
    (s : ClientState T) : s.after c (.ok (conn, es)) =
      { s.setConn c conn with functors := s.functors.pushAll (completions c es) } :=
  foldl_effect_quiet hclose hcall (s.setConn c conn)

/-- A connection is where it was. -/
theorem setConn_self (hconn : s.conns c = some conn) : s.setConn c conn = s := by
  rw [setConn, ← hconn, Function.update_eq_self]

theorem after_nil (hconn : s.conns c = some conn) : s.after c (.ok (conn, [])) = s :=
  setConn_self hconn

/-! ## What holds in each phase -/

/-- No connection. -/
structure Away (s : ClientState T) : Prop where
  connection : s.client.connection_ = none
  active : s.active = []
  pc : s.pc = .free

/-- Events of the connection's channel that do not call its close callback are being handled. -/
structure Handling (s : ClientState T) (c : Nat) (todo : List ChannelCallback) (place : EventPlace) :
    Prop where
  pc : s.pc = .event c todo place
  place : place = .between ∨ place = .inMessage
  active : s.active = []
  todo : ∃ revents, todo <:+ Channel.handleEvent revents ∧ revents.hangup = false
  settled : s.loop.pc.settled = true
  batch : s.loop.pc ≠ .batch

/-- The connection is open. -/
structure Up (s : ClientState T) (c : Nat) : Prop where
  connection : s.client.connection_ = some c
  state : s.loop.connector.state_ = .kConnected
  conn : ∃ conn, s.conns c = some conn ∧ conn.Serves kReadEvent
  active : s.active = [] ∨ ∃ revents, s.active = [(c, revents)] ∧ revents.hangup = false
  pc : s.pc = .free ∨ ∃ todo place, s.Handling c todo place

/-- The close callback was called, and `connectDestroyed` comes before the next poll. -/
structure Closing (s : ClientState T) (c : Nat) : Prop where
  connection : s.client.connection_ = none
  conn : ∃ conn, s.conns c = some conn ∧ conn.Serves .none
  active : s.active = []
  settled : s.loop.pc.settled = true
  batch : s.loop.pc = .batch → destroysOf s.functors.batch ≠ []
  pc : s.pc = .free ∨
    ∃ todo place, s.pc = .event c todo place ∧ place ≠ .inMessage ∧ .close ∉ todo ∧ .read ∉ todo
  removing : s.pc.inRemove = true → s.loop.connector.state_ = .kConnected

/-- `connectDestroyed` is in its callback. -/
structure Leaving (s : ClientState T) (c : Nat) : Prop where
  connection : s.client.connection_ = none
  conn : ∃ conn, s.conns c = some conn ∧ conn.state_ = .kDisconnected ∧ conn.channel_.Wf ∧
    conn.channel_.events_ = .none ∧ conn.channel_.index_ ≠ .kNew
  active : s.active = []
  batch : s.loop.pc = .batch
  pc : s.pc = .destroying c

def InPhase (s : ClientState T) : Phase → Prop
  | .away => s.Away
  | .up c => s.Up c
  | .closing c => s.Closing c
  | .leaving c => s.Leaving c

structure Cycles (s : ClientState T) (p : Phase) : Prop where
  steady : s.loop.Steady
  noFault : s.fault = none
  phase : s.InPhase p
  gone : ∀ c conn, s.conns c = some conn → p.conn ≠ some c → conn.Gone
  functors : ∀ f ∈ s.functors.toList, f.own = true
  destroys : destroysOf s.functors.toList = p.destroys
  worked : s.loop.pc ≠ .batch → s.functors.batch = []
  threads : ∀ t, (s.calls (some t)).conn = none
  here : ∀ c, (s.calls none).conn = some c → p.inUse = some c
  log : AlternatesTo s.log p.inUse

theorem start_cycles (client : TcpClient) (hnone : client.connection_ = none) :
    (start client : ClientState T).Cycles .away where
  steady := ConnectorState.start_steady true
  noFault := rfl
  phase := ⟨hnone, rfl, rfl⟩
  gone _ _ hconn := by cases hconn
  functors _ hf := by cases hf
  destroys := rfl
  worked _ := rfl
  threads _ := rfl
  here _ hc := by cases hc
  log := .start

/-- The connection in use. -/
theorem Cycles.serves (h : s.Cycles p) (hp : p.inUse = some c) :
    ∃ conn interest, s.conns c = some conn ∧ conn.Serves interest := by
  cases p with
  | away => cases hp
  | leaving d => cases hp
  | up d =>
    cases hp
    obtain ⟨conn, hconn, hserves⟩ := h.phase.conn
    exact ⟨conn, _, hconn, hserves⟩
  | closing d =>
    cases hp
    obtain ⟨conn, hconn, hserves⟩ := h.phase.conn
    exact ⟨conn, _, hconn, hserves⟩

/-- No other connection is in use. -/
theorem Cycles.inUse (h : s.Cycles p) (hconn : s.conns c = some conn) (hin : conn.inUse = true) :
    p.inUse = some c := by
  by_cases hp : p.conn = some c
  · cases p with
    | away => cases hp
    | up d => exact hp
    | closing d => exact hp
    | leaving d =>
      cases hp
      obtain ⟨conn', hconn', hstate, -⟩ := h.phase.conn
      cases hconn.symm.trans hconn'
      simp [TcpConnection.inUse, hstate] at hin
  · rw [(h.gone c conn hconn hp).not_inUse] at hin
    cases hin

/-! ## What keeps the phase -/

/-- The connections, their events and functors and the place of the loop's thread have not changed. -/
structure SameConns (s s' : ClientState T) : Prop where
  connection : s'.client.connection_ = s.client.connection_
  conns : s'.conns = s.conns
  active : s'.active = s.active
  functors : s'.functors = s.functors
  pc : s'.pc = s.pc
  log : s'.log = s.log
  fault : s'.fault = s.fault

/-- A step of the connector that is none of `restart`, `poll` and the limits of `doPendingFunctors`. -/
structure LoopKept (loop loop' : ConnectorState T) : Prop where
  steady : loop'.Steady
  state : loop.connector.state_ = .kConnected → loop'.connector.state_ = .kConnected
  settled : loop.pc.settled = true → loop'.pc.settled = true
  batch : loop'.pc = .batch ↔ loop.pc = .batch

theorem LoopKept.refl {loop : ConnectorState T} (h : loop.Steady) : LoopKept loop loop :=
  ⟨h, id, id, Iff.rfl⟩

theorem InPhase.kept (h : s.InPhase p) (hsame : s.SameConns s') (hloop : LoopKept s.loop s'.loop) :
    s'.InPhase p := by
  cases p with
  | away =>
    exact ⟨hsame.connection.trans h.connection, hsame.active.trans h.active, hsame.pc.trans h.pc⟩
  | up c =>
    refine ⟨hsame.connection.trans h.connection, hloop.state h.state, hsame.conns ▸ h.conn,
      hsame.active ▸ h.active, ?_⟩
    rcases h.pc with hfree | ⟨todo, place, hhand⟩
    · exact .inl (hsame.pc.trans hfree)
    · exact .inr ⟨todo, place, hsame.pc.trans hhand.pc, hhand.place, hsame.active.trans hhand.active,
        hhand.todo, hloop.settled hhand.settled, mt hloop.batch.mp hhand.batch⟩
  | closing c =>
    refine ⟨hsame.connection.trans h.connection, hsame.conns ▸ h.conn, hsame.active.trans h.active,
      hloop.settled h.settled, ?_, hsame.pc ▸ h.pc, ?_⟩
    · rw [hloop.batch, hsame.functors]
      exact h.batch
    · rw [hsame.pc]
      exact fun hin => hloop.state (h.removing hin)
  | leaving c =>
    exact ⟨hsame.connection.trans h.connection, hsame.conns ▸ h.conn, hsame.active.trans h.active,
      hloop.batch.mpr h.batch, hsame.pc.trans h.pc⟩

theorem Cycles.kept (h : s.Cycles p) (hsame : s.SameConns s') (hloop : LoopKept s.loop s'.loop)
    (hthreads : ∀ t, (s'.calls (some t)).conn = none)
    (hhere : ∀ c, (s'.calls none).conn = some c → p.inUse = some c) : s'.Cycles p where
  steady := hloop.steady
  noFault := hsame.fault.trans h.noFault
  phase := h.phase.kept hsame hloop
  gone := hsame.conns ▸ h.gone
  functors := hsame.functors ▸ h.functors
  destroys := hsame.functors ▸ h.destroys
  worked hpc := by
    rw [hsame.functors]
    exact h.worked (mt hloop.batch.mpr hpc)
  threads := hthreads
  here := hhere
  log := hsame.log ▸ h.log

/-- `handleEvent` of a connection in its phase. -/
theorem Cycles.event (h : s.Cycles p) {todo : List ChannelCallback} {place : EventPlace}
    (hpc : s.pc = .event c todo place) : (p = .up c ∧ s.Handling c todo place) ∨
      (p = .closing c ∧ place ≠ .inMessage ∧ .close ∉ todo ∧ .read ∉ todo) := by
  cases p with
  | away => cases hpc.symm.trans h.phase.pc
  | leaving d => cases hpc.symm.trans h.phase.pc
  | up d =>
    rcases h.phase.pc with hfree | ⟨todo', place', hhand⟩
    · cases hpc.symm.trans hfree
    · cases hpc.symm.trans hhand.pc
      exact .inl ⟨rfl, hhand⟩
  | closing d =>
    rcases h.phase.pc with hfree | ⟨todo', place', hpc', hrest⟩
    · cases hpc.symm.trans hfree
    · cases hpc.symm.trans hpc'
      exact .inr ⟨rfl, hrest⟩

/-- The next place in `handleEvent` of an open connection. -/
theorem Cycles.gotoUp (h : s.Cycles (.up c)) {pc : ClientPc}
    (hpc : pc = .free ∨ ∃ todo place, { s with pc }.Handling c todo place) :
    { s with pc }.Cycles (.up c) :=
  { h with phase := ⟨h.phase.connection, h.phase.state, h.phase.conn, h.phase.active, hpc⟩ }

/-- The next place in `handleEvent` of a closed connection. -/
theorem Cycles.gotoClosing (h : s.Cycles (.closing c)) {pc : ClientPc}
    (hpc : pc = .free ∨
      ∃ todo place, pc = .event c todo place ∧ place ≠ .inMessage ∧ .close ∉ todo ∧ .read ∉ todo)
    (hin : pc.inRemove = true → s.pc.inRemove = true) : { s with pc }.Cycles (.closing c) :=
  { h with phase := ⟨h.phase.connection, h.phase.conn, h.phase.active, h.phase.settled, h.phase.batch,
      hpc, fun hrem => h.phase.removing (hin hrem)⟩ }

/-- The end of `removeConnection`. -/
theorem Cycles.removed (h : s.Cycles (.closing c)) (hin : s.pc.inRemove = true) {pc : ClientPc}
    (hpc : pc = .free ∨
      ∃ todo place, pc = .event c todo place ∧ place ≠ .inMessage ∧ .close ∉ todo ∧ .read ∉ todo)
    (hout : pc.inRemove = false) (restart : Bool) :
    { s with loop := s.loop.closed restart, pc }.Cycles (.closing c) := by
  have hplace : (s.loop.closed restart).pc = s.loop.pc := ConnectorState.closed_pc _ _
  refine { h with
    steady := h.steady.closed (h.phase.removing hin) restart
    phase := ⟨h.phase.connection, h.phase.conn, h.phase.active, ?_, ?_, hpc, ?_⟩
    worked := fun hne => h.worked (hplace ▸ hne) }
  · rw [hplace]
    exact h.phase.settled
  · rw [hplace]
    exact h.phase.batch
  · exact fun hrem => by cases hout.symm.trans hrem

/-- The next callback of `handleEvent`, or its callback returns. -/
theorem Handling.next {todo todo' : List ChannelCallback} {place place' : EventPlace}
    (h : s.Handling c todo place) (hsuffix : todo' <:+ todo)
    (hplace : place' = .between ∨ place' = .inMessage) :
    { s with pc := .event c todo' place' }.Handling c todo' place' := by
  obtain ⟨revents, htodo, hno⟩ := h.todo
  exact ⟨rfl, hplace, h.active, ⟨revents, hsuffix.trans htodo, hno⟩, h.settled, h.batch⟩

/-- `handleEvent` goes on to its next callback. -/
theorem Cycles.skip (h : s.Cycles p) {callback : ChannelCallback} {todo : List ChannelCallback}
    (hpc : s.pc = .event c (callback :: todo) .between) :
    { s with pc := .event c todo .between }.Cycles p ∧ p.inUse = some c := by
  rcases h.event hpc with ⟨rfl, hhand⟩ | ⟨rfl, -, hclose, hread⟩
  · exact ⟨h.gotoUp (.inr ⟨_, _, hhand.next (List.suffix_cons _ _) (.inl rfl)⟩), rfl⟩
  · have htodo : .close ∉ todo ∧ .read ∉ todo :=
      ⟨fun hm => hclose (List.mem_cons_of_mem _ hm), fun hm => hread (List.mem_cons_of_mem _ hm)⟩
    refine ⟨h.gotoClosing (.inr ⟨todo, .between, rfl, by simp, htodo⟩) ?_, rfl⟩
    exact fun hin => by cases hin

/-! ## The connection's methods -/

/-- A method that closes nothing and makes no call of `connectionCallback_`. -/
theorem Cycles.after (h : s.Cycles p) (hp : p.inUse = some c) (hconn : s.conns c = some conn)
    (hkeep : ∀ {interest : Events}, conn.Serves interest → conn'.Serves interest)
    (hclose : .closeCallback ∉ es) (hcall : .connectionCallback ∉ es) :
    (s.after c (.ok (conn', es))).Cycles p := by
  rw [after_quiet hclose hcall]
  have hserves : ∀ {interest : Events}, (∃ conn, s.conns c = some conn ∧ conn.Serves interest) →
      ∃ conn, Function.update s.conns c (some conn') c = some conn ∧ conn.Serves interest := by
    rintro interest ⟨conn, hconn', hserves⟩
    cases hconn.symm.trans hconn'
    exact ⟨conn', by simp, hkeep hserves⟩
  have hphase : InPhase { s.setConn c conn' with
      functors := s.functors.pushAll (completions c es) } p := by
    cases p with
    | away => cases hp
    | leaving d => cases hp
    | up d =>
      cases hp
      have hup := h.phase
      refine ⟨hup.connection, hup.state, hserves hup.conn, hup.active, ?_⟩
      rcases hup.pc with hfree | ⟨todo, place, hhand⟩
      · exact .inl hfree
      · exact .inr ⟨todo, place, hhand.pc, hhand.place, hhand.active, hhand.todo, hhand.settled,
          hhand.batch⟩
    | closing d =>
      cases hp
      have hclosing := h.phase
      exact ⟨hclosing.connection, hserves hclosing.conn, hclosing.active, hclosing.settled,
        hclosing.batch, hclosing.pc, hclosing.removing⟩
  refine ⟨h.steady, h.noFault, hphase, ?_, ?_, ?_, h.worked, h.threads, h.here, h.log⟩
  · intro d conn'' hd hne
    have hcd : d ≠ c := by
      rintro rfl
      exact hne (Phase.conn_of_inUse hp)
    exact h.gone d conn'' (by simpa [ClientState.setConn, hcd] using hd) hne
  · intro f hf
    rw [BatchQueue.toList_pushAll] at hf
    rcases List.mem_append.mp hf with hf | hf
    · exact h.functors f hf
    · rw [eq_of_mem_completions hf]
      rfl
  · rw [BatchQueue.toList_pushAll, destroysOf_append, destroysOf_completions, List.append_nil]
    exact h.destroys

/-- The other connections stay gone. -/
theorem Cycles.gone_setConn (h : s.Cycles p) (hp : p.conn = some c ∨ p.conn = none)
    {conn'' : TcpConnection} {d : Nat} (hd : (s.setConn c conn').conns d = some conn'') (hne : d ≠ c) :
    conn''.Gone := by
  refine h.gone d conn'' (by simpa [ClientState.setConn, hne] using hd) ?_
  rcases hp with hp | hp
  · rw [hp]
    exact fun heq => hne (Option.some.inj heq).symm
  · simp [hp]

/-- `newConnection`, which the connector calls in `kConnected`. -/
theorem Cycles.newConnection (h : s.Cycles .away) (hstate : s.loop.connector.state_ = .kConnected) :
    s.newConnection.Cycles (.up s.client.nextConnId_) := by
  obtain ⟨channel, hrun, hwf, hev, hreg⟩ := TcpConnection.connectEstablished_spec
    (c := s.client.newConnection.1) Channel.new_wf rfl
  have hnew : s.newConnection = { s with client := s.client.newConnection.2 }.after
      s.client.nextConnId_ s.client.newConnection.1.connectEstablished := rfl
  rw [hnew, hrun]
  have hserves : TcpConnection.Serves { s.client.newConnection.1 with
      state_ := .kConnected, channel_ := channel } kReadEvent :=
    ⟨rfl, hwf, by rw [hev]; exact Events.union_read_minus rfl, hreg⟩
  refine ⟨h.steady, h.noFault, ?_, ?_, h.functors, h.destroys, h.worked, h.threads, ?_, h.log.up _⟩
  · exact ⟨rfl, hstate, ⟨_, Function.update_self .., hserves⟩, .inl h.phase.active, .inl h.phase.pc⟩
  · intro d conn'' hd hne
    exact h.gone_setConn (.inr rfl) hd fun heq => hne (congrArg some heq.symm)
  · intro d hd
    cases h.here d hd

/-- `handleClose` of the open connection, whose read callback found the end of the stream. -/
theorem Cycles.handleClose (h : s.Cycles (.up c)) {todo : List ChannelCallback} {place : EventPlace}
    (hhand : s.Handling c todo place) (hread : .read ∉ todo) (hconn : s.conns c = some conn) :
    (s.after c conn.handleClose).Cycles (.closing c) := by
  obtain ⟨conn', hconn', hserves⟩ := h.phase.conn
  cases hconn.symm.trans hconn'
  obtain ⟨channel, hrun, hwf, hev, hreg⟩ := TcpConnection.handleClose_spec hserves.wf hserves.inUse
  have hclosed : TcpConnection.Serves { conn with channel_ := channel } .none :=
    ⟨hserves.inUse, hwf, by rw [hev]; rfl, hreg⟩
  have hclient : s.client.removeConnection c = .ok { s.client with connection_ := none } := by
    rw [TcpClient.removeConnection, check_pos h.phase.connection]
    rfl
  obtain ⟨revents, hsuffix, hhangup⟩ := hhand.todo
  have hclose : .close ∉ todo := by
    intro hm
    rw [Channel.close_mem_handleEvent.mp (hsuffix.subset hm)] at hhangup
    cases hhangup
  have hafter : s.after c conn.handleClose =
      { s.setConn c { conn with channel_ := channel } with
        client := { s.client with connection_ := none }
        functors := s.functors.push (.connectDestroyed c)
        pc := .event c todo .removing } := by
    rw [hrun]
    simp only [ClientState.after, List.foldl_cons, List.foldl_nil, effect,
      ClientState.removeConnection, ClientState.setConn, hclient, ClientState.queueInLoop, toRemoving,
      hhand.pc]
  rw [hafter]
  refine ⟨h.steady, h.noFault, ?_, ?_, ?_, ?_, h.worked, h.threads, h.here, h.log⟩
  · exact ⟨rfl, ⟨_, Function.update_self .., hclosed⟩, hhand.active, hhand.settled,
      fun hpc => absurd hpc hhand.batch, .inr ⟨todo, .removing, rfl, by simp, hclose, hread⟩,
      fun _ => h.phase.state⟩
  · intro d conn'' hd hne
    exact h.gone_setConn (.inl rfl) hd fun heq => hne (congrArg some heq.symm)
  · intro f hf
    rw [BatchQueue.toList_push] at hf
    rcases List.mem_append.mp hf with hf | hf
    · exact h.functors f hf
    · rw [List.mem_singleton.mp hf]
      rfl
  · rw [BatchQueue.toList_push, destroysOf_append, h.destroys]
    rfl

/-- `connectDestroyed` up to its callback. -/
theorem Cycles.beginDestroyed (h : s.Cycles (.closing c)) (hpc : s.loop.pc = .batch)
    {rest : BatchQueue ClientFunctor} (hnext : s.functors.next = some (.connectDestroyed c, rest))
    (hidle : s.calls none = .idle) (hconn : s.conns c = some conn) :
    ({ s with functors := rest, pc := .destroying c }.after c conn.beginDestroyed).Cycles
      (.leaving c) := by
  obtain ⟨conn', hconn', hserves⟩ := h.phase.conn
  cases hconn.symm.trans hconn'
  obtain ⟨channel, hrun, hwf, hev, hreg⟩ :=
    TcpConnection.beginDestroyed_spec hserves.wf hserves.inUse
  have hlist := BatchQueue.toList_of_next hnext
  rw [hrun]
  refine ⟨h.steady, h.noFault, ?_, ?_, ?_, ?_, fun hne => absurd hpc hne, h.threads, ?_, h.log.down⟩
  · exact ⟨h.phase.connection, ⟨_, Function.update_self .., rfl, hwf, hev, hreg⟩, h.phase.active, hpc,
      rfl⟩
  · intro d conn'' hd hne
    exact h.gone_setConn (.inl rfl) hd fun heq => hne (congrArg some heq.symm)
  · intro f hf
    exact h.functors f (by rw [hlist]; exact List.mem_cons_of_mem _ hf)
  · have hdestroys := h.destroys
    rw [hlist] at hdestroys
    exact (List.cons.inj hdestroys).2
  · intro d hd
    have hd : (s.calls none).conn = some d := hd
    rw [hidle] at hd
    cases hd

/-- `connectDestroyed` after its callback. -/
theorem Cycles.endDestroyed (h : s.Cycles (.leaving c)) (hconn : s.conns c = some conn) :
    ({ s with pc := .free }.after c (conn.endDestroyed.map (·, []))).Cycles .away := by
  obtain ⟨conn', hconn', hstate, hwf, hev, hreg⟩ := h.phase.conn
  cases hconn.symm.trans hconn'
  rw [TcpConnection.endDestroyed_spec hwf hev hreg]
  refine ⟨h.steady, h.noFault, ⟨h.phase.connection, h.phase.active, rfl⟩, ?_, h.functors, h.destroys,
    h.worked, h.threads, h.here, h.log⟩
  intro d conn'' hd _
  by_cases hdc : d = c
  · subst hdc
    cases (Function.update_self d _ s.conns).symm.trans hd
    exact ⟨hstate, rfl⟩
  · exact h.gone_setConn (.inl rfl) hd hdc

end ClientState

end Netfish

import Netfish.Net.ClientLoop

/-!
# The moves of a client

`step_moves` says once what a step of the client can do; the invariants are derived from it. `Around` is
what a method of a connection does to the client.
-/

set_option autoImplicit false

namespace Netfish

open Kit

universe u

/-- The loop's thread is in `removeConnection`. -/
def ClientPc.inRemove : ClientPc → Bool
  | .event _ _ .removing => true
  | .event _ _ .restarting => true
  | _ => false

namespace ClientState

variable {T : Type u}

/-- A method of a connection leaves the client alone, unless it calls `closeCallback_`. -/
structure Around (s s' : ClientState T) : Prop where
  loop : s'.loop = s.loop
  connect : s'.client.connect_ = s.client.connect_
  next : s'.client.nextConnId_ = s.client.nextConnId_
  calls : s'.calls = s.calls
  active : s'.active = s.active
  removed : (s'.client.connection_ = s.client.connection_ ∧ s'.pc = s.pc) ∨
    (s.client.connection_ ≠ none ∧ s'.client.connection_ = none ∧ s'.pc = toRemoving s.pc)

theorem Around.refl (s : ClientState T) : s.Around s :=
  ⟨rfl, rfl, rfl, rfl, rfl, .inl ⟨rfl, rfl⟩⟩

theorem Around.trans {s s' s'' : ClientState T} (h : s.Around s') (h' : s'.Around s'') :
    s.Around s'' := by
  refine ⟨h'.loop.trans h.loop, h'.connect.trans h.connect, h'.next.trans h.next,
    h'.calls.trans h.calls, h'.active.trans h.active, ?_⟩
  rcases h.removed, h'.removed with ⟨⟨hc, hpc⟩ | ⟨hsome, hnone, hpc⟩, ⟨hc', hpc'⟩ | ⟨hsome', hnone', hpc'⟩⟩
  · exact .inl ⟨hc'.trans hc, hpc'.trans hpc⟩
  · exact .inr ⟨hc ▸ hsome', hnone', hpc ▸ hpc'⟩
  · exact .inr ⟨hsome, hc'.trans hnone, hpc'.trans hpc⟩
  · exact absurd hnone hsome'

theorem removeConnection_around (s : ClientState T) (c : Nat) : s.Around (s.removeConnection c) := by
  unfold removeConnection
  split
  · next client hrun =>
    obtain ⟨hconnection, hclient⟩ := check_bind_eq_ok.mp hrun
    cases hclient
    exact ⟨rfl, rfl, rfl, rfl, rfl, .inr ⟨by simp [hconnection], rfl, rfl⟩⟩
  · exact ⟨rfl, rfl, rfl, rfl, rfl, .inl ⟨rfl, rfl⟩⟩

theorem effect_around (c : Nat) (conn : TcpConnection) (s : ClientState T) (e : ConnEffect) :
    s.Around (effect c conn s e) := by
  cases e with
  | closeCallback => exact removeConnection_around s c
  | queueWriteComplete => exact ⟨rfl, rfl, rfl, rfl, rfl, .inl ⟨rfl, rfl⟩⟩
  | connectionCallback => exact ⟨rfl, rfl, rfl, rfl, rfl, .inl ⟨rfl, rfl⟩⟩
  | write => exact .refl s
  | shutdownWrite => exact .refl s
  | messageCallback => exact .refl s

theorem after_around (s : ClientState T) (c : Nat)
    (r : Except ConnFault (TcpConnection × List ConnEffect)) : s.Around (s.after c r) := by
  cases r with
  | error fault => exact ⟨rfl, rfl, rfl, rfl, rfl, .inl ⟨rfl, rfl⟩⟩
  | ok r =>
    obtain ⟨conn, es⟩ := r
    have hfold : ∀ s : ClientState T, s.Around (es.foldl (effect c conn) s) := by
      induction es with
      | nil => exact .refl
      | cons e es ih => exact fun s => (effect_around c conn s e).trans (ih _)
    have hset : s.Around (s.setConn c conn) := ⟨rfl, rfl, rfl, rfl, rfl, .inl ⟨rfl, rfl⟩⟩
    exact hset.trans (hfold _)

theorem newConnection_around (s : ClientState T) :
    { s with client := s.client.newConnection.2 }.Around s.newConnection :=
  after_around { s with client := s.client.newConnection.2 } s.client.nextConnId_
    s.client.newConnection.1.connectEstablished

/-- A functor of the batch leaves the client alone, but for the place in `connectDestroyed`. -/
theorem runFunctor_around {s s' : ClientState T} {w : WriteResult} {conn : TcpConnection}
    {f : ClientFunctor} (hrun : s.runFunctor w conn f = some s') :
    (∃ c, f = .connectDestroyed c ∧ { s with pc := .destroying c }.Around s') ∨ s.Around s' := by
  cases f with
  | sendInLoop c message =>
    obtain ⟨-, hrun⟩ := Option.ite_none_right_eq_some.mp hrun
    cases hrun
    exact .inr (after_around _ _ _)
  | shutdownInLoop c =>
    cases hrun
    exact .inr (after_around _ _ _)
  | writeComplete c =>
    cases hrun
    exact .inr (.refl s)
  | connectDestroyed c =>
    cases hrun
    exact .inl ⟨c, rfl, after_around _ _ _⟩

/-- `toRemoving` enters `removeConnection` before its test. -/
theorem toRemoving_ne_restarting {pc : ClientPc} (h : ∀ c todo, pc ≠ .event c todo .restarting) (c : Nat)
    (todo : List ChannelCallback) : toRemoving pc ≠ .event c todo .restarting := by
  unfold toRemoving
  split
  · simp
  · exact h c todo

variable [DecidableEq T]

/-- The loop's thread is there, and in no call. -/
structure At (s : ClientState T) (pc : ClientPc) : Prop where
  call : s.calls none = .idle
  starting : s.loop.starting = false
  pc : s.pc = pc

/-- What a step does. -/
inductive Moves (s : ClientState T) : ClientAct T → ClientState T → Prop
  | enableRetry : Moves s .enableRetry { s with client := s.client.enableRetry }
  | connectSet {o : Option T} (hcall : s.MayCall o = true) : Moves s (.connectSet o)
      ({ s with client := { s.client with connect_ := true } }.setCall o .connecting)
  | connectStart {o : Option T} {loop : ConnectorState T} (hcall : s.calls o = .connecting)
      (hloop : s.loop.step (startOf o) = some loop) :
      Moves s (.connectStart o) ({ s with loop }.setCall o .idle)
  | stopSet {o : Option T} (hcall : s.MayCall o = true) : Moves s (.stopSet o)
      ({ s with client := { s.client with connect_ := false } }.setCall o .stopping)
  | stopStop {o : Option T} {loop : ConnectorState T} (hcall : s.calls o = .stopping)
      (hloop : s.loop.step (stopOf o) = some loop) :
      Moves s (.stopStop o) ({ s with loop }.setCall o .idle)
  | disconnectSet {o : Option T} (hcall : s.MayCall o = true) : Moves s (.disconnectSet o)
      ({ s with client := { s.client with connect_ := false } }.setCall o .disconnecting)
  /-- `disconnect` and `shutdown` have nothing to do. -/
  | returned {a : ClientAct T} {o : Option T} (ha : a = .disconnectTest o ∨ ∃ c, a = .shutTest o c) :
      Moves s a (s.setCall o .idle)
  | sendOff {o : Option T} {c : Nat} {message : List UInt8} : Moves s (.sendTest o c message) s
  | sendTest {o : Option T} {c : Nat} {message : List UInt8} {conn : TcpConnection}
      (hcall : s.MayCall o = true) (hconn : s.conns c = some conn) (hstate : conn.state_ = .kConnected) :
      Moves s (.sendTest o c message) (s.setCall o (.sending c message))
  | sendHere {c : Nat} {message : List UInt8} {w : WriteResult} {conn : TcpConnection}
      (hcall : s.calls none = .sending c message) (hconn : s.conns c = some conn)
      (hw : w.Within message.length) : Moves s (.sendRun none w)
        ((s.setCall none .idle).after c (conn.sendInLoop message w))
  | sendPush {t : T} {c : Nat} {message : List UInt8} {w : WriteResult}
      (hcall : s.calls (some t) = .sending c message) : Moves s (.sendRun (some t) w)
        ((s.setCall (some t) .idle).queueInLoop (.sendInLoop c message))
  | shutTest {a : ClientAct T} {o : Option T} {c : Nat} {conn : TcpConnection}
      (ha : (a = .disconnectTest o ∧ s.client.connection_ = some c) ∨ a = .shutTest o c)
      (hconn : s.conns c = some conn) (hstate : conn.state_ = .kConnected) :
      Moves s a (s.setCall o (.shutting c))
  | shutSet {o : Option T} {c : Nat} {conn : TcpConnection} (hcall : s.calls o = .shutting c)
      (hconn : s.conns c = some conn) : Moves s (.shutSet o)
        ((s.setConn c { conn with state_ := .kDisconnecting }).setCall o (.shut c))
  | shutHere {c : Nat} {conn : TcpConnection} (hcall : s.calls none = .shut c)
      (hconn : s.conns c = some conn) : Moves s (.shutRun none)
        ((s.setCall none .idle).after c (.ok (conn, conn.shutdownInLoop)))
  | shutPush {t : T} {c : Nat} (hcall : s.calls (some t) = .shut c) : Moves s (.shutRun (some t))
      ((s.setCall (some t) .idle).queueInLoop (.shutdownInLoop c))
  | connector {a : ConnectorAct T} {loop : ConnectorState T}
      (ha : a.anywhere = true ∨ (a.inLoop = true ∧ s.At .free)) (hloop : s.loop.step a = some loop)
      (hmade : ¬ s.loop.made < loop.made) : Moves s (.connector a) { s with loop }
  | newConnection {a : ConnectorAct T} {loop : ConnectorState T}
      (ha : a.anywhere = true ∨ (a.inLoop = true ∧ s.At .free)) (hloop : s.loop.step a = some loop)
      (hmade : s.loop.made < loop.made) : Moves s (.connector a) { s with loop }.newConnection
  | poll {revents : Option Events} {timerfd : Bool} {active : List (Nat × Events)}
      {loop : ConnectorState T} (hfree : s.At .free) (hnodup : (active.map Prod.fst).Nodup)
      (hrep : active.all s.MayReport = true)
      (hloop : s.loop.step (.poll revents timerfd) = some loop) :
      Moves s (.poll revents timerfd active) { s with loop, active }
  | handleEvent {c : Nat} {revents : Events} {active : List (Nat × Events)}
      {channel : Option Events} {timerfd : Bool} (hfree : s.At .free)
      (hpc : s.loop.pc = .handlers channel timerfd) (hactive : s.active = (c, revents) :: active) :
      Moves s .handleEvent
        { s with active, pc := .event c (Channel.handleEvent revents) .between }
  | beginFunctors {loop : ConnectorState T} (hfree : s.At .free) (hactive : s.active = [])
      (hloop : s.loop.step .beginFunctors = some loop) :
      Moves s .beginFunctors { s with loop, functors := s.functors.swap }
  | runFunctor {w : WriteResult} {f : ClientFunctor} {rest : BatchQueue ClientFunctor}
      {conn : TcpConnection} {s' : ClientState T} (hfree : s.At .free) (hpc : s.loop.pc = .batch)
      (hnext : s.functors.next = some (f, rest)) (hconn : s.conns f.conn = some conn)
      (hrun : { s with functors := rest }.runFunctor w conn f = some s') :
      Moves s (.runFunctor w) s'
  | endFunctors {loop : ConnectorState T} (hfree : s.At .free) (hbatch : s.functors.batch = [])
      (hloop : s.loop.step .endFunctors = some loop) : Moves s .endFunctors { s with loop }
  | callClose {c : Nat} {todo : List ChannelCallback} {conn : TcpConnection}
      (hat : s.At (.event c (.close :: todo) .between)) (hconn : s.conns c = some conn) :
      Moves s .callClose ({ s with pc := .event c todo .between }.after c conn.handleClose)
  | callError {c : Nat} {todo : List ChannelCallback} {conn : TcpConnection}
      (hat : s.At (.event c (.error :: todo) .between)) (hconn : s.conns c = some conn) :
      Moves s .callError ({ s with pc := .event c todo .between }.after c conn.handleError)
  | callRead {c : Nat} {todo : List ChannelCallback} {place : EventPlace} {conn : TcpConnection}
      {r : ReadResult} (hat : s.At (.event c (.read :: todo) .between))
      (hconn : s.conns c = some conn) (hplace : place = .between ∨ place = .inMessage) :
      Moves s (.callRead r) ({ s with pc := .event c todo place }.after c (conn.handleRead r))
  | callWrite {c : Nat} {todo : List ChannelCallback} {conn : TcpConnection} {w : WriteResult}
      (hat : s.At (.event c (.write :: todo) .between)) (hconn : s.conns c = some conn)
      (hw : w.Within conn.outputBuffer_.length) :
      Moves s (.callWrite w) ({ s with pc := .event c todo .between }.after c (conn.handleWrite w))
  | messageDone {c : Nat} {todo : List ChannelCallback} (hat : s.At (.event c todo .inMessage)) :
      Moves s .messageDone { s with pc := .event c todo .between }
  | eventDone {c : Nat} (hat : s.At (.event c [] .between)) :
      Moves s .eventDone { s with pc := .free }
  | reconnects {c : Nat} {todo : List ChannelCallback} (hat : s.At (.event c todo .removing))
      (hrec : s.client.reconnects = true) :
      Moves s .removeTest { s with pc := .event c todo .restarting }
  | removed {c : Nat} {todo : List ChannelCallback} (hat : s.At (.event c todo .removing))
      (hrec : s.client.reconnects = false) :
      Moves s .removeTest { s with loop := s.loop.closed false, pc := .event c todo .between }
  | restart {c : Nat} {todo : List ChannelCallback} (hat : s.At (.event c todo .restarting)) :
      Moves s .restart { s with loop := s.loop.closed true, pc := .event c todo .between }
  | endDestroyed {c : Nat} {conn : TcpConnection} (hat : s.At (.destroying c))
      (hconn : s.conns c = some conn) :
      Moves s .endDestroyed
        ({ s with pc := .free }.after c (conn.endDestroyed.map (·, [])))

variable {s s' : ClientState T} {a : ClientAct T}

theorem connectorStep_moves {a : ConnectorAct T}
    (ha : a.anywhere = true ∨ (a.inLoop = true ∧ s.At .free)) (hs : s.connectorStep a = some s') :
    s.Moves (.connector a) s' := by
  obtain ⟨loop, hloop, rfl⟩ := Option.map_eq_some_iff.mp hs
  dsimp only
  split
  · next hmade => exact .newConnection ha hloop hmade
  · next hmade => exact .connector ha hloop hmade

theorem freeStep_moves (hfree : s.At .free) (hs : s.freeStep a = some s') : s.Moves a s' := by
  unfold freeStep at hs
  split at hs
  · split at hs
    · next hin => exact connectorStep_moves (.inr ⟨hin, hfree⟩) hs
    · cases hs
  · split at hs
    · next hrep =>
      obtain ⟨loop, hloop, rfl⟩ := Option.map_eq_some_iff.mp hs
      exact .poll hfree hrep.1 hrep.2 hloop
    · cases hs
  · split at hs
    · next hpc hactive =>
      cases hs
      exact .handleEvent hfree hpc hactive
    · cases hs
  · split at hs
    · next hactive =>
      obtain ⟨loop, hloop, rfl⟩ := Option.map_eq_some_iff.mp hs
      exact .beginFunctors hfree hactive hloop
    · cases hs
  · split at hs
    · next hpc =>
      obtain ⟨⟨f, rest⟩, hnext, hs⟩ := Option.bind_eq_some_iff.mp hs
      obtain ⟨conn, hconn, hrun⟩ := Option.bind_eq_some_iff.mp hs
      exact .runFunctor hfree hpc hnext hconn hrun
    · cases hs
  · split at hs
    · next hbatch =>
      obtain ⟨loop, hloop, rfl⟩ := Option.map_eq_some_iff.mp hs
      exact .endFunctors hfree hbatch hloop
    · cases hs
  · cases hs

theorem eventStep_moves (hat : s.At s.pc) (hs : s.eventStep a = some s') : s.Moves a s' := by
  have hpc' : ∀ pc, s.pc = pc → s.At pc := fun pc h => h ▸ hat
  unfold eventStep at hs
  split at hs
  · next hpc =>
    obtain ⟨conn, hconn, rfl⟩ := Option.map_eq_some_iff.mp hs
    exact .callClose (hpc' _ hpc) hconn
  · next hpc =>
    obtain ⟨conn, hconn, rfl⟩ := Option.map_eq_some_iff.mp hs
    exact .callError (hpc' _ hpc) hconn
  · next hpc =>
    obtain ⟨conn, hconn, rfl⟩ := Option.map_eq_some_iff.mp hs
    refine .callRead (hpc' _ hpc) hconn ?_
    split
    · exact .inr rfl
    · exact .inl rfl
  · next hpc =>
    obtain ⟨conn, hconn, hs⟩ := Option.bind_eq_some_iff.mp hs
    split at hs
    · next hw =>
      cases hs
      exact .callWrite (hpc' _ hpc) hconn hw
    · cases hs
  · next hpc => cases hs; exact .messageDone (hpc' _ hpc)
  · next hpc => cases hs; exact .eventDone (hpc' _ hpc)
  · next hpc =>
    cases hs
    split
    · next hrec => exact .reconnects (hpc' _ hpc) hrec
    · next hrec => exact .removed (hpc' _ hpc) (by simpa using hrec)
  · next hpc => cases hs; exact .restart (hpc' _ hpc)
  · next hpc =>
    obtain ⟨conn, hconn, rfl⟩ := Option.map_eq_some_iff.mp hs
    exact .endDestroyed (hpc' _ hpc) hconn
  · cases hs

theorem loopStep_moves (hs : s.loopStep a = some s') : s.Moves a s' := by
  unfold loopStep at hs
  split at hs
  · cases hs
  · next hat =>
    obtain ⟨hcall, hstart⟩ : s.calls none = .idle ∧ s.loop.starting = false := by simpa using hat
    split at hs
    · next hpc => exact freeStep_moves ⟨hcall, hstart, hpc⟩ hs
    · exact eventStep_moves ⟨hcall, hstart, rfl⟩ hs

/-- The inversion of a step. -/
theorem step_moves (hs : s.step a = some s') : s.Moves a s' := by
  unfold step at hs
  split at hs
  · cases hs
  split at hs
  · cases hs
    exact .enableRetry
  · split at hs
    · next hcall => cases hs; exact .connectSet hcall
    · cases hs
  · split at hs
    · next hcall =>
      obtain ⟨loop, hloop, rfl⟩ := Option.map_eq_some_iff.mp hs
      exact .connectStart hcall hloop
    · cases hs
  · split at hs
    · next hcall => cases hs; exact .stopSet hcall
    · cases hs
  · split at hs
    · next hcall =>
      obtain ⟨loop, hloop, rfl⟩ := Option.map_eq_some_iff.mp hs
      exact .stopStop hcall hloop
    · cases hs
  · split at hs
    · next hcall => cases hs; exact .disconnectSet hcall
    · cases hs
  · split at hs
    · split at hs
      · next hconnection =>
        obtain ⟨conn, hconn, rfl⟩ := Option.map_eq_some_iff.mp hs
        split
        · next hstate => exact .shutTest (.inl ⟨rfl, hconnection⟩) hconn hstate
        · exact .returned (.inl rfl)
      · cases hs
        exact .returned (.inl rfl)
    · cases hs
  · split at hs
    · next hcall =>
      obtain ⟨conn, hconn, rfl⟩ := Option.map_eq_some_iff.mp hs
      split
      · next hstate => exact .sendTest hcall hconn hstate
      · exact .sendOff
    · cases hs
  · next o w =>
    split at hs
    · next hcall =>
      cases o with
      | none =>
        obtain ⟨conn, hconn, hs⟩ := Option.bind_eq_some_iff.mp hs
        split at hs
        · next hw =>
          cases hs
          exact .sendHere hcall hconn hw
        · cases hs
      | some t =>
        cases hs
        exact .sendPush hcall
    · cases hs
  · split at hs
    · obtain ⟨conn, hconn, rfl⟩ := Option.map_eq_some_iff.mp hs
      split
      · next hstate => exact .shutTest (.inr rfl) hconn hstate
      · exact .returned (.inr ⟨_, rfl⟩)
    · cases hs
  · split at hs
    · next hcall =>
      obtain ⟨conn, hconn, rfl⟩ := Option.map_eq_some_iff.mp hs
      exact .shutSet hcall hconn
    · cases hs
  · next o =>
    split at hs
    · next hcall =>
      cases o with
      | none =>
        obtain ⟨conn, hconn, rfl⟩ := Option.map_eq_some_iff.mp hs
        exact .shutHere hcall hconn
      | some t =>
        cases hs
        exact .shutPush hcall
    · cases hs
  · split at hs
    · next hany => exact connectorStep_moves (.inl hany) hs
    · exact loopStep_moves hs
  · exact loopStep_moves hs

end ClientState

end Netfish

import Netfish.Net.LoneServer

/-!
# What the user of a server sees

The calls of `connectionCallback_` and `messageCallback_` for each connection, and the end of its stream, in
order. `CallbackPhase` is the protocol they follow; the code's state says in which phase a connection is, and the
log is a path to it. `writeCompleteCallback_` is no part of the protocol.
-/

set_option autoImplicit false

namespace Netfish

open Kit

universe u v

/-- What the user of a connection sees. -/
inductive Seen where
  /-- `connectionCallback_`, with what `connected()` says. -/
  | connection (connected : Bool)
  | message
  /-- The end of the stream is read. -/
  | endOfStream
deriving DecidableEq, Repr

/-! ## The protocol -/

/-- Where a connection stands for its user. -/
inductive CallbackPhase where
  | fresh
  | up
  | ended
  | down
deriving DecidableEq, Repr

namespace CallbackPhase

def next : CallbackPhase → Seen → Option CallbackPhase
  | .fresh, .connection true => some .up
  | .up, .message => some .up
  | .up, .endOfStream => some .ended
  | .ended, .connection false => some .down
  | _, _ => none

/-- What may come after the end of the stream. -/
theorem of_ended {log : List Seen} {phase : CallbackPhase} (h : log.foldlM next .ended = some phase) :
    log = [] ∨ log = [.connection false] := by
  match log with
  | [] => exact .inl rfl
  | [.connection false] => exact .inr rfl
  | .connection false :: e :: log => cases h
  | .connection true :: log => cases h
  | .message :: log => cases h
  | .endOfStream :: log => cases h

theorem of_up {log : List Seen} {phase : CallbackPhase} (h : log.foldlM next .up = some phase) :
    ∃ n, ∃ tail ∈ [[], [.endOfStream], [.endOfStream, .connection false]],
      log = List.replicate n .message ++ tail := by
  induction log with
  | nil => exact ⟨0, [], by simp, rfl⟩
  | cons e log ih =>
    cases e with
    | connection connected => cases h
    | message =>
      obtain ⟨n, tail, htail, rfl⟩ := ih h
      exact ⟨n + 1, tail, htail, rfl⟩
    | endOfStream =>
      rcases of_ended h with rfl | rfl
      · exact ⟨0, [.endOfStream], by simp, rfl⟩
      · exact ⟨0, [.endOfStream, .connection false], by simp, rfl⟩

end CallbackPhase

/-- One call with `connected()` true, then messages; and when the end of the stream was read no more of
them, but at most one call with `connected()` false. -/
def CallbackProtocol (log : List Seen) : Prop :=
  log = [] ∨ ∃ n, ∃ tail ∈ [[], [.endOfStream], [.endOfStream, .connection false]],
    log = .connection true :: (List.replicate n .message ++ tail)

theorem CallbackProtocol.of_phase {log : List Seen} {phase : CallbackPhase}
    (h : log.foldlM CallbackPhase.next .fresh = some phase) : CallbackProtocol log := by
  match log with
  | [] => exact .inl rfl
  | .connection true :: log =>
    obtain ⟨n, tail, htail, rfl⟩ := CallbackPhase.of_up h
    exact .inr ⟨n, tail, htail, rfl⟩
  | .connection false :: log => cases h
  | .message :: log => cases h
  | .endOfStream :: log => cases h

/-- The callback of the user that an effect is; `conn` is the connection in the callback. -/
def ConnEffect.seen (conn : TcpConnection) : ConnEffect → Option Seen
  | .connectionCallback => some (.connection (conn.state_ = .kConnected))
  | .messageCallback => some .message
  | _ => none

namespace ServerState

variable {T : Type u} {L : Type v}

/-- The phase a connection is in. -/
def phase (s : ServerState T L) (c : Nat) : CallbackPhase :=
  if 0 < s.destroys c then .down
  else if 0 < s.closes c then .ended
  else if (s.conns c).any (·.conn.state_ ≠ .kConnecting) then .up
  else .fresh

variable [DecidableEq L]

/-- The method of the connection that a functor calls. -/
def functorMethod (sc : ServerConn L) (w : WriteResult) :
    ServerFunctor → Option (Except ConnFault (TcpConnection × List ConnEffect))
  | .connectEstablished _ => some sc.conn.connectEstablished
  | .sendInLoop _ message => some (sc.conn.sendInLoop message w)
  | .shutdownInLoop _ => some (.ok (sc.conn, sc.conn.shutdownInLoop))
  | .connectDestroyed _ => some sc.conn.beginDestroyed
  | _ => none

/-- The method of a connection that a step calls. -/
def method [DecidableEq T] (s : ServerState T L) :
    ServerAct T L → Option (Nat × Except ConnFault (TcpConnection × List ConnEffect))
  | .newConnection =>
    let (sc, server) := s.server.newConnection
    if sc.loop_ = server.loop_ then some (s.server.nextConnId_, sc.conn.connectEstablished) else none
  | .sendRun o w =>
    match s.calls o with
    | .sending c message => (s.conns c).bind fun sc =>
      if o = .loop sc.loop_ then some (c, sc.conn.sendInLoop message w) else none
    | _ => none
  | .shutRun o =>
    match s.calls o with
    | .shut c => (s.conns c).bind fun sc =>
      if o = .loop sc.loop_ then some (c, .ok (sc.conn, sc.conn.shutdownInLoop)) else none
    | _ => none
  | .loop l a =>
    match a, s.pcs l with
    | .callClose, .event c .. => (s.conns c).map fun sc => (c, sc.conn.handleClose)
    | .callError, .event c .. => (s.conns c).map fun sc => (c, sc.conn.handleError)
    | .callRead r, .event c .. => (s.conns c).map fun sc => (c, sc.conn.handleRead r)
    | .callWrite w, .event c .. => (s.conns c).map fun sc => (c, sc.conn.handleWrite w)
    | .runFunctor w, .batch => (s.functors l).next.bind fun (f, _) => (s.conns f.conn).bind fun sc =>
      (functorMethod sc w f).map (f.conn, ·)
    | _, _ => none
  | _ => none

/-- The step reads the end of a stream. -/
def ReadsEnd : ServerAct T L → Bool
  | .loop _ (.callRead .eof) => true
  | _ => false

/-- What the user of the connection sees of a step. -/
def seen [DecidableEq T] (s : ServerState T L) (a : ServerAct T L) (c : Nat) : List Seen :=
  match s.method a with
  | some (d, .ok (conn, es)) =>
    if d = c then (if ReadsEnd a then [.endOfStream] else []) ++ es.filterMap (ConnEffect.seen conn)
    else []
  | _ => []

variable {s s' : ServerState T L} {l : L} {c : Nat} {sc : ServerConn L}

/-- A step takes every connection along the protocol. -/
def Shown [DecidableEq T] (s : ServerState T L) (a : ServerAct T L) (s' : ServerState T L) : Prop :=
  ∀ c, (s.seen a c).foldlM CallbackPhase.next (s.phase c) = some (s'.phase c)

section

omit [DecidableEq L]

theorem phase_setConn (hc : s.conns c = some sc) {conn : TcpConnection}
    (hstate : conn.state_ = .kConnecting ↔ sc.conn.state_ = .kConnecting) (d : Nat) :
    (s.setConn c { sc with conn }).phase d = s.phase d := by
  by_cases hd : d = c
  · subst hd
    simp [phase, ServerState.setConn, hc, hstate]
  · simp [phase, ServerState.setConn, Function.update_of_ne hd]

/-- An established connection is up. -/
theorem phase_established (hc : s.conns c = some sc)
    (htally : s.tally c sc = Stage.established.tally c) (hfits : Stage.established.Fits sc.conn) :
    s.phase c = .up := by
  have hcloses : s.closes c = 0 := congrArg Tally.closes htally
  have hdestroys : s.destroys c = 0 := congrArg Tally.destroys htally
  simp [phase, hcloses, hdestroys, hc, hfits.started]

end

variable [DecidableEq T] {a : ServerAct T L} {conn : TcpConnection} {es : List ConnEffect}

theorem Shown.silent (hseen : ∀ c, s.seen a c = []) (hphase : ∀ c, s'.phase c = s.phase c) :
    s.Shown a s' := by
  intro c
  rw [hseen, hphase]
  rfl

theorem seen_of_method (hm : s.method a = none) (c : Nat) : s.seen a c = [] := by
  rw [seen, hm]

/-- A method with no effects but those of output shows nothing. -/
theorem seen_of_output (hm : s.method a = some (c, .ok (conn, es))) (ha : ReadsEnd a = false)
    (hes : ∀ e ∈ es, e.isOutput = true) (d : Nat) : s.seen a d = [] := by
  have hnone : es.filterMap (ConnEffect.seen conn) = [] := by
    refine List.filterMap_eq_nil_iff.mpr ?_
    intro e he
    have hout := hes e he
    cases e <;> first | rfl | cases hout
  simp only [seen, hm, ha, hnone]
  split <;> rfl

/-- A method of the connection takes it along, and no other. -/
theorem Shown.of_method (hm : s.method a = some (c, .ok (conn, es)))
    (hnext : ((if ReadsEnd a then [Seen.endOfStream] else []) ++
      es.filterMap (ConnEffect.seen conn)).foldlM CallbackPhase.next (s.phase c) = some (s'.phase c))
    (hrest : ∀ d, d ≠ c → s'.phase d = s.phase d) : s.Shown a s' := by
  intro d
  by_cases hd : d = c
  · subst hd
    simpa only [seen, hm, if_true] using hnext
  · simp only [seen, hm, if_neg (Ne.symm hd), hrest d hd]
    rfl

/-! ## Steps -/

attribute [local simp] method ReadsEnd phase CallbackPhase.next

variable {revents : Events} {cb : ChannelCallback} {todo : List ChannelCallback} {inMessage : Bool}
  {active : List (Nat × Events)} {w : WriteResult} {f : ServerFunctor} {rest : BatchQueue ServerFunctor}

theorem method_callRead {r : ReadResult} (hpc : s.pcs l = .event c revents todo inMessage active)
    (hc : s.conns c = some sc) :
    s.method (.loop l (.callRead r)) = some (c, sc.conn.handleRead r) := by
  simp [hpc, hc]

theorem method_runFunctor (hpc : s.pcs l = .batch) (hnext : (s.functors l).next = some (f, rest))
    (hc : s.conns f.conn = some sc) :
    s.method (.loop l (.runFunctor w)) = (functorMethod sc w f).map (f.conn, ·) := by
  simp [hpc, hnext, hc]

/-- The read callback, of a lone server. -/
theorem Alone.shown_read {r : ReadResult} (h : s.Alone) (hlaw : s.Lawful)
    (hpc : s.pcs l = .event c revents (.read :: todo) inMessage active) (hc : s.conns c = some sc) :
    s.Shown (.loop l (.callRead r)) (s.after c sc (sc.conn.handleRead r) (·.setPc l
      (.event c revents todo (r = .data && sc.conn.messageCallback_) active))) := by
  have hm := method_callRead (r := r) hpc hc
  have hhang := h.hangup l
  rw [hpc] at hhang
  obtain ⟨htally, hfits⟩ := hlaw.established (hhang _ List.mem_cons_self) hpc hc
  have hup := phase_established hc htally hfits
  cases r with
  | data =>
    rw [TcpConnection.handleRead, after_idle hc fun t => by split <;> rfl]
    refine .of_method hm ?_ fun _ _ => rfl
    show _ = some (s.phase c)
    rw [hup]
    cases sc.conn.messageCallback_ <;> rfl
  | error =>
    rw [TcpConnection.handleRead, TcpConnection.handleError, after_idle hc fun _ => rfl]
    exact .silent (seen_of_output hm rfl (by simp)) fun _ => rfl
  | eof =>
    obtain ⟨conn, hrun, hstate, heq⟩ := h.close_eq hc htally hfits
    have hcloses : s.closes c = 0 := congrArg Tally.closes htally
    have hdestroys : s.destroys c = 0 := congrArg Tally.destroys htally
    rw [TcpConnection.handleRead, hrun] at hm
    rw [TcpConnection.handleRead, heq]
    refine .of_method hm ?_ ?_
    · have hnone : [ConnEffect.closeCallback].filterMap (ConnEffect.seen conn) = [] := rfl
      rw [hup]
      simp [hnone, ServerState.setPc, queueInLoop, ServerState.eraseEntry, ServerState.countClose,
        ServerState.setConn, hcloses, hdestroys]
    · intro d hd
      simp [ServerState.setPc, queueInLoop, ServerState.eraseEntry, ServerState.countClose,
        ServerState.setConn, Function.update_of_ne hd]

/-- `connectDestroyed` up to its callback, of a lone server. -/
theorem Alone.shown_destroy (hlaw : s.Lawful) (hpc : s.pcs l = .batch)
    (hnext : (s.functors l).next = some (.connectDestroyed c, rest)) (hc : s.conns c = some sc) :
    s.Shown (.loop l (.runFunctor w)) (((s.setFunctors l rest).countDestroy c).after c sc
      sc.conn.beginDestroyed (·.setPc l (.destroying c))) := by
  obtain ⟨sd, stage, hd, -, htally, -, hstage⟩ :=
    hlaw.stage_of_queued (c := c) (BatchQueue.next_mem hnext) rfl
  cases hc.symm.trans hd
  subst hstage
  have hcloses : s.closes c = 1 := congrArg Tally.closes htally
  obtain ⟨conn, hrun, hstate, -, hdestroys⟩ := hlaw.beginDestroyed_eq hnext hc
  have hended : s.phase c = .ended := by simp [hcloses, hdestroys]
  have hm := method_runFunctor (w := w) hpc hnext hc
  simp only [functorMethod, hrun, Option.map_some] at hm
  rw [hrun]
  refine .of_method hm ?_ ?_
  · show _ = some (phase _ c)
    rw [show s.phase (ServerFunctor.connectDestroyed c).conn = .ended from hended]
    simp [ConnEffect.seen, hstate, after, effect, ServerState.setPc, ServerState.countDestroy,
      ServerState.setConn, ServerState.setFunctors]
  · intro d hd
    have hd : d ≠ c := hd
    simp [after, effect, ServerState.setPc, ServerState.countDestroy, ServerState.setConn,
      ServerState.setFunctors, Function.update_of_ne hd]

/-- A connection is accepted, by a lone server. -/
theorem Alone.shown_newConnection (h : s.Alone) (hlaw : s.Lawful) :
    s.Shown .newConnection s.newConnection := by
  obtain ⟨conn, hrun, hstate, hloop, -, heq⟩ := h.newConnection_eq
  have hfresh : s.phase s.server.nextConnId_ = .fresh := by
    simp [hlaw.fresh, hlaw.unborn _ hlaw.fresh]
  have hzero := hlaw.unborn _ hlaw.fresh
  have hm : s.method .newConnection = some (s.server.nextConnId_, .ok (conn, [.connectionCallback])) := by
    simp only [method, hrun]
    exact if_pos hloop
  rw [heq]
  refine .of_method hm ?_ ?_
  · rw [hfresh]
    simp [ConnEffect.seen, hstate, hzero]
  · intro d hd
    simp [Function.update_of_ne hd]

/-- A step of the loop, of a lone server. -/
theorem LoopMoves.lone {a : IoLoopStep} (hmove : s.LoopMoves l a s') (h : s.Alone) (hlaw : s.Lawful)
    (hidle : s.calls (.loop l) = .idle) (hown : s.OwnCalls (.loop l a) = true) :
    s'.Alone ∧ s.Shown (.loop l a) s' := by
  have hfunctor : ∀ {f rest}, (s.functors l).next = some (f, rest) →
      (∃ c, f = .writeComplete c) ∨ ∃ c, f = .connectDestroyed c := fun hnext =>
    h.functors l _ (BatchQueue.next_mem hnext)
  cases hmove with
  | poll hpc _ hrep =>
    exact ⟨h.poll hlaw hpc hrep hown, .silent (seen_of_method rfl) fun _ => rfl⟩
  | handleEvent hpc =>
    exact ⟨h.forward hpc (by simp) (List.Subset.refl _) id, .silent (seen_of_method rfl) fun _ => rfl⟩
  | callClose hpc hc => exact (h.not_hangup hlaw hpc).elim
  | @callError c revents todo inMessage active sc hpc hc =>
    have hm : s.method (.loop l .callError) = some (c, .ok (sc.conn, [])) := by
      simp [hpc, hc, TcpConnection.handleError]
    rw [TcpConnection.handleError, after_idle hc fun _ => rfl]
    exact ⟨h.forward hpc (by simp) (List.Subset.refl _) id,
      .silent (seen_of_output hm rfl (by simp)) fun _ => rfl⟩
  | callRead hpc hc => exact ⟨h.callRead hlaw hpc hc, h.shown_read hlaw hpc hc⟩
  | @callWrite w c revents todo inMessage active sc hpc hc hw =>
    refine ⟨h.callWrite hlaw hpc hc hw, ?_⟩
    obtain ⟨conn, es, hrun, hwrote⟩ := TcpConnection.handleWrite_spec (hlaw.wf hc) hw
    have hm : s.method (.loop l (.callWrite w)) = some (c, .ok (conn, es)) := by
      simp [hpc, hc, hrun]
    rw [after_quiet hrun hwrote.noClose]
    exact .silent (seen_of_output hm rfl (TcpConnection.handleWrite_output hrun))
      (phase_setConn hc (by rw [hwrote.state]))
  | eventDone hpc =>
    exact ⟨h.forward hpc (by simp) (List.subset_cons_self ..) id, .silent (seen_of_method rfl) fun _ => rfl⟩
  | beginFunctors hpc =>
    exact ⟨h.beginFunctors hpc hlaw, .silent (seen_of_method rfl) fun _ => rfl⟩
  | writeComplete hpc hnext hc =>
    exact ⟨h.pop hnext, .silent (seen_of_method (method_runFunctor hpc hnext hc)) fun _ => rfl⟩
  | destroy hpc hnext hc =>
    exact ⟨h.beginDestroyed hlaw hpc hidle hnext hc, Alone.shown_destroy hlaw hpc hnext hc⟩
  | endDestroyed hpc hc =>
    refine ⟨h.endDestroyed hlaw hpc hc, .silent (seen_of_method rfl) ?_⟩
    rw [hlaw.endDestroyed_eq hpc hc]
    exact phase_setConn hc Iff.rfl
  | endFunctors hpc hb =>
    exact ⟨h.forward hpc (by simp) (List.Subset.refl _) (by simp [IoLoopPc.dispatching]), .silent (seen_of_method rfl) fun _ => rfl⟩
  | establish hpc hnext hc => rcases hfunctor hnext with ⟨_, hf⟩ | ⟨_, hf⟩ <;> cases hf
  | send hpc hnext hc hw => rcases hfunctor hnext with ⟨_, hf⟩ | ⟨_, hf⟩ <;> cases hf
  | shutdown hpc hnext hc => rcases hfunctor hnext with ⟨_, hf⟩ | ⟨_, hf⟩ <;> cases hf
  | remove hpc hnext hc => rcases hfunctor hnext with ⟨_, hf⟩ | ⟨_, hf⟩ <;> cases hf

/-- A hang-up that calls for the close callback is not reported. -/
theorem Moves.closesInTime (hmove : s.Moves a s') (h : s.Alone) (hlaw : s.Lawful) : s.ClosesInTime a := by
  intro l c revents todo inMessage active hpc
  have hno : revents.hangup = false := h.hangup l revents (by rw [hpc]; exact List.mem_cons_self)
  refine ⟨?_, fun _ => hno⟩
  rintro rfl
  cases hmove with
  | loop _ hmove =>
    cases hmove with
    | callClose hpc hc => exact (h.not_hangup hlaw hpc).elim

/-- A step of a lone server. -/
theorem Moves.lone (hmove : s.Moves a s') (h : s.Alone) (hlaw : s.Lawful) (hown : s.OwnCalls a = true) :
    s'.Alone ∧ s.Shown a s' := by
  have hhome : ∀ {o c sc}, s.calls o ≠ .idle → s.conns c = some sc → o = .loop sc.loop_ := by
    intro o c sc ho hc
    rw [h.home c sc hc]
    exact h.callers o ho
  cases hmove with
  | newConnection hpc hidle => exact ⟨h.newConnection hlaw, h.shown_newConnection hlaw⟩
  | @sendTest o c message sc hmay hc hstate =>
    refine ⟨h.setCall (fun _ => of_decide_eq_true hown) ?_, .silent (seen_of_method rfl) fun _ => rfl⟩
    rintro d (⟨_, hcall⟩ | hcall) <;> cases hcall
    exact ⟨sc, hc, hstate⟩
  | sendNot => exact ⟨h, .silent (seen_of_method rfl) fun _ => rfl⟩
  | @sendHere o w c message sc hcall hc ho hw =>
    refine ⟨h.sendHere hlaw hcall hc, ?_⟩
    obtain ⟨conn, es, hrun, hsent⟩ := TcpConnection.sendInLoop_spec (hlaw.wf hc) message w
    have hm : s.method (.sendRun o w) = some (c, .ok (conn, es)) := by
      simp [hcall, hc, if_pos ho, hrun]
    rw [after_quiet hrun hsent.noClose]
    exact .silent (seen_of_output hm rfl (TcpConnection.sendInLoop_output hrun))
      (phase_setConn hc (by rw [hsent.state]))
  | sendPush hcall hc ho => exact absurd (hhome (by rw [hcall]; nofun) hc) ho
  | @shutTest o c sc hmay hc hstate =>
    refine ⟨h.setCall (fun _ => of_decide_eq_true hown) ?_, .silent (seen_of_method rfl) fun _ => rfl⟩
    rintro d (⟨_, hcall⟩ | hcall) <;> cases hcall
    exact ⟨sc, hc, hstate⟩
  | shutNot => exact ⟨h, .silent (seen_of_method rfl) fun _ => rfl⟩
  | @shutSet o c sc hcall hc =>
    refine ⟨h.shutSet hcall hc, .silent (seen_of_method rfl) (phase_setConn hc ?_)⟩
    obtain ⟨sd, hd, hconnected⟩ := h.tested o c (.inr hcall)
    cases hc.symm.trans hd
    simp [hconnected]
  | @shutHere o c sc hcall hc ho =>
    have hm : s.method (.shutRun o) = some (c, .ok (sc.conn, sc.conn.shutdownInLoop)) := by
      simp [hcall, hc, if_pos ho]
    rw [after_shutdownInLoop hc]
    exact ⟨h.setCall (absurd rfl) (by simp),
      .silent (seen_of_output hm rfl sc.conn.shutdownInLoop_output) fun _ => rfl⟩
  | shutPush hcall hc ho => exact absurd (hhome (by rw [hcall]; nofun) hc) ho
  | loop hidle hmove => exact hmove.lone h hlaw hidle hown

end ServerState

variable {T : Type u} {L : Type v} [DecidableEq T] [DecidableEq L]

/-- A server without extra threads whose user calls from its loop only, and what the user sees of each
connection. -/
def loneServer (T : Type u) (L : Type v) [DecidableEq T] [DecidableEq L] :
    Machine (ServerState T L × (Nat → List Seen)) (ServerAct T L) :=
  ({ (tcpServer T L).restrict ServerState.OwnCalls with
      init s := (tcpServer T L).init s ∧ s.server.threadPool_.loops_ = [] }).observe (fun _ => [])
    fun log s a _ => some fun c => log c ++ s.seen a c

/-- **The callback protocol of a connection.** In every run of a server without extra threads whose user
calls `send` and `shutdown` in its loop, whenever and on whatever connection, and whatever reads, writes
and `poll` give, what the user sees of a connection is: nothing yet, or one `connectionCallback_` with
`connected()` true, then messages, then the end of the stream and no message after it, and last one
`connectionCallback_` with `connected()` false. -/
theorem callback_protocol {p : ServerState T L × (Nat → List Seen)}
    (h : (loneServer T L).Reachable p) (c : Nat) : CallbackProtocol (p.2 c) := by
  have hinv : p.1.Lawful ∧ p.1.Alone ∧
      ∀ c, (p.2 c).foldlM CallbackPhase.next .fresh = some (p.1.phase c) := by
    refine h.invariant (fun p => p.1.Lawful ∧ p.1.Alone ∧
      ∀ c, (p.2 c).foldlM CallbackPhase.next .fresh = some (p.1.phase c)) ?_ ?_
    · rintro ⟨s, log⟩ ⟨⟨⟨loop, name, _, _, numThreads, startLoop, server, hserver, rfl⟩, hpool⟩, rfl⟩
      exact ⟨ServerState.start_lawful server,
        ServerState.start_alone hpool (TcpServer.start_baseLoop hserver rfl), fun _ => rfl⟩
    · rintro ⟨s, log⟩ a ⟨s', log'⟩ ⟨hlaw, hlone, hlog⟩ hs
      obtain ⟨hs, hsee⟩ := Machine.observe_step.mp hs
      obtain ⟨hown, hs⟩ := Machine.restrict_step.mp hs
      obtain ⟨-, hmove⟩ := ServerState.step_moves hs
      obtain ⟨hlone', hshown⟩ := hmove.lone hlone hlaw hown
      refine ⟨hmove.lawful hlaw (hmove.closesInTime hlone hlaw), hlone', ?_⟩
      intro c
      cases hsee
      rw [List.foldlM_append, hlog c]
      exact hshown c
  exact .of_phase (hinv.2.2 c)

/-- A connection that is up gets a message, sends an answer from its callback, reads the end of the stream
and is destroyed. -/
theorem callback_protocol_eof : ∃ p : ServerState Unit Bool × (Nat → List Seen),
    (loneServer Unit Bool).Reachable p ∧
      p.2 1 = [.connection true, .message, .endOfStream, .connection false] ∧
      CallbackProtocol (p.2 1) := by
  obtain ⟨server, hserver⟩ : ∃ server, ((TcpServer.new false "server" true false).setThreadNum
      0).start (fun _ => true) = .ok server := ⟨_, rfl⟩
  have hend : ((((TcpServer.new false "server" true false).setThreadNum 0).start fun _ =>
      true).toOption.bind fun server => ((loneServer Unit Bool).run (.start server, fun _ => [])
        [.loop false (.poll []), .newConnection, .loop false .beginFunctors,
          .loop false .endFunctors, .loop false (.poll [(1, { pollin := true })]),
          .loop false .handleEvent, .loop false (.callRead .data), .sendTest (.loop false) 1 [1],
          .sendRun (.loop false) .failed, .loop false .eventDone, .loop false .beginFunctors,
          .loop false .endFunctors, .loop false (.poll [(1, { pollin := true, pollhup := true })]),
          .loop false .handleEvent, .loop false (.callRead .eof), .loop false .eventDone,
          .loop false .beginFunctors, .loop false (.runFunctor .failed)]).map (·.2 1)) =
      some [.connection true, .message, .endOfStream, .connection false] := by
    decide +kernel
  have hpool : server.threadPool_.loops_ = [] := by
    cases hserver
    rfl
  rw [hserver] at hend
  obtain ⟨p, hp, hlog⟩ := Option.map_eq_some_iff.mp hend
  have hreach : (loneServer Unit Bool).Reachable p :=
    ⟨_, _, ⟨⟨⟨_, _, _, _, _, _, server, hserver, rfl⟩, hpool⟩, rfl⟩, hp⟩
  exact ⟨p, hreach, hlog, callback_protocol hreach 1⟩

end Netfish

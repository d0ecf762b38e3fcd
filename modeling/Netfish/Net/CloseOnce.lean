import Netfish.Net.ServerMoves
import Netfish.Net.ServerSteps

/-!
# Closing once

A connection whose close callback was called keeps its state until `connectDestroyed` has come back
to its loop. Until then `send` may register its channel again, for writing, and epoll may report a
hang-up on it; and a hang-up may come with urgent data, whose read finds the end of the stream. Both
close the connection a second time. `closed_once_iff` says that a server's connections are closed
once as long as neither happens.
-/

set_option autoImplicit false

namespace Netfish

open Kit

universe u v

namespace ServerState

variable {T : Type u} {L : Type v}

/-- `closeCallback_` and `connectDestroyed` of every connection were called at most once, and no
assertion failed. -/
def ClosedOnce (s : ServerState T L) : Prop :=
  (∀ c, s.closes c ≤ 1) ∧ (∀ c, s.destroys c ≤ 1) ∧ s.fault = none

/-- A close callback is called for a connection with interest in reading; and where it was one of
the calls of `handleEvent`, the read does not find the end of the stream. -/
def ClosesInTime (s : ServerState T L) (a : ServerAct T L) : Prop :=
  ∀ l c revents todo inMessage active, s.pcs l = .event c revents todo inMessage active →
    (a = .loop l .callClose → ∃ sc, s.conns c = some sc ∧ sc.reading = true) ∧
    (a = .loop l (.callRead .eof) → revents.hangup = false)

theorem Lawful.closedOnce {s : ServerState T L} (h : s.Lawful) : s.ClosedOnce := by
  have hle : ∀ c, s.closes c ≤ 1 ∧ s.destroys c ≤ 1 := by
    intro c
    cases hc : s.conns c with
    | none =>
      obtain ⟨hcloses, hdestroys⟩ := h.unborn c hc
      omega
    | some sc =>
      obtain ⟨stage, htally, -⟩ := h.staged c sc hc
      have hstage := stage.tally_closes_le c
      rwa [← htally] at hstage
  exact ⟨fun c => (hle c).1, fun c => (hle c).2, h.noFault⟩

/-- A connection in use that has lost its interest in reading was closed. -/
theorem Lawful.closes_pos {s : ServerState T L} {c : Nat} {sc : ServerConn L} (h : s.Lawful)
    (hc : s.conns c = some sc) (hin : sc.conn.inUse = true) (hread : sc.reading = false) :
    0 < s.closes c := by
  obtain ⟨stage, htally, hfits⟩ := h.staged c sc hc
  have hcount : s.closes c = (stage.tally c).closes := congrArg Tally.closes htally
  rw [hcount]
  cases stage with
  | accepted =>
    have hstate : sc.conn.state_ = .kConnecting := hfits.state
    simp [TcpConnection.inUse, hstate] at hin
  | established =>
    have hyes : sc.reading = true := hfits.reading.mpr rfl
    cases hread.symm.trans hyes
  | _ => exact Nat.one_pos

variable [DecidableEq L] {s s' : ServerState T L} {l : L} {c : Nat} {sc : ServerConn L}

/-- A step of a loop keeps the invariant when its closes are in time. -/
theorem LoopMoves.lawful {a : IoLoopStep} (hmove : s.LoopMoves l a s') (h : s.Lawful)
    (hidle : s.calls (.loop l) = .idle) (hok : s.ClosesInTime (.loop l a : ServerAct T L)) :
    s'.Lawful := by
  cases hmove with
  | poll hpc hnodup hrep => exact h.poll hpc hnodup hrep
  | handleEvent hpc => exact h.handleEvent hpc
  | @callClose c revents todo inMessage active sc hpc hc =>
    obtain ⟨sd, hd, hread⟩ := (hok l c revents _ _ _ hpc).1 rfl
    cases hc.symm.trans hd
    have hmem := (h.handling hpc).suffix.subset List.mem_cons_self
    exact h.close hpc hc (h.loop_of_event hpc hc) hread
      (fun _ => Channel.close_mem_handleEvent.mp hmem) false
  | callError hpc hc =>
    rw [TcpConnection.handleError, after_idle hc fun _ => rfl]
    exact h.skip hpc (by simp) false
  | @callRead r c revents todo inMessage active sc hpc hc =>
    cases r with
    | eof =>
      have hno := (hok l c revents _ _ _ hpc).2 rfl
      have hhand := h.handling hpc
      obtain ⟨sd, hd, hl, hread⟩ := hhand.reading
      cases hc.symm.trans hd
      have hnodup := (Channel.handleEvent_nodup revents).sublist hhand.suffix.sublist
      exact h.close hpc hc hl (hread List.mem_cons_self hno)
        (fun hm => absurd hm (List.nodup_cons.mp hnodup).1) _
    | error =>
      rw [TcpConnection.handleRead, TcpConnection.handleError, after_idle hc fun _ => rfl]
      exact h.skip hpc (by simp) _
    | data =>
      rw [TcpConnection.handleRead, after_idle hc fun t => by split <;> rfl]
      exact h.skip hpc (by simp) _
  | callWrite hpc hc hw => exact h.callWrite hpc hc hw
  | eventDone hpc =>
    have hal := h.allowed l
    rw [hpc] at hal
    exact h.setPc ⟨hal.1, hal.2.1⟩
  | beginFunctors hpc => exact h.beginFunctors hpc
  | establish hpc hnext hc => exact h.establish hpc hnext hc
  | send hpc hnext hc => exact h.send hpc hnext hc _
  | shutdown hpc hnext hc =>
    exact (after_shutdownInLoop (s := s.setFunctors l _) hc id).symm ▸ h.pop hnext rfl hpc
  | writeComplete hpc hnext => exact h.pop hnext rfl hpc
  | remove hpc hnext hc => exact h.remove hpc hnext hc
  | destroy hpc hnext hc => exact h.beginDestroyed hnext hc hidle
  | endDestroyed hpc hc => exact h.endDestroyed hpc hc
  | endFunctors hpc hbatch => exact h.setPc hbatch

theorem removeConnection_closes : (s.removeConnection c sc).closes = s.closes := by
  unfold removeConnection
  split
  · simp only [removeConnectionInLoop]
    split <;> rfl
  · rfl

/-- `handleClose` of a connection that was closed is the second one, or stops at its assertion. -/
theorem Lawful.handleClose_breaks (h : s.Lawful) (hc : s.conns c = some sc)
    (hclosed : sc.conn.inUse = true → 0 < s.closes c) (pc : IoLoopPc) :
    ¬ (s.after c sc sc.conn.handleClose (·.setPc l pc)).ClosedOnce := by
  intro hgood
  by_cases hin : sc.conn.inUse = true
  · have hpos := hclosed hin
    have hle := hgood.1 c
    obtain ⟨channel, hrun, -⟩ := TcpConnection.handleClose_spec (h.wf hc) hin
    rw [hrun] at hle
    simp only [after, List.foldl_cons, List.foldl_nil, effect, ServerState.setPc,
      removeConnection_closes] at hle
    have hle : s.closes c + 1 ≤ 1 := by simpa [countClose, ServerState.setConn] using hle
    omega
  · have hfault := hgood.2.2
    rw [TcpConnection.handleClose, check_neg hin] at hfault
    cases hfault

variable [DecidableEq T]

/-- A step keeps the invariant when its closes are in time. -/
theorem Moves.lawful {a : ServerAct T L} (hmove : s.Moves a s') (h : s.Lawful)
    (hok : s.ClosesInTime a) : s'.Lawful := by
  cases hmove with
  | newConnection => exact h.newConnection
  | sendTest hmay hc hstate => exact h.sendTest hc hstate
  | sendHere hcall hc ho => exact h.sendHere hcall hc ho
  | sendPush hcall hc => exact h.sendPush hc
  | @shutTest o c sc hmay hc hstate =>
    refine h.setCall ?_ (by simp)
    intro d hd
    cases hd
    exact ⟨sc, hc, by rw [hstate]; decide⟩
  | shutSet hcall hc => exact h.shutSet hcall hc
  | shutHere hcall hc => exact h.shutHere hc
  | shutPush hcall hc => exact h.shutPush hc
  | sendNot | shutNot => exact h
  | loop hidle hmove => exact hmove.lawful h hidle hok

/-- A close that is not in time is the second one of its connection, or stops at an assertion. -/
theorem Moves.breaks {a : ServerAct T L} (hmove : s.Moves a s') (h : s.Lawful)
    (hok : ¬ s.ClosesInTime a) : ¬ s'.ClosedOnce := by
  simp only [ClosesInTime, not_forall, not_and_or] at hok
  obtain ⟨l, c, revents, todo, inMessage, active, hpc, ⟨rfl, hno⟩ | ⟨rfl, hhang⟩⟩ := hok
  · cases hmove with
    | loop _ hmove =>
      cases hmove with
      | @callClose _ _ _ _ _ sc hpc' hc =>
        cases hpc.symm.trans hpc'
        have hread : sc.reading = false := Bool.eq_false_iff.mpr fun hr => hno ⟨sc, hc, hr⟩
        exact h.handleClose_breaks hc (fun hin => h.closes_pos hc hin hread) _
  · cases hmove with
    | loop _ hmove =>
      cases hmove with
      | callRead hpc' hc =>
        cases hpc.symm.trans hpc'
        have hhand := h.handling hpc
        have hnot := Channel.close_not_mem_of_read hhand.suffix
        refine h.handleClose_breaks hc (fun _ => hhand.closed ?_ ?_) _
        · simpa using hhang
        · simp [hnot]

end ServerState

variable {T : Type u} {L : Type v} [DecidableEq T] [DecidableEq L] {s : ServerState T L}

/-- **When each connection is closed once.** In a run of a server with any loops, connections,
callers and events: every `closeCallback_` and every `connectDestroyed` is called at most once for
each connection and no assertion fails, that of `removeConnectionInLoop` on the result of `erase`
included, if and only if the close callback is only ever called for a connection that still has
interest in reading, and no `handleEvent` that called it reads the end of the stream. -/
theorem closed_once_iff (h : (tcpServer T L).init s) (as : List (ServerAct T L)) :
    (tcpServer T L).Along ServerState.ClosedOnce s as ↔
      (tcpServer T L).Guarded ServerState.ClosesInTime s as := by
  obtain ⟨_, _, _, _, _, _, server, -, rfl⟩ := h
  exact Machine.along_iff_guarded ServerState.Lawful (fun _ h => h.closedOnce)
    (fun _ _ _ h hok hs => (ServerState.step_moves hs).2.lawful h hok)
    (fun _ _ _ h hok hs => (ServerState.step_moves hs).2.breaks h hok)
    (ServerState.start_lawful server)

/-- A connection on another loop reads the end of the stream, is removed by the server's loop and
destroyed by its own. -/
theorem closed_once_eof : ∃ s₀ s : ServerState Unit Bool, (tcpServer Unit Bool).init s₀ ∧
    (s.closes 1 = 1 ∧ s.destroys 1 = 1) ∧ s.ClosedOnce := by
  obtain ⟨server, hserver⟩ : ∃ server, ((TcpServer.new false "server" true false).setThreadNum
      1).start (fun _ => true) = .ok server := ⟨_, rfl⟩
  have hinit : (tcpServer Unit Bool).init (.start server) :=
    ⟨_, _, _, _, _, _, server, hserver, rfl⟩
  have hpc : ((((TcpServer.new false "server" true false).setThreadNum 1).start fun _ =>
      true).toOption.bind fun server => ((tcpServer Unit Bool).run (.start server)
        [.loop false (.poll []), .newConnection, .loop false .beginFunctors,
          .loop false .endFunctors, .loop true (.poll []), .loop true .beginFunctors,
          .loop true (.runFunctor .failed), .loop true .endFunctors,
          .loop true (.poll [(1, { pollin := true })]), .loop true .handleEvent]).map (·.pcs true)) =
      some (.event 1 { pollin := true } [.read] false []) := by decide +kernel
  have hend : ((((TcpServer.new false "server" true false).setThreadNum 1).start fun _ =>
      true).toOption.bind fun server => ((tcpServer Unit Bool).run (.start server)
        ([.loop false (.poll []), .newConnection, .loop false .beginFunctors,
          .loop false .endFunctors, .loop true (.poll []), .loop true .beginFunctors,
          .loop true (.runFunctor .failed), .loop true .endFunctors,
          .loop true (.poll [(1, { pollin := true })]), .loop true .handleEvent] ++
        .loop true (.callRead .eof) :: [.loop true .eventDone, .loop true .beginFunctors,
          .loop true .endFunctors, .loop false (.poll []), .loop false .beginFunctors,
          .loop false (.runFunctor .failed), .loop true (.poll []), .loop true .beginFunctors,
          .loop true (.runFunctor .failed), .loop true .endDestroyed])).map fun s =>
          (s.closes 1, s.destroys 1)) = some (1, 1) := by decide +kernel
  rw [hserver] at hpc hend
  obtain ⟨u, hrun, hpc⟩ := Option.map_eq_some_iff.mp hpc
  obtain ⟨s, hs, hcounts⟩ := Option.map_eq_some_iff.mp hend
  obtain ⟨hcloses, hdestroys⟩ := Prod.mk.inj hcounts
  refine ⟨.start server, s, hinit, ⟨hcloses, hdestroys⟩, ((closed_once_iff hinit _).mpr ?_).last hs⟩
  refine (Machine.Guarded.of_labels (by simp [ServerState.ClosesInTime]) _).append
    fun t ht v _ => ⟨?_, Machine.Guarded.of_labels (by simp [ServerState.ClosesInTime]) v⟩
  rintro l c revents todo inMessage active hl
  refine ⟨nofun, ?_⟩
  intro ha
  cases ha
  cases ht.symm.trans hrun
  cases hl.symm.trans hpc
  rfl

/-- The connection reads the end of the stream, and while its removal travels to the server's loop
another thread sends on it. The rest of the message registers its channel for writing, epoll reports
a hang-up, and the close callback is called once more. -/
theorem closed_once_fails : ¬ ∀ s₀ : ServerState Unit Bool, (tcpServer Unit Bool).init s₀ →
    ∀ as s, (tcpServer Unit Bool).run s₀ as = some s → s.ClosedOnce := by
  intro hall
  obtain ⟨server, hserver⟩ : ∃ server, ((TcpServer.new false "server" true false).setThreadNum
      1).start (fun _ => true) = .ok server := ⟨_, rfl⟩
  have hend : ((((TcpServer.new false "server" true false).setThreadNum 1).start fun _ =>
      true).toOption.bind fun server => ((tcpServer Unit Bool).run (.start server)
        [.loop false (.poll []), .newConnection, .loop true (.poll []), .loop true .beginFunctors,
          .loop true (.runFunctor .failed), .loop true .endFunctors,
          .loop true (.poll [(1, { pollin := true })]), .loop true .handleEvent,
          .loop true (.callRead .eof), .loop true .eventDone, .sendTest (.thread ()) 1 [1],
          .sendRun (.thread ()) .failed, .loop true .beginFunctors, .loop true (.runFunctor .failed),
          .loop true .endFunctors, .loop true (.poll [(1, { pollhup := true })]),
          .loop true .handleEvent, .loop true .callClose]).map (·.closes 1)) = some 2 := by
    decide +kernel
  rw [hserver] at hend
  obtain ⟨s, hs, hcloses⟩ := Option.map_eq_some_iff.mp hend
  have hle := (hall _ ⟨_, _, _, _, _, _, server, hserver, rfl⟩ _ s hs).1 1
  omega

end Netfish

import Netfish.Net.ClientPhases

/-!
# The reconnect cycle

The next attempt begins in the close handler of the old connection, before its `connectDestroyed` has
run. It ends in the write callback of the connector's channel, which comes after the next poll, so the
old connection is destroyed by then.
-/

set_option autoImplicit false

namespace Netfish

open Kit

universe u

namespace ClientState

/-- At most one connection is between `connectEstablished` and `connectDestroyed`, up and down calls of
`connectionCallback_` come in turn, and no assertion of the client or of a connection failed. -/
structure OneAtATime {T : Type u} (s : ClientState T) : Prop where
  noFault : s.fault = none
  one : ∀ c d conn conn', s.conns c = some conn → conn.inUse = true → s.conns d = some conn' →
    conn'.inUse = true → c = d
  alternate : ∃ o, AlternatesTo s.log o

/-- A send or a shutdown is made in the loop's thread, and where there is interest in reading epoll
reports `POLLHUP` with `POLLIN` only. -/
def Regular {T : Type u} (s : ClientState T) : ClientAct T → Prop
  | .sendTest (some _) _ _ => False
  | .shutTest (some _) _ => False
  | .disconnectTest (some _) => s.client.connection_ = none
  | .poll _ _ active => ∀ c revents, (c, revents) ∈ active → ∀ conn mask, s.conns c = some conn →
    conn.channel_.watched = some mask → mask.pollin = true → revents.hangup = false
  | _ => True

variable {T : Type u} {s s' : ClientState T} {p : Phase} {a : ClientAct T}

theorem Cycles.oneAtATime (h : s.Cycles p) : s.OneAtATime where
  noFault := h.noFault
  one _ _ _ _ hc hin hd hin' :=
    Option.some.inj ((h.inUse hc hin).symm.trans (h.inUse hd hin'))
  alternate := ⟨_, h.log⟩

/-- A step of a caller, in no method of a connection. -/
theorem Cycles.setCall (h : s.Cycles p) (hsame : s.SameConns s') (hloop : LoopKept s.loop s'.loop)
    {o : Option T} {call : ClientCall} [DecidableEq T]
    (hcalls : s'.calls = Function.update s.calls o call)
    (hcall : ∀ c, call.conn = some c → o = none ∧ p.inUse = some c) : s'.Cycles p := by
  refine h.kept hsame hloop ?_ ?_
  · intro t
    rw [hcalls]
    by_cases ho : some t = o
    · subst ho
      rw [Function.update_self]
      cases hconn : call.conn with
      | none => rfl
      | some c => cases (hcall c hconn).1
    · rw [Function.update_of_ne ho]
      exact h.threads t
  · intro c
    rw [hcalls]
    by_cases ho : none = o
    · subst ho
      rw [Function.update_self]
      exact fun hc => (hcall c hc).2
    · rw [Function.update_of_ne ho]
      exact h.here c

/-- What a caller in a `send` or a `shutdown` is in a call of. -/
theorem Cycles.caller (h : s.Cycles p) {o : Option T} {c : Nat} (hcall : (s.calls o).conn = some c) :
    o = none ∧ p.inUse = some c := by
  cases o with
  | none => exact ⟨rfl, h.here c hcall⟩
  | some t => cases (h.threads t).symm.trans hcall

/-- What epoll reports is of the connection that is up. -/
theorem Cycles.reported (h : s.Cycles p) (hpc : s.loop.pc = .idle) {active : List (Nat × Events)}
    (hrep : active.all s.MayReport = true) {c : Nat} {revents : Events}
    (hmem : (c, revents) ∈ active) : p = .up c := by
  have hmay := List.all_eq_true.mp hrep _ hmem
  simp only [MayReport, Option.any_eq_true] at hmay
  obtain ⟨conn, hconn, mask, hmask, -⟩ := hmay
  by_cases hp : p.conn = some c
  · cases p with
    | away => cases hp
    | up d =>
      cases hp
      rfl
    | closing d =>
      have hsettled := h.phase.settled
      simp [hpc, ConnectorPc.settled] at hsettled
    | leaving d => cases hpc.symm.trans h.phase.batch
  · have hgone := h.gone c conn hconn hp
    rw [hgone.channel] at hmask
    cases hmask

theorem Cycles.handleEvent (h : s.Cycles p) {c : Nat} {revents : Events}
    {active : List (Nat × Events)} {channel : Option Events} {timerfd : Bool}
    (hpc : s.loop.pc = .handlers channel timerfd) (hactive : s.active = (c, revents) :: active) :
    { s with active, pc := .event c (Channel.handleEvent revents) .between }.Cycles p := by
  have hne : s.active ≠ [] := by simp [hactive]
  cases p with
  | away => exact absurd h.phase.active hne
  | closing d => exact absurd h.phase.active hne
  | leaving d => exact absurd h.phase.active hne
  | up d =>
    obtain hnil | ⟨revents', hone, hhangup⟩ := h.phase.active
    · exact absurd hnil hne
    cases hactive.symm.trans hone
    have hsettled : s.loop.pc.settled = true := by
      have hnone := h.steady.no_active (by simp [h.phase.state])
      rw [hpc] at hnone ⊢
      simpa [ConnectorPc.settled, ConnectorPc.active] using hnone
    refine { h with phase := ⟨h.phase.connection, h.phase.state, h.phase.conn, .inl rfl,
      .inr ⟨Channel.handleEvent revents, .between, rfl, .inl rfl, rfl, ?_, hsettled, by simp [hpc]⟩⟩ }
    exact ⟨revents, List.suffix_refl _, hhangup⟩

/-- A functor of the batch. -/
theorem Cycles.runFunctor (h : s.Cycles p) (hfree : s.At .free) (hpc : s.loop.pc = .batch)
    {w : WriteResult} {f : ClientFunctor} {rest : BatchQueue ClientFunctor} {conn : TcpConnection}
    (hnext : s.functors.next = some (f, rest)) (hconn : s.conns f.conn = some conn)
    (hrun : { s with functors := rest }.runFunctor w conn f = some s') : ∃ p', s'.Cycles p' := by
  have hlist := BatchQueue.toList_of_next hnext
  have hown := h.functors f (by rw [hlist]; exact List.mem_cons_self)
  have hdestroys := h.destroys
  rw [hlist] at hdestroys
  cases f with
  | sendInLoop => cases hown
  | shutdownInLoop => cases hown
  | connectDestroyed c =>
    cases hrun
    cases p with
    | closing d =>
      cases (List.cons.inj hdestroys).1
      exact ⟨_, h.beginDestroyed hpc hnext hfree.call hconn⟩
    | _ => cases hdestroys
  | writeComplete c =>
    cases hrun
    obtain ⟨hbatch, -⟩ := BatchQueue.next_eq_some.mp hnext
    refine ⟨p, h.steady, h.noFault, ?_, h.gone, ?_, hdestroys, fun hne => absurd hpc hne, h.threads,
      h.here, h.log⟩
    · cases p with
      | away => exact ⟨h.phase.connection, h.phase.active, h.phase.pc⟩
      | leaving d => cases hfree.pc.symm.trans h.phase.pc
      | up d =>
        exact ⟨h.phase.connection, h.phase.state, h.phase.conn, h.phase.active, .inl hfree.pc⟩
      | closing d =>
        refine ⟨h.phase.connection, h.phase.conn, h.phase.active, h.phase.settled, ?_, h.phase.pc,
          h.phase.removing⟩
        intro hb
        have hne := h.phase.batch hb
        rw [hbatch] at hne
        exact hne
    · intro g hg
      exact h.functors g (by rw [hlist]; exact List.mem_cons_of_mem _ hg)

/-- The read callback. -/
theorem Cycles.callRead (h : s.Cycles p) {c : Nat} {todo : List ChannelCallback} {place : EventPlace}
    {conn : TcpConnection} {r : ReadResult} (hpc : s.pc = .event c (.read :: todo) .between)
    (hconn : s.conns c = some conn) (hplace : place = .between ∨ place = .inMessage) :
    ∃ p', ({ s with pc := .event c todo place }.after c (conn.handleRead r)).Cycles p' := by
  obtain ⟨rfl, hhand⟩ | ⟨-, -, -, hread⟩ := h.event hpc
  · have hnext := hhand.next (List.suffix_cons _ todo) hplace
    have hbase := h.gotoUp (.inr ⟨todo, place, hnext⟩)
    cases r with
    | eof =>
      obtain ⟨revents, htodo, -⟩ := hhand.todo
      have hnodup := (Channel.handleEvent_nodup revents).sublist htodo.sublist
      exact ⟨_, hbase.handleClose hnext (List.nodup_cons.mp hnodup).1 hconn⟩
    | error =>
      rw [TcpConnection.handleRead, TcpConnection.handleError, after_nil (by exact hconn)]
      exact ⟨_, hbase⟩
    | data =>
      rw [TcpConnection.handleRead]
      refine ⟨_, hbase.after rfl hconn id ?_ ?_⟩ <;> split <;> simp
  · exact absurd List.mem_cons_self hread

/-- `shutdownInLoop`, here. -/
theorem Cycles.shutdownInLoop (h : s.Cycles p) {c : Nat} {conn : TcpConnection}
    (hp : p.inUse = some c) (hconn : s.conns c = some conn) :
    (s.after c (.ok (conn, conn.shutdownInLoop))).Cycles p := by
  refine h.after hp hconn id ?_ ?_ <;> unfold TcpConnection.shutdownInLoop <;> split <;> simp

/-- The loop's thread is in `connectDestroyed` in that phase only. -/
theorem Cycles.destroying (h : s.Cycles p) {c : Nat} (hpc : s.pc = .destroying c) : p = .leaving c := by
  cases p with
  | away => cases hpc.symm.trans h.phase.pc
  | leaving d =>
    cases hpc.symm.trans h.phase.pc
    rfl
  | up d =>
    rcases h.phase.pc with hfree | ⟨todo, place, hhand⟩
    · cases hpc.symm.trans hfree
    · cases hpc.symm.trans hhand.pc
  | closing d =>
    rcases h.phase.pc with hfree | ⟨todo, place, hevent, -⟩
    · cases hpc.symm.trans hfree
    · cases hpc.symm.trans hevent

variable [DecidableEq T]

theorem LoopKept.step {loop loop' : ConnectorState T} (h : loop.Steady) {a : ConnectorAct T}
    (hclosed : a ≠ .closed true) (hbegin : a ≠ .beginFunctors) (hend : a ≠ .endFunctors)
    (hs : loop.step a = some loop') : LoopKept loop loop' :=
  ⟨h.step hs, fun hstate => (h.connected_step hstate hclosed hs).1,
    fun hset => ConnectorState.step_settled hset hend hs, ConnectorState.step_batch hbegin hend hs⟩

/-- The steps of the connector that the client takes. -/
theorem Cycles.loopKept (h : s.Cycles p) {a : ConnectorAct T} {loop : ConnectorState T}
    (ha : a.anywhere = true ∨ (a.inLoop = true ∧ s.At .free)) (hloop : s.loop.step a = some loop) :
    LoopKept s.loop loop := by
  refine .step h.steady ?_ ?_ ?_ hloop <;> rintro rfl <;> rcases ha with ha | ⟨ha, -⟩ <;> cases ha

/-- A new connection comes only when there is none. -/
theorem Cycles.away_of_made (h : s.Cycles p) {a : ConnectorAct T} {loop : ConnectorState T}
    (hloop : s.loop.step a = some loop) (hmade : s.loop.made < loop.made) :
    p = .away ∧ loop.connector.state_ = .kConnected := by
  obtain ⟨hstate, hstate', todo, inCallback, timerfd, hpc⟩ := h.steady.made_step hloop hmade
  refine ⟨?_, hstate'⟩
  cases p with
  | away => rfl
  | up c => cases hstate.symm.trans h.phase.state
  | closing c => simpa [hpc, ConnectorPc.settled] using h.phase.settled
  | leaving c => cases hpc.symm.trans h.phase.batch

theorem Cycles.poll (h : s.Cycles p) {revents : Option Events} {timerfd : Bool}
    {active : List (Nat × Events)} {loop : ConnectorState T} (hfree : s.At .free)
    (hnodup : (active.map Prod.fst).Nodup) (hrep : active.all s.MayReport = true)
    (hok : s.Regular (.poll revents timerfd active))
    (hloop : s.loop.step (.poll revents timerfd) = some loop) :
    { s with loop, active }.Cycles p := by
  obtain ⟨-, hmove⟩ := ConnectorState.step_moves hloop
  have hpc : s.loop.pc = .idle := by cases hmove; assumption
  have hbase : { s with loop }.Cycles p :=
    h.kept ⟨rfl, rfl, rfl, rfl, rfl, rfl, rfl⟩ (.step h.steady (by simp) (by simp) (by simp) hloop)
      h.threads h.here
  -- no event is reported of any other connection than the one that is up
  have hall : ∀ q ∈ active, p = .up q.1 := fun q hq => h.reported hpc hrep hq
  refine { hbase with phase := ?_ }
  cases p with
  | away =>
    refine ⟨h.phase.connection, ?_, h.phase.pc⟩
    exact List.eq_nil_iff_forall_not_mem.mpr fun q hq => by cases hall q hq
  | closing c =>
    have hsettled := h.phase.settled
    simp [hpc, ConnectorPc.settled] at hsettled
  | leaving c => cases hpc.symm.trans h.phase.batch
  | up c =>
    obtain ⟨conn, hconn, hserves⟩ := h.phase.conn
    refine ⟨h.phase.connection, hbase.phase.state, h.phase.conn, ?_, .inl hfree.pc⟩
    cases active with
    | nil => exact .inl rfl
    | cons q rest =>
      obtain ⟨d, revents'⟩ := q
      cases hall (d, revents') List.mem_cons_self
      have hrest : rest = [] := by
        refine List.eq_nil_iff_forall_not_mem.mpr fun q hq => ?_
        obtain ⟨e, events⟩ := q
        cases hall (e, events) (List.mem_cons_of_mem _ hq)
        exact (List.nodup_cons.mp hnodup).1 (List.mem_map.mpr ⟨_, hq, rfl⟩)
      subst hrest
      have hmay := List.all_eq_true.mp hrep _ List.mem_cons_self
      simp only [MayReport, hconn, Option.any_some, Option.any_eq_true] at hmay
      obtain ⟨mask, hmask, -⟩ := hmay
      have hpollin : mask.pollin = true := by
        rw [(hserves.wf.watched hmask).2, ← Events.minus_write_pollin, hserves.interest]
        rfl
      exact .inr ⟨revents', rfl, hok _ _ List.mem_cons_self conn mask hconn hmask hpollin⟩

theorem Cycles.beginFunctors (h : s.Cycles p) {loop : ConnectorState T} (hfree : s.At .free)
    (hloop : s.loop.step .beginFunctors = some loop) :
    { s with loop, functors := s.functors.swap }.Cycles p := by
  obtain ⟨-, hmove⟩ := ConnectorState.step_moves hloop
  have hpc : s.loop.pc = .handlers none false ∧ loop.pc = .batch := by
    cases hmove
    exact ⟨by assumption, rfl⟩
  have hbatch := h.worked (by simp [hpc.1])
  have hlist := BatchQueue.toList_swap hbatch
  have hkeep : s.loop.connector.state_ = .kConnected → loop.connector.state_ = .kConnected :=
    fun hstate => (h.steady.connected_step hstate (by simp) hloop).1
  refine ⟨h.steady.step hloop, h.noFault, ?_, h.gone, hlist ▸ h.functors, hlist ▸ h.destroys,
    fun hne => absurd hpc.2 hne, h.threads, h.here, h.log⟩
  cases p with
  | away => exact ⟨h.phase.connection, h.phase.active, h.phase.pc⟩
  | up c => exact ⟨h.phase.connection, hkeep h.phase.state, h.phase.conn, h.phase.active, .inl hfree.pc⟩
  | leaving c => cases hpc.1.symm.trans h.phase.batch
  | closing c =>
    refine ⟨h.phase.connection, h.phase.conn, h.phase.active, by simp [hpc.2, ConnectorPc.settled], ?_,
      .inl hfree.pc, fun hin => hkeep (h.phase.removing hin)⟩
    -- the batch is all that was in the queue
    intro _
    have hdestroys : destroysOf (s.functors.batch ++ s.functors.pending) = [c] := h.destroys
    rw [hbatch] at hdestroys
    simp [BatchQueue.swap, show destroysOf s.functors.pending = [c] from hdestroys]

theorem Cycles.endFunctors (h : s.Cycles p) {loop : ConnectorState T} (hfree : s.At .free)
    (hbatch : s.functors.batch = []) (hloop : s.loop.step .endFunctors = some loop) :
    { s with loop }.Cycles p := by
  obtain ⟨-, hmove⟩ := ConnectorState.step_moves hloop
  have hpc : s.loop.pc = .batch := by cases hmove; assumption
  refine ⟨h.steady.step hloop, h.noFault, ?_, h.gone, h.functors, h.destroys, fun _ => hbatch,
    h.threads, h.here, h.log⟩
  cases p with
  | away => exact ⟨h.phase.connection, h.phase.active, h.phase.pc⟩
  | up c =>
    have hkeep := (h.steady.connected_step h.phase.state (by simp) hloop).1
    exact ⟨h.phase.connection, hkeep, h.phase.conn, h.phase.active, .inl hfree.pc⟩
  | leaving c => cases hfree.pc.symm.trans h.phase.pc
  | closing c =>
    have hne := h.phase.batch hpc
    simp [hbatch] at hne

theorem Cycles.step (h : s.Cycles p) (hok : s.Regular a) (hs : s.step a = some s') :
    ∃ p', s'.Cycles p' := by
  have hstay : LoopKept s.loop s.loop := .refl h.steady
  cases step_moves hs with
  | enableRetry => exact ⟨p, h.kept ⟨rfl, rfl, rfl, rfl, rfl, rfl, rfl⟩ hstay h.threads h.here⟩
  | connectSet => exact ⟨p, h.setCall ⟨rfl, rfl, rfl, rfl, rfl, rfl, rfl⟩ hstay rfl (by simp [ClientCall.conn])⟩
  | stopSet => exact ⟨p, h.setCall ⟨rfl, rfl, rfl, rfl, rfl, rfl, rfl⟩ hstay rfl (by simp [ClientCall.conn])⟩
  | disconnectSet => exact ⟨p, h.setCall ⟨rfl, rfl, rfl, rfl, rfl, rfl, rfl⟩ hstay rfl (by simp [ClientCall.conn])⟩
  | returned => exact ⟨p, h.setCall ⟨rfl, rfl, rfl, rfl, rfl, rfl, rfl⟩ hstay rfl (by simp [ClientCall.conn])⟩
  | sendOff => exact ⟨p, h⟩
  | @connectStart o loop hcall hloop =>
    have hkept : LoopKept s.loop loop := by
      refine .step h.steady ?_ ?_ ?_ hloop <;> cases o <;> simp [startOf]
    exact ⟨p, h.setCall ⟨rfl, rfl, rfl, rfl, rfl, rfl, rfl⟩ hkept rfl (by simp [ClientCall.conn])⟩
  | @stopStop o loop hcall hloop =>
    have hkept : LoopKept s.loop loop := by
      refine .step h.steady ?_ ?_ ?_ hloop <;> cases o <;> simp [stopOf]
    exact ⟨p, h.setCall ⟨rfl, rfl, rfl, rfl, rfl, rfl, rfl⟩ hkept rfl (by simp [ClientCall.conn])⟩
  | @sendTest o c message conn hcall hconn hstate =>
    have hp := h.inUse hconn (by simp [TcpConnection.inUse, hstate])
    have ho : o = none := by
      cases o with
      | none => rfl
      | some t => cases hok
    refine ⟨p, h.setCall ⟨rfl, rfl, rfl, rfl, rfl, rfl, rfl⟩ hstay rfl ?_⟩
    rintro _ ⟨⟩
    exact ⟨ho, hp⟩
  | @shutTest a o c conn ha hconn hstate =>
    have hp := h.inUse hconn (by simp [TcpConnection.inUse, hstate])
    have ho : o = none := by
      cases o with
      | none => rfl
      | some t =>
        rcases ha with ⟨rfl, hsome⟩ | rfl
        · have hnone : s.client.connection_ = none := hok
          cases hsome.symm.trans hnone
        · cases hok
    refine ⟨p, h.setCall ⟨rfl, rfl, rfl, rfl, rfl, rfl, rfl⟩ hstay rfl ?_⟩
    rintro _ ⟨⟩
    exact ⟨ho, hp⟩
  | @sendPush t c message w hcall => cases (h.caller (o := some t) (congrArg ClientCall.conn hcall)).1
  | @shutPush t c hcall => cases (h.caller (o := some t) (congrArg ClientCall.conn hcall)).1
  | @shutSet o c conn hcall hconn =>
    obtain ⟨rfl, hp⟩ := h.caller (congrArg ClientCall.conn hcall)
    have hbase : (s.after c (.ok ({ conn with state_ := .kDisconnecting }, []))).Cycles p :=
      h.after hp hconn (fun hserves => ⟨rfl, hserves.wf, hserves.interest, hserves.registered⟩)
        List.not_mem_nil List.not_mem_nil
    refine ⟨p, hbase.setCall ⟨rfl, rfl, rfl, rfl, rfl, rfl, rfl⟩ hstay rfl ?_⟩
    rintro _ ⟨⟩
    exact ⟨rfl, hp⟩
  | @sendHere c message w conn hcall hconn hw =>
    have hp := h.here c (congrArg ClientCall.conn hcall)
    obtain ⟨conn', interest, hconn', hserves⟩ := h.serves hp
    cases hconn.symm.trans hconn'
    have hbase : (s.setCall none .idle).Cycles p :=
      h.setCall ⟨rfl, rfl, rfl, rfl, rfl, rfl, rfl⟩ hstay rfl (by simp [ClientCall.conn])
    obtain ⟨conn', es, hrun, hsent⟩ := TcpConnection.sendInLoop_spec hserves.wf message w
    rw [hrun]
    exact ⟨p, hbase.after hp hconn (fun hserves => hserves.quiet hsent.toQuiet hsent.registered)
      hsent.noClose fun hm => by cases TcpConnection.sendInLoop_output hrun _ hm⟩
  | @shutHere c conn hcall hconn =>
    have hp := h.here c (congrArg ClientCall.conn hcall)
    have hbase : (s.setCall none .idle).Cycles p :=
      h.setCall ⟨rfl, rfl, rfl, rfl, rfl, rfl, rfl⟩ hstay rfl (by simp [ClientCall.conn])
    exact ⟨p, hbase.shutdownInLoop hp hconn⟩
  | connector ha hloop =>
    exact ⟨p, h.kept ⟨rfl, rfl, rfl, rfl, rfl, rfl, rfl⟩ (h.loopKept ha hloop) h.threads h.here⟩
  | @newConnection a loop ha hloop hmade =>
    obtain ⟨rfl, hstate⟩ := h.away_of_made hloop hmade
    have hbase : { s with loop }.Cycles .away :=
      h.kept ⟨rfl, rfl, rfl, rfl, rfl, rfl, rfl⟩ (h.loopKept ha hloop) h.threads h.here
    exact ⟨_, hbase.newConnection hstate⟩
  | poll hfree hnodup hrep hloop => exact ⟨p, h.poll hfree hnodup hrep hok hloop⟩
  | handleEvent hfree hpc hactive => exact ⟨p, h.handleEvent hpc hactive⟩
  | beginFunctors hfree hactive hloop => exact ⟨p, h.beginFunctors hfree hloop⟩
  | runFunctor hfree hpc hnext hconn hrun => exact h.runFunctor hfree hpc hnext hconn hrun
  | endFunctors hfree hbatch hloop => exact ⟨p, h.endFunctors hfree hbatch hloop⟩
  | callClose hat hconn =>
    rcases h.event hat.pc with ⟨-, hhand⟩ | ⟨-, -, hclose, -⟩
    · obtain ⟨revents, htodo, hhangup⟩ := hhand.todo
      rw [Channel.close_mem_handleEvent.mp (htodo.subset List.mem_cons_self)] at hhangup
      cases hhangup
    · exact absurd List.mem_cons_self hclose
  | callError hat hconn =>
    rw [TcpConnection.handleError, after_nil (by exact hconn)]
    exact ⟨p, (h.skip hat.pc).1⟩
  | callRead hat hconn hplace => exact h.callRead hat.pc hconn hplace
  | @callWrite c todo conn w hat hconn hw =>
    obtain ⟨hbase, hp⟩ := h.skip hat.pc
    obtain ⟨conn', interest, hconn', hserves⟩ := h.serves hp
    cases hconn.symm.trans hconn'
    obtain ⟨conn', es, hrun, hwrote⟩ := TcpConnection.handleWrite_spec hserves.wf hw
    rw [hrun]
    exact ⟨p, hbase.after hp hconn (fun hserves => hserves.quiet hwrote.toQuiet hwrote.registered)
      hwrote.noClose fun hm => by cases TcpConnection.handleWrite_output hrun _ hm⟩
  | messageDone hat =>
    rcases h.event hat.pc with ⟨rfl, hhand⟩ | ⟨-, hno, -⟩
    · exact ⟨_, h.gotoUp (.inr ⟨_, _, hhand.next (List.suffix_refl _) (.inl rfl)⟩)⟩
    · exact absurd rfl hno
  | eventDone hat =>
    rcases h.event hat.pc with ⟨rfl, -⟩ | ⟨rfl, -⟩
    · exact ⟨_, h.gotoUp (.inl rfl)⟩
    · exact ⟨_, h.gotoClosing (.inl rfl) fun hin => by cases hin⟩
  | @endDestroyed c conn hat hconn =>
    cases h.destroying hat.pc
    exact ⟨_, h.endDestroyed hconn⟩
  | reconnects hat hrec =>
    rcases h.event hat.pc with ⟨-, hhand⟩ | ⟨rfl, -, htodo⟩
    · rcases hhand.place with hp | hp <;> cases hp
    · exact ⟨_, h.gotoClosing (.inr ⟨_, _, rfl, by simp, htodo⟩) fun _ => by rw [hat.pc]; rfl⟩
  | removed hat hrec =>
    rcases h.event hat.pc with ⟨-, hhand⟩ | ⟨rfl, -, htodo⟩
    · rcases hhand.place with hp | hp <;> cases hp
    · exact ⟨_, h.removed (by rw [hat.pc]; rfl) (.inr ⟨_, _, rfl, by simp, htodo⟩) rfl false⟩
  | restart hat =>
    rcases h.event hat.pc with ⟨-, hhand⟩ | ⟨rfl, -, htodo⟩
    · rcases hhand.place with hp | hp <;> cases hp
    · exact ⟨_, h.removed (by rw [hat.pc]; rfl) (.inr ⟨_, _, rfl, by simp, htodo⟩) rfl true⟩

end ClientState

variable {T : Type u} [DecidableEq T] {s : ClientState T}

/-- **The reconnect cycle.** In a run of a client with any number of calls of `connect`, any reconnects
and any results of the kernel, in which sends and shutdowns are made in the loop's thread and epoll
reports `POLLHUP` only with `POLLIN` where there is interest in reading: no assertion of the client or of a
connection fails, at most one connection is between `connectEstablished` and `connectDestroyed`, and up
and down calls of `connectionCallback_` come in turn. -/
theorem reconnect_cycle (h : (tcpClient T).init s) {as : List (ClientAct T)}
    (hregular : (tcpClient T).Guarded ClientState.Regular s as) :
    (tcpClient T).Along ClientState.OneAtATime s as := by
  obtain ⟨messageCallback, writeCompleteCallback, rfl⟩ := h
  refine hregular.along (fun s => ∃ p, s.Cycles p) (fun _ ⟨p, h⟩ => h.oneAtATime) ?_
    ⟨.away, ClientState.start_cycles _ rfl⟩
  rintro s a s' ⟨p, hcycles⟩ hok hs
  exact hcycles.step hok hs

/-- The peer closes the first connection, and the client connects again. -/
theorem reconnect_cycle_twice : ∃ s₀ s : ClientState Unit, (tcpClient Unit).init s₀ ∧
    s.log = [(1, true), (1, false), (2, true)] ∧ s.OneAtATime := by
  let as : List (ClientAct Unit) := [.enableRetry, .connectSet none, .connectStart none,
    .connector (.startInLoop .zero), .poll (some { pollout := true }) false [],
    .connector .handleEvent, .connector (.callback false false), .connector .eventDone,
    .beginFunctors, .connector (.runFunctor .zero), .endFunctors,
    .poll none false [(1, { pollin := true })], .handleEvent, .callRead .eof, .removeTest, .restart,
    .connector (.startInLoop .EINPROGRESS), .eventDone, .beginFunctors, .runFunctor .failed,
    .endDestroyed, .endFunctors, .poll (some { pollout := true }) false [], .connector .handleEvent,
    .connector (.callback false false)]
  have hinit : (tcpClient Unit).init (.start (.new true true)) := ⟨true, true, rfl⟩
  have hregular : (tcpClient Unit).Guarded ClientState.Regular (.start (.new true true)) as :=
    Machine.Guarded.of_labels (by simp [as, ClientState.Regular, Events.hangup]) _
  exact ⟨_, _, hinit, rfl, (reconnect_cycle hinit hregular).last rfl⟩

end Netfish

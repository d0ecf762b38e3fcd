import Netfish.Net.ClientMoves
import Netfish.Net.ConnectorRest

/-!
# disconnect

`disconnect` clears the client's own `connect_` and shuts down the connection there is. It leaves the
connector alone, whose `connect_` is another, so an attempt in progress, a retry and a `start` on its way
go on to a new connection. With a connection, or with nothing under way in the connector, no new
connection comes until the next `connect`.
-/

set_option autoImplicit false

namespace Netfish

open Kit

universe u

namespace ClientState

variable {T : Type u} {s s' : ClientState T} {a : ClientAct T}

/-- The client has a connection only while its connector is in `kConnected`. -/
structure Linked (s : ClientState T) : Prop where
  steady : s.loop.Steady
  connected : s.client.connection_ ≠ none → s.loop.connector.state_ = .kConnected
  removing : s.pc.inRemove = true →
    s.client.connection_ = none ∧ s.loop.connector.state_ = .kConnected

theorem Linked.around (h : s.Linked) (hs : s.Around s') : s'.Linked := by
  refine ⟨hs.loop ▸ h.steady, ?_, ?_⟩
  · intro hne
    rw [hs.loop]
    rcases hs.removed with ⟨hsame, -⟩ | ⟨-, hnone, -⟩
    · exact h.connected (hsame ▸ hne)
    · exact absurd hnone hne
  · intro hin
    rw [hs.loop]
    rcases hs.removed with ⟨hsame, hpc⟩ | ⟨hsome, hnone, -⟩
    · rw [hsame]
      exact h.removing (hpc ▸ hin)
    · exact ⟨hnone, h.connected hsome⟩

/-- A place outside `removeConnection`. -/
theorem Linked.goto (h : s.Linked) {pc : ClientPc} (hpc : pc.inRemove = false) :
    { s with pc }.Linked := by
  refine ⟨h.steady, h.connected, ?_⟩
  intro hin
  cases hpc.symm.trans hin

theorem startOf_ne (o : Option T) : startOf o ≠ .closed true := by
  cases o <;> simp [startOf]

theorem stopOf_ne (o : Option T) : stopOf o ≠ .closed true := by
  cases o <;> simp [stopOf]

/-- The steps of the connector that the client takes. -/
theorem ne_closed {a : ConnectorAct T} (ha : a.anywhere = true ∨ (a.inLoop = true ∧ s.At .free)) :
    a ≠ .closed true := by
  rintro rfl
  rcases ha with ha | ⟨ha, -⟩ <;> cases ha

/-- Nothing is under way in the connector: no attempt and no retry, and no call of `start` or `restart`
that has begun. -/
structure NothingUnderWay (s : ClientState T) : Prop where
  attempt : s.loop.connector.state_ ≠ .kConnecting
  timers : s.loop.timers = []
  expired : s.loop.pc.expired = []
  starting : s.loop.starting = false
  threads : ∀ t, s.loop.calls t ≠ .starting
  queue : s.loop.queuedStarts = 0
  callers : ∀ o, s.calls o ≠ .connecting
  restarting : ∀ c todo, s.pc ≠ .event c todo .restarting

/-- No new connection can come without `connect`. -/
structure Final (s : ClientState T) : Prop where
  steady : s.loop.Steady
  connect : s.client.connect_ = false
  restarting : ∀ c todo, s.pc ≠ .event c todo .restarting
  still : s.loop.connector.state_ = .kConnected ∨
    (s.loop.Resting ∧ s.loop.queuedStarts = 0 ∧ (∀ t, s.loop.calls t ≠ .starting) ∧
      ∀ o, s.calls o ≠ .connecting)

theorem Linked.final (h : s.Linked) (hconnect : s.client.connect_ = false)
    (hsettled : s.client.connection_ ≠ none ∨ s.NothingUnderWay) : s.Final := by
  rcases hsettled with hne | hno
  · refine ⟨h.steady, hconnect, ?_, .inl (h.connected hne)⟩
    intro c todo hpc
    exact hne (h.removing (by rw [hpc]; rfl)).1
  · refine ⟨h.steady, hconnect, hno.restarting, ?_⟩
    cases hstate : s.loop.connector.state_ with
    | kConnecting => exact absurd hstate hno.attempt
    | kConnected => exact .inl rfl
    | kDisconnected =>
      exact .inr ⟨⟨hstate, hno.timers, hno.expired, hno.starting⟩, hno.queue, hno.threads, hno.callers⟩

theorem Final.around (h : s.Final) (hs : s.Around s') : s'.Final := by
  refine ⟨hs.loop ▸ h.steady, hs.connect.trans h.connect, ?_, ?_⟩
  · intro c todo
    rcases hs.removed with ⟨-, hpc⟩ | ⟨-, -, hpc⟩
    · rw [hpc]
      exact h.restarting c todo
    · rw [hpc]
      exact toRemoving_ne_restarting h.restarting c todo
  · rw [hs.loop, hs.calls]
    exact h.still

theorem Final.goto (h : s.Final) {pc : ClientPc} (hpc : ∀ c todo, pc ≠ .event c todo .restarting) :
    { s with pc }.Final :=
  ⟨h.steady, h.connect, hpc, h.still⟩

theorem Final.after (h : s.Final) (c : Nat) (r : Except ConnFault (TcpConnection × List ConnEffect)) :
    (s.after c r).Final ∧ (s.after c r).client.nextConnId_ = s.client.nextConnId_ :=
  ⟨h.around (after_around s c r), (after_around s c r).next⟩

variable [DecidableEq T]

theorem Linked.loopStep (h : s.Linked) {a : ConnectorAct T} (ha : a ≠ .closed true)
    {loop : ConnectorState T} (hloop : s.loop.step a = some loop) : { s with loop }.Linked := by
  refine ⟨h.steady.step hloop, ?_, ?_⟩
  · intro hne
    exact (h.steady.connected_step (h.connected hne) ha hloop).1
  · intro hin
    obtain ⟨hnone, hstate⟩ := h.removing hin
    exact ⟨hnone, (h.steady.connected_step hstate ha hloop).1⟩

theorem Linked.newConnection (h : s.Linked) {a : ConnectorAct T} {loop : ConnectorState T}
    (hloop : s.loop.step a = some loop) (hmade : s.loop.made < loop.made) :
    { s with loop }.newConnection.Linked := by
  obtain ⟨hstate, hstate', -⟩ := h.steady.made_step hloop hmade
  have hbase : Linked { s with loop, client := s.client.newConnection.2 } := by
    refine ⟨h.steady.step hloop, fun _ => hstate', ?_⟩
    intro hin
    cases hstate.symm.trans (h.removing hin).2
  exact hbase.around (newConnection_around { s with loop })

theorem Linked.step (h : s.Linked) (hs : s.step a = some s') : s'.Linked := by
  cases step_moves hs with
  | @connectStart o _ hcall hloop =>
    have hlinked := h.loopStep (startOf_ne o) hloop
    exact ⟨hlinked.steady, hlinked.connected, hlinked.removing⟩
  | @stopStop o _ hcall hloop =>
    have hlinked := h.loopStep (stopOf_ne o) hloop
    exact ⟨hlinked.steady, hlinked.connected, hlinked.removing⟩
  | connector ha hloop => exact h.loopStep (ne_closed ha) hloop
  | newConnection ha hloop hmade => exact h.newConnection hloop hmade
  | poll hfree hnodup hrep hloop =>
    have hlinked := h.loopStep (by simp) hloop
    exact ⟨hlinked.steady, hlinked.connected, hlinked.removing⟩
  | beginFunctors hfree hactive hloop =>
    have hlinked := h.loopStep (by simp) hloop
    exact ⟨hlinked.steady, hlinked.connected, hlinked.removing⟩
  | endFunctors hfree hbatch hloop => exact h.loopStep (by simp) hloop
  | sendHere =>
    have hbase : (s.setCall none .idle).Linked := ⟨h.steady, h.connected, h.removing⟩
    exact hbase.around (after_around _ _ _)
  | shutHere =>
    have hbase : (s.setCall none .idle).Linked := ⟨h.steady, h.connected, h.removing⟩
    exact hbase.around (after_around _ _ _)
  | callClose => exact (h.goto rfl).around (after_around _ _ _)
  | callError => exact (h.goto rfl).around (after_around _ _ _)
  | callRead hat hconn hplace =>
    refine (h.goto ?_).around (after_around _ _ _)
    rcases hplace with rfl | rfl <;> rfl
  | callWrite => exact (h.goto rfl).around (after_around _ _ _)
  | endDestroyed => exact (h.goto rfl).around (after_around _ _ _)
  | messageDone => exact h.goto rfl
  | eventDone => exact h.goto rfl
  | handleEvent => exact ⟨h.steady, h.connected, fun hin => by cases hin⟩
  | reconnects hat =>
    have hin := h.removing (by rw [hat.pc]; rfl)
    exact ⟨h.steady, h.connected, fun _ => hin⟩
  | removed hat =>
    obtain ⟨hnone, hstate⟩ := h.removing (by rw [hat.pc]; rfl)
    exact ⟨h.steady.closed hstate false, h.connected, fun hin => by cases hin⟩
  | restart hat =>
    obtain ⟨hnone, hstate⟩ := h.removing (by rw [hat.pc]; rfl)
    exact ⟨h.steady.closed hstate true, fun hne => absurd hnone hne, fun hin => by cases hin⟩
  | @runFunctor w f rest conn s' hfree hpc hnext hconn hrun =>
    have hbase : Linked { s with functors := rest } := ⟨h.steady, h.connected, h.removing⟩
    rcases runFunctor_around hrun with ⟨c, -, hs'⟩ | hs'
    · exact (hbase.goto rfl).around hs'
    · exact hbase.around hs'
  | _ => exact ⟨h.steady, h.connected, h.removing⟩

/-- A step of the connector that is none of `start` and `restart`. -/
theorem Final.loopStep (h : s.Final) {a : ConnectorAct T} (ha : a ≠ .closed true)
    (hbegins : s.loop.Resting → ¬ s.loop.IsStart a) {loop : ConnectorState T}
    (hloop : s.loop.step a = some loop) : { s with loop }.Final ∧ loop.made = s.loop.made := by
  rcases h.still with hstate | ⟨hrest, hqueue, hthreads, hcallers⟩
  · obtain ⟨hstate', hmade⟩ := h.steady.connected_step hstate ha hloop
    exact ⟨⟨h.steady.step hloop, h.connect, h.restarting, .inl hstate'⟩, hmade⟩
  · have hno := hbegins hrest
    have hsame := ConnectorState.step_starts h.steady hno hloop
    obtain ⟨hrest', hmade, -⟩ := hrest.step h.steady (fun hb => hno hb.isStart) hloop
    refine ⟨⟨h.steady.step hloop, h.connect, h.restarting, .inr ⟨hrest', hsame.queue.trans hqueue, ?_,
      hcallers⟩⟩, hmade⟩
    exact fun t ht => hthreads t ((hsame.calls t).mp ht)

/-- At rest, no step of the connector is one of `start`. -/
theorem Final.not_isStart (h : s.Final) {a : ConnectorAct T} {loop : ConnectorState T}
    (ha : a.anywhere = true ∨ (a.inLoop = true ∧ s.At .free)) (hrest : s.loop.Resting)
    (hloop : s.loop.step a = some loop) : ¬ s.loop.IsStart a := by
  obtain hstate | ⟨-, hqueue, hthreads, -⟩ := h.still
  · cases hrest.state.symm.trans hstate
  intro hstart
  obtain ⟨-, hmove⟩ := ConnectorState.step_moves hloop
  cases hmove with
  | startSet => rcases ha with ha | ⟨ha, -⟩ <;> cases ha
  | startHere => rcases ha with ha | ⟨ha, -⟩ <;> cases ha
  | startPush hcall => exact hthreads _ hcall
  | runFunctor =>
    obtain ⟨rest, hnext⟩ := hstart
    simp [ConnectorState.queuedStarts, BatchQueue.toList_of_next hnext] at hqueue
  | _ => exact hstart

theorem Final.setCall (h : s.Final) {o : Option T} {call : ClientCall} (hne : call ≠ .connecting) :
    (s.setCall o call).Final := by
  refine ⟨h.steady, h.connect, h.restarting, ?_⟩
  rcases h.still with hstate | ⟨hrest, hqueue, hthreads, hcallers⟩
  · exact .inl hstate
  · refine .inr ⟨hrest, hqueue, hthreads, fun o' => ?_⟩
    by_cases ho : o' = o
    · subst ho
      simpa [ClientState.setCall] using hne
    · simpa [ClientState.setCall, ho] using hcallers o'

theorem Final.step (h : s.Final) (ha : ∀ o, a ≠ .connectSet o) (hs : s.step a = some s') :
    s'.Final ∧ s'.client.nextConnId_ = s.client.nextConnId_ := by
  cases step_moves hs with
  | @connectSet o => exact absurd rfl (ha o)
  | @connectStart o loop hcall hloop =>
    have hno : s.loop.Resting → ¬ s.loop.IsStart (startOf o) := by
      intro hrest
      obtain hstate | ⟨-, -, -, hcallers⟩ := h.still
      · cases hrest.state.symm.trans hstate
      · exact absurd hcall (hcallers o)
    exact ⟨(h.loopStep (startOf_ne o) hno hloop).1.setCall (by simp), rfl⟩
  | @stopStop o loop hcall hloop =>
    have hno : s.loop.Resting → ¬ s.loop.IsStart (stopOf o) := by
      intro _
      cases o <;> exact id
    exact ⟨(h.loopStep (stopOf_ne o) hno hloop).1.setCall (by simp), rfl⟩
  | stopSet =>
    have hbase : Final { s with client := { s.client with connect_ := false } } :=
      ⟨h.steady, rfl, h.restarting, h.still⟩
    exact ⟨hbase.setCall (by simp), rfl⟩
  | disconnectSet =>
    have hbase : Final { s with client := { s.client with connect_ := false } } :=
      ⟨h.steady, rfl, h.restarting, h.still⟩
    exact ⟨hbase.setCall (by simp), rfl⟩
  | returned => exact ⟨h.setCall (by simp), rfl⟩
  | sendTest => exact ⟨h.setCall (by simp), rfl⟩
  | shutTest => exact ⟨h.setCall (by simp), rfl⟩
  | @sendPush t =>
    have hbase : (s.setCall (some t) .idle).Final := h.setCall (by simp)
    exact ⟨⟨hbase.steady, hbase.connect, hbase.restarting, hbase.still⟩, rfl⟩
  | @shutPush t =>
    have hbase : (s.setCall (some t) .idle).Final := h.setCall (by simp)
    exact ⟨⟨hbase.steady, hbase.connect, hbase.restarting, hbase.still⟩, rfl⟩
  | @shutSet o c conn =>
    have hbase : Final (s.setConn c { conn with state_ := .kDisconnecting }) :=
      ⟨h.steady, h.connect, h.restarting, h.still⟩
    exact ⟨hbase.setCall (by simp), rfl⟩
  | sendHere => exact (h.setCall (by simp)).after _ _
  | shutHere => exact (h.setCall (by simp)).after _ _
  | connector hin hloop =>
    exact ⟨(h.loopStep (ne_closed hin) (fun hrest => h.not_isStart hin hrest hloop) hloop).1, rfl⟩
  | newConnection hin hloop hmade =>
    have hsame := (h.loopStep (ne_closed hin) (fun hrest => h.not_isStart hin hrest hloop) hloop).2
    rw [hsame] at hmade
    exact absurd hmade (Nat.lt_irrefl _)
  | poll hfree hnodup hrep hloop =>
    have hbase := (h.loopStep (by simp) (fun _ => id) hloop).1
    exact ⟨⟨hbase.steady, hbase.connect, hbase.restarting, hbase.still⟩, rfl⟩
  | beginFunctors hfree hactive hloop =>
    have hbase := (h.loopStep (by simp) (fun _ => id) hloop).1
    exact ⟨⟨hbase.steady, hbase.connect, hbase.restarting, hbase.still⟩, rfl⟩
  | endFunctors hfree hbatch hloop => exact ⟨(h.loopStep (by simp) (fun _ => id) hloop).1, rfl⟩
  | callClose => exact (h.goto (by simp)).after _ _
  | callError => exact (h.goto (by simp)).after _ _
  | callRead hat hconn hplace =>
    refine (h.goto ?_).after _ _
    rcases hplace with rfl | rfl <;> simp
  | callWrite => exact (h.goto (by simp)).after _ _
  | endDestroyed => exact (h.goto (by simp)).after _ _
  | messageDone => exact ⟨h.goto (by simp), rfl⟩
  | eventDone => exact ⟨h.goto (by simp), rfl⟩
  | handleEvent => exact ⟨⟨h.steady, h.connect, by simp, h.still⟩, rfl⟩
  | reconnects hat hrec => simp [TcpClient.reconnects, h.connect] at hrec
  | removed hat =>
    have hsteady := h.steady
    refine ⟨⟨⟨hsteady.fits, hsteady.worked, hsteady.active, fun hne => absurd rfl hne⟩, h.connect, by simp,
      ?_⟩, rfl⟩
    rcases h.still with hstate | ⟨hrest, hqueue, hthreads, hcallers⟩
    · exact .inl hstate
    · exact .inr ⟨⟨hrest.state, hrest.timers, hrest.expired, hrest.starting⟩, hqueue, hthreads,
        hcallers⟩
  | restart hat => exact absurd hat.pc (h.restarting _ _)
  | @runFunctor w f rest conn s' hfree hpc hnext hconn hrun =>
    have hbase : Final { s with functors := rest } := ⟨h.steady, h.connect, h.restarting, h.still⟩
    rcases runFunctor_around hrun with ⟨c, -, hs'⟩ | hs'
    · exact ⟨(hbase.goto (by simp)).around hs', hs'.next⟩
    · exact ⟨hbase.around hs', hs'.next⟩
  | enableRetry => exact ⟨⟨h.steady, h.connect, h.restarting, h.still⟩, rfl⟩
  | sendOff => exact ⟨h, rfl⟩

end ClientState

variable {T : Type u} [DecidableEq T] {s s₁ s₂ s₃ : ClientState T} {o : Option T}
  {as bs : List (ClientAct T)}

end Netfish

import Netfish.Net.Stream

/-!
# After connectDestroyed

`send` looks at `state_` in the thread of its caller, and `sendInLoop` runs later without looking
again. So a message accepted before `connectDestroyed` and queued behind it finds a channel that is
out of the poller, and writes to the descriptor or registers the channel once more.
`stays_destroyed_iff` says which functors do so.
-/

set_option autoImplicit false

namespace Netfish

open Kit

universe u

/-- A connection among its threads, with a history of what comes after `connectDestroyed`. -/
structure DestroyState (T : Type u) extends ConnState T where
  /-- History: `connectDestroyed` has returned. -/
  destroyed : Bool
  /-- History: the calls of `::write` since. -/
  lateWrites : Nat

/-- What is left of a destroyed connection whose channel is out of the poller. -/
structure ConnState.Gone {T : Type u} (s : ConnState T) : Prop where
  state : s.conn.state_ ≠ .kConnecting ∧ s.conn.state_ ≠ .kConnected
  channel : s.conn.channel_ = .new
  call : s.calls none = .idle
  pc : s.pc = .idle ∨ s.pc = .batch
  fault : s.fault ≠ some .handleClose

namespace TcpConnection

variable {T : Type u}

/-- `sendInLoop` calls `::write`. -/
def writesDirectly (c : TcpConnection) : Bool :=
  c.channel_.isWriting = false ∧ c.outputBuffer_ = []

/-- The functor does not leave a destroyed connection as it is: a `sendInLoop`, except when its
message is empty and bytes are left in `outputBuffer_`; and a second `connectDestroyed` that gets past
its assertion. -/
def Revives (c : TcpConnection) : ConnFunctor T → Prop
  | .sendInLoop _ message => message ≠ [] ∨ c.outputBuffer_ = []
  | .connectDestroyed => c.inUse = true
  | _ => False

theorem directWrite_eq_of_not_writesDirectly {c : TcpConnection} (h : c.writesDirectly = false)
    (message : List UInt8) (w : WriteResult) : c.directWrite message w = (0, []) :=
  if_neg (of_decide_eq_false h)

/-- An empty message behind bytes that are left does nothing. -/
theorem sendInLoop_nil {c : TcpConnection} (h : c.outputBuffer_ ≠ []) (w : WriteResult) :
    c.sendInLoop [] w = .ok (c, []) := by
  have hno : c.writesDirectly = false := by simp [writesDirectly, h]
  rw [sendInLoop, directWrite_eq_of_not_writesDirectly hno]
  rfl

/-- A message that is not written at once registers a new channel. -/
theorem sendInLoop_registers {c : TcpConnection} (hch : c.channel_ = .new)
    (hbuf : c.outputBuffer_ ≠ []) {message : List UInt8} (hne : message ≠ []) (w : WriteResult) :
    ∃ c', c.sendInLoop message w = .ok (c', []) ∧ c'.channel_.mapped = true := by
  have hno : c.writesDirectly = false := by simp [writesDirectly, hbuf]
  have hoff : c.channel_.isWriting = false := by rw [hch]; rfl
  rw [sendInLoop, directWrite_eq_of_not_writesDirectly hno]
  simp only [List.length_pos_iff.mpr hne, if_true, buffered, hoff, Bool.false_eq_true, if_false]
  rw [hch]
  exact ⟨_, rfl, rfl⟩

/-- So does a second `connectDestroyed`. -/
theorem beginDestroyed_registers {c : TcpConnection} (hch : c.channel_ = .new)
    (hin : c.inUse = true) :
    ∃ c' es, c.beginDestroyed = .ok (c', es) ∧ c'.channel_.mapped = true := by
  rw [beginDestroyed, check_pos hin, ok_bind, hch]
  exact ⟨_, _, rfl, rfl⟩

end TcpConnection

namespace ConnState

variable {T : Type u} {s s' : ConnState T} {a : ConnAct T}

/-- The step calls `::write`. -/
def callsWrite (s : ConnState T) : ConnAct T → Bool
  | .sendHere _ => s.conn.writesDirectly
  | .runFunctor _ => match s.functors.next with
    | some (.sendInLoop .., _) => s.conn.writesDirectly
    | _ => false
  | .callWrite _ => s.conn.channel_.isWriting
  | _ => false

theorem perform_of_silent {es : List ConnEffect} (s : ConnState T)
    (h : ∀ e ∈ es, e = .shutdownWrite) :
    ∃ shutdowns, s.perform es = { s with shutdowns } := by
  induction es generalizing s with
  | nil => exact ⟨_, rfl⟩
  | cons e es ih =>
    obtain rfl := h e List.mem_cons_self
    exact ih (s.effect .shutdownWrite) fun e he => h e (List.mem_cons_of_mem _ he)

theorem shutdownInLoop_silent (c : TcpConnection) : ∀ e ∈ c.shutdownInLoop, e = .shutdownWrite := by
  intro e he
  unfold TcpConnection.shutdownInLoop at he
  split at he
  · cases he
  · exact List.mem_singleton.mp he

/-- A functor that does not revive the connection leaves it as it is, or stops at an assertion. -/
theorem Gone.runFunctor (h : s.Gone) {w : WriteResult} {f : ConnFunctor T}
    {rest : BatchQueue (ConnFunctor T)} (hok : ¬ s.conn.Revives f)
    (hs : ConnState.runFunctor { s with functors := rest } w f = some s') : s'.Gone := by
  cases f with
  | sendInLoop t message =>
    obtain ⟨rfl, hbuf⟩ : message = [] ∧ s.conn.outputBuffer_ ≠ [] := by
      simpa [TcpConnection.Revives] using hok
    simp only [ConnState.runFunctor, TcpConnection.sendInLoop_nil hbuf] at hs
    split at hs
    · cases hs
      exact ⟨h.state, h.channel, h.call, h.pc, h.fault⟩
    · cases hs
  | shutdownInLoop =>
    obtain ⟨shutdowns, hperf⟩ := perform_of_silent { s with functors := rest }
      (shutdownInLoop_silent s.conn)
    simp only [ConnState.runFunctor, hperf] at hs
    cases hs
    exact ⟨h.state, h.channel, h.call, h.pc, h.fault⟩
  | writeComplete =>
    cases hs
    exact ⟨h.state, h.channel, h.call, h.pc, h.fault⟩
  | connectDestroyed =>
    have hout : ¬ s.conn.inUse = true := hok
    simp only [ConnState.runFunctor, TcpConnection.beginDestroyed, check_neg hout] at hs
    cases hs
    exact ⟨h.state, h.channel, h.call, h.pc, by simp [after]⟩

/-- The thread of the loop is in no call, and a call of another thread does not change that. -/
theorem Gone.call_update [DecidableEq T] (h : s.Gone) (t : T) (pc : CallerPc) :
    Function.update s.calls (some t) pc none = .idle := by
  rw [Function.update_of_ne (Option.some_ne_none t).symm, h.call]

variable [DecidableEq T]

/-- What a `runFunctor` step runs. -/
theorem runFunctor_of_step {w : WriteResult} (hs : s.step (.runFunctor w) = some s') :
    ∃ f rest, s.functors.next = some (f, rest) ∧
      ConnState.runFunctor { s with functors := rest } w f = some s' := by
  cases (step_moves hs).2 with
  | runFunctor _ _ hnext hrun => exact ⟨_, _, hnext, hrun⟩

/-- A destroyed connection stays gone in a step that does not revive it: `send` and `shutdown` find it
closed, the poller reports nothing for it, and no handler of it runs. -/
theorem Gone.step (h : s.Gone)
    (hok : ∀ w f rest, a = .runFunctor w → s.functors.next = some (f, rest) → ¬ s.conn.Revives f)
    (hs : s.step a = some s') : s'.Gone ∧ s.callsWrite a = false := by
  cases (step_moves hs).2 with
  | sendTest _ hstate | shutTest _ hstate => exact absurd hstate h.state.2
  | sendNot | shutNot => exact ⟨h, rfl⟩
  | @sendPush t =>
    exact ⟨⟨h.state, h.channel, h.call_update t .idle, h.pc, h.fault⟩, rfl⟩
  | sendHere hcall | shutHere hcall => cases h.call.symm.trans hcall
  | @shutSet o hcall =>
    cases o with
    | none => cases h.call.symm.trans hcall
    | some t => exact ⟨⟨by simp, h.channel, h.call_update t .shut, h.pc, h.fault⟩, rfl⟩
  | @shutPush t =>
    exact ⟨⟨h.state, h.channel, h.call_update t .idle, h.pc, h.fault⟩, rfl⟩
  | queueDestroyed => exact ⟨⟨h.state, h.channel, h.call, h.pc, h.fault⟩, rfl⟩
  | connectEstablished =>
    rw [TcpConnection.connectEstablished, check_neg h.state.1]
    exact ⟨⟨h.state, h.channel, h.call, h.pc, by simp [after]⟩, rfl⟩
  | poll _ _ hwatched =>
    rw [h.channel] at hwatched
    cases hwatched
  | handleEvent _ hpc | callClose _ hpc | callError _ hpc | callRead _ hpc | callWrite _ hpc
  | eventDone _ hpc | endDestroyed _ hpc =>
    rcases h.pc with hpc' | hpc' <;> cases hpc.symm.trans hpc'
  | beginFunctors => exact ⟨⟨h.state, h.channel, h.call, .inr rfl, h.fault⟩, rfl⟩
  | @runFunctor w f rest s' _ _ hnext hrun =>
    have hf := hok w f rest rfl hnext
    refine ⟨h.runFunctor hf hrun, ?_⟩
    simp only [callsWrite, hnext]
    split
    · next heq =>
      cases heq
      have hbuf : s.conn.outputBuffer_ ≠ [] := fun hbuf => hf (.inr hbuf)
      simp [TcpConnection.writesDirectly, hbuf]
    · rfl
  | endFunctors => exact ⟨⟨h.state, h.channel, h.call, .inl rfl, h.fault⟩, rfl⟩

/-- In the last callback of the connection its state is past `kConnected`. -/
def Leaving (s : ConnState T) : Prop :=
  s.pc = .destroying → s.conn.state_ ≠ .kConnecting ∧ s.conn.state_ ≠ .kConnected

theorem Leaving.step (h : s.Leaving) (hst : s.Streams) (hs : s.step a = some s') :
    s'.Leaving := by
  intro hpc
  cases step_move hst.wf hs with
  | sendHere hc hsent =>
    simp only [perform_eq, setCall, record] at hpc ⊢
    rw [hsent.state]
    exact h hpc
  | shutSet => simp
  | shutHere =>
    simp only [perform_eq, setCall] at hpc ⊢
    exact h hpc
  | goto hb hb' =>
    dsimp only at hpc
    rw [hpc] at hb'
    cases hb'
  | connectEstablished hstate => exact absurd hstate (h hpc).1
  | close => cases hpc
  | callWrite => cases hpc
  | beginFunctors => cases hpc
  | runSend hb =>
    simp only [perform_eq, record] at hpc
    cases hb.symm.trans hpc
  | runShutdown hb =>
    simp only [perform_eq] at hpc
    cases hb.symm.trans hpc
  | beginDestroyed => simp
  | endDestroyed => cases hpc
  | endFunctors => cases hpc
  | _ => exact h hpc

/-- `connectDestroyed` has returned. -/
theorem gone_of_endDestroyed (h : s.Leaving) (hst : s.Streams)
    (hs : s.step .endDestroyed = some s') (hf : s'.fault = none) : s'.Gone := by
  obtain ⟨hnone, hmove⟩ := step_moves hs
  cases hmove with
  | endDestroyed hidle hpc =>
    cases hrun : s.conn.channel_.removeChannel with
    | error f =>
      simp only [TcpConnection.endDestroyed, TcpConnection.onChannel, hrun] at hf
      cases hf
    | ok channel =>
      simp only [TcpConnection.endDestroyed, TcpConnection.onChannel, hrun]
      refine ⟨h hpc, hst.wf.removeChannel_eq hrun, hidle, .inr rfl, ?_⟩
      simp [Except.map, after, perform, hnone]

end ConnState

namespace DestroyState

variable {T : Type u} [DecidableEq T] {s s' : DestroyState T} {a : ConnAct T}

/-- The step of the connection, with the history. -/
def step (s : DestroyState T) (a : ConnAct T) : Option (DestroyState T) :=
  (s.toConnState.step a).map fun s' =>
    { s' with
      destroyed := s.destroyed || match a with
        | .endDestroyed => s'.fault.isNone
        | _ => false
      lateWrites := s.lateWrites + if s.destroyed && s.callsWrite a then 1 else 0 }

/-- A destroyed connection stays destroyed: no `::write` was called for it, its channel is not in the
poller, and no `handleClose` has found it in `kDisconnected`. -/
def StaysDestroyed (s : DestroyState T) : Prop :=
  s.destroyed = true → s.lateWrites = 0 ∧ s.conn.channel_.mapped = false ∧
    s.conn.channel_.watched = none ∧ s.fault ≠ some .handleClose

/-- No functor revives the connection once it is destroyed. -/
def NotRevived (s : DestroyState T) (a : ConnAct T) : Prop :=
  s.destroyed = true → ∀ w f rest, a = .runFunctor w → s.functors.next = some (f, rest) →
    ¬ s.conn.Revives f

/-- The invariant. -/
structure Ending (s : DestroyState T) : Prop where
  streams : s.Streams
  leaving : s.Leaving
  gone : s.destroyed = true → s.Gone
  writes : s.lateWrites = 0

theorem Ending.staysDestroyed (h : s.Ending) : s.StaysDestroyed := by
  intro hd
  have hgone := h.gone hd
  rw [hgone.channel]
  exact ⟨h.writes, rfl, rfl, hgone.fault⟩

theorem Ending.step (h : s.Ending) (hok : s.NotRevived a) (hs : s.step a = some s') :
    s'.Ending := by
  obtain ⟨t, ht, rfl⟩ := Option.map_eq_some_iff.mp hs
  have hst := h.streams.step ht
  have hleaving := h.leaving.step h.streams ht
  cases hold : s.destroyed with
  | true =>
    obtain ⟨hgone, hquiet⟩ := (h.gone hold).step (hok hold) ht
    exact ⟨hst, hleaving, fun _ => hgone, by simp [hquiet, h.writes]⟩
  | false =>
    refine ⟨hst, hleaving, ?_, by simp [h.writes]⟩
    intro hd
    cases a with
    | endDestroyed =>
      have hnone : t.fault = none := by simpa [hold] using hd
      exact ConnState.gone_of_endDestroyed h.leaving h.streams ht hnone
    | _ => simp at hd

/-- A functor that revives a destroyed connection calls `::write` or registers the channel. -/
theorem Ending.breaks (h : s.Ending) (hok : ¬ s.NotRevived a) (hs : s.step a = some s') :
    ¬ s'.StaysDestroyed := by
  simp only [NotRevived, Classical.not_imp, not_forall, not_not] at hok
  obtain ⟨hd, w, f, rest, rfl, hnext, hrev⟩ := hok
  have hgone := h.gone hd
  obtain ⟨t, ht, rfl⟩ := Option.map_eq_some_iff.mp hs
  obtain ⟨g, rest', hnext', hrun⟩ := ConnState.runFunctor_of_step ht
  cases hnext.symm.trans hnext'
  intro hstays
  obtain ⟨hwrites, hmapped, -⟩ := hstays (by simp [hd])
  cases f with
  | sendInLoop t message =>
    by_cases hbuf : s.conn.outputBuffer_ = []
    · have hdirect : s.conn.writesDirectly = true := by
        simp [TcpConnection.writesDirectly, hgone.channel, hbuf, Channel.isWriting, Channel.new,
          Events.none]
      simp [hd, ConnState.callsWrite, hnext, hdirect] at hwrites
    · obtain ⟨c', hsend, hreg⟩ := TcpConnection.sendInLoop_registers hgone.channel hbuf
        (hrev.resolve_right hbuf) w
      simp only [ConnState.runFunctor, hsend] at hrun
      split at hrun
      · cases hrun
        cases hmapped.symm.trans hreg
      · cases hrun
  | connectDestroyed =>
    obtain ⟨c', es, hbegin, hreg⟩ := TcpConnection.beginDestroyed_registers hgone.channel hrev
    simp only [ConnState.runFunctor, hbegin, ConnState.after, ConnState.perform_eq] at hrun
    cases hrun
    cases hmapped.symm.trans hreg
  | _ => exact hrev

end DestroyState

/-- A connection among its threads, watched past its end. -/
def destroyedConnection (T : Type u) [DecidableEq T] : Machine (DestroyState T) (ConnAct T) where
  init s := (tcpConnection T).init s.toConnState ∧ s.destroyed = false ∧ s.lateWrites = 0
  step := DestroyState.step

variable {T : Type u} [DecidableEq T] {s : DestroyState T}

/-- **When a destroyed connection stays destroyed.** In a run of a connection with any callers and any
results of the kernel: once `connectDestroyed` has returned, `::write` is not called for the
connection, its channel stays out of the poller and no `handleClose` finds it in `kDisconnected`, if
and only if no `sendInLoop` runs after that, except with an empty message and bytes left in
`outputBuffer_`, and no second `connectDestroyed` gets past its assertion. -/
theorem stays_destroyed_iff (h : (destroyedConnection T).init s) (as : List (ConnAct T)) :
    (destroyedConnection T).Along DestroyState.StaysDestroyed s as ↔
      (destroyedConnection T).Guarded DestroyState.NotRevived s as := by
  obtain ⟨⟨m, w, hstart⟩, hd, hwrites⟩ := h
  have hend : s.Ending := by
    refine ⟨?_, ?_, fun hd' => ?_, hwrites⟩
    · rw [hstart]
      exact ConnState.start_streams m w
    · rw [hstart]
      intro hpc
      cases hpc
    · cases hd.symm.trans hd'
  exact Machine.along_iff_guarded DestroyState.Ending (fun _ h => h.staysDestroyed)
    (fun _ _ _ h hok hs => h.step hok hs) (fun _ _ _ h hok hs => h.breaks hok hs) hend

/-- The peer closes the connection, which is destroyed. -/
theorem stays_destroyed_eof : ∃ s₀ s : DestroyState Unit, (destroyedConnection Unit).init s₀ ∧
    s.destroyed = true ∧ s.StaysDestroyed := by
  have hinit : (destroyedConnection Unit).init ⟨.start true false, false, 0⟩ :=
    ⟨⟨true, false, rfl⟩, rfl, rfl⟩
  have hlabels : ∀ as : List (ConnAct Unit), (∀ a ∈ as, ∀ w, a ≠ .runFunctor w) → ∀ s,
      (destroyedConnection Unit).Guarded DestroyState.NotRevived s as := by
    intro as has
    exact Machine.Guarded.of_labels fun a ha _ _ w _ _ heq => absurd heq (has a ha w)
  have halong := (stays_destroyed_iff hinit ([.connectEstablished, .poll { pollin := true },
    .handleEvent, .callRead .eof, .eventDone, .queueDestroyed, .beginFunctors] ++
      .runFunctor .failed :: [.endDestroyed, .endFunctors])).mpr <| by
    refine (hlabels _ (by simp) _).append ?_
    intro t ht u _
    cases ht
    exact ⟨by rintro ⟨⟩, hlabels _ (by simp) u⟩
  exact ⟨_, _, hinit, rfl, halong.last rfl⟩

/-- A message passes the test of `send` while the connection is closing, and its `sendInLoop` is queued
behind `connectDestroyed`: it calls `::write`, registers the channel for the rest, and the hang-up
that follows stops at the assertion of `handleClose`. -/
theorem stays_destroyed_fails : ¬ ∀ s₀ : DestroyState Unit, (destroyedConnection Unit).init s₀ →
    ∀ as s, (destroyedConnection Unit).run s₀ as = some s → s.StaysDestroyed := by
  intro hall
  have hstays := hall ⟨.start true false, false, 0⟩ ⟨⟨true, false, rfl⟩, rfl, rfl⟩
    [.connectEstablished, .poll { pollin := true }, .handleEvent, .callRead .eof, .eventDone,
      .queueDestroyed, .sendTest (some ()) [1, 2], .beginFunctors, .runFunctor .failed,
      .endDestroyed, .endFunctors, .sendPush (), .beginFunctors, .runFunctor (.wrote 1),
      .endFunctors, .poll { pollhup := true }, .handleEvent, .callClose] _ rfl
  obtain ⟨hwrites, -, -, hfault⟩ := hstays rfl
  exact hfault rfl

end Netfish

import Netfish.Net.StartedOnce

/-!
# A connector started and stopped

`stop` clears `connect_` and cancels the retry timer, and leaves `state_` to the handlers. A `start`
after it finds `kDisconnected` unless an attempt is in progress or one has succeeded, which no `stop`
undoes. `start_stop_iff` says so exactly, for calls between iterations of the loop.
-/

set_option autoImplicit false

namespace Netfish

open Kit

universe u

/-- What the calls of `start` and `stop` were, and what came of them. -/
structure StartStop where
  /-- There was no `start` yet, or a `stop` after the last one. -/
  mayStart : Bool
  /-- An attempt has succeeded. -/
  completed : Bool
  /-- Each `startInLoop` has made a socket. -/
  attempted : Bool
deriving DecidableEq, Repr

def StartStop.start : StartStop where
  mayStart := true
  completed := false
  attempted := true

namespace ConnectorState

variable {T : Type u} {s s' : ConnectorState T} {a : ConnectorAct T} {e : ConnectErrno}
  {history history' : StartStop}

/-- The step is a `handleWrite` that finds its attempt has succeeded. -/
def completes (s : ConnectorState T) : ConnectorAct T → Bool
  | .callback err selfConnect =>
    match s.pc with
    | .event (.write :: _) _ _ => s.connector.state_ = .kConnecting && !(err || selfConnect)
    | _ => false
  | _ => false

/-- `start` and `stop` are called in the loop's thread between two iterations, `start` the first time or
after a `stop`, and nothing else is called. -/
def startStop (history : StartStop) (s : ConnectorState T) (a : ConnectorAct T)
    (s' : ConnectorState T) : Option StartStop :=
  match a with
  | .startHere =>
    if s.pc = .idle ∧ history.mayStart = true then some { history with mayStart := false } else none
  | .stopHere => if s.pc = .idle then some { history with mayStart := true } else none
  | .startInLoop _ =>
    some { history with attempted := history.attempted && s.nextSocket < s'.nextSocket }
  | .startSet _ => none
  | .startPush _ => none
  | .stopSet _ => none
  | .stopPush _ _ => none
  | .closed true => none
  | a => some { history with completed := history.completed || s.completes a }

/-- No `start` comes while an attempt is in progress or after one has succeeded. -/
def StartsAtRest (history : StartStop) (s : ConnectorState T) (a : ConnectorAct T) : Prop :=
  a = .startHere → s.connector.channel_ = none ∧ history.completed = false

/-- What restarting promises: no assertion has failed, `startInLoop` finds what it asserts, and each
`start` has led to an attempt. -/
structure Restarts (s : ConnectorState T) (history : StartStop) : Prop where
  noFault : s.fault = none
  found : s.starting = true → s.connector.state_ = .kDisconnected ∧ s.connector.channel_ = none
  attempted : history.attempted = true

/-- The invariant. -/
structure Restartable (s : ConnectorState T) (history : StartStop) : Prop where
  phased : s.Phased
  completed : s.connector.state_ = .kConnected ↔ history.completed = true
  off : s.connector.connect_ = false → s.timers = [] ∧ s.pc.expired = []
  stopped : history.mayStart = true → s.connector.connect_ = false
  wanted : s.starting = true → s.connector.connect_ = true
  queue : s.queuedStarts = 0
  attempted : history.attempted = true

theorem Restartable.restarts (h : s.Restartable history) : s.Restarts history := by
  refine ⟨h.phased.noFault, ?_, h.attempted⟩
  intro hstart
  have hr := h.phased.ready hstart
  exact ⟨hr.state, hr.channel⟩

/-- What `startInLoop` changes, when it is let through. -/
structure Begun (s s' : ConnectorState T) : Prop where
  connect : s'.connector.connect_ = s.connector.connect_
  state : s'.connector.state_ ≠ .kConnected
  attempt : s.connector.connect_ = true → s.nextSocket < s'.nextSocket
  timers : s.connector.connect_ = false → s'.timers = s.timers

theorem startInLoop_begun (hstate : s.connector.state_ = .kDisconnected)
    (hch : s.connector.connect_ = true → e.begins = true → s.connector.channel_ = none) :
    s.Begun (s.startInLoop e) := by
  obtain ⟨c', es, hrun, hstarted⟩ := Connector.startInLoop_spec s.nextSocket s.nextTimer
    hstate hch
  rw [startInLoop, hrun]
  cases hstarted with
  | off h => exact ⟨rfl, by simp [after, hstate], fun hyes => by simp [h] at hyes, fun _ => rfl⟩
  | began h => exact ⟨rfl, ConnectorStates.noConfusion, fun _ => Nat.lt_succ_self _, fun _ => rfl⟩
  | retried h =>
    exact ⟨rfl, by simp [after, effect, Connector.armed, hstate], fun _ => Nat.lt_succ_self _,
      fun hno => by simp [h] at hno⟩
  | failed h =>
    exact ⟨rfl, by simp [after, effect, hstate], fun _ => Nat.lt_succ_self _, fun _ => rfl⟩

/-- What the end of an attempt changes. -/
theorem after_ended {sockfd : Nat} {c' : Connector} {es : List ConnectorEffect}
    (hended : s.connector.Ended sockfd s.nextTimer c' es) :
    (s.after (.ok (c', es))).connector = c' ∧ c'.connect_ = s.connector.connect_ ∧
      (s.connector.connect_ = false → (s.after (.ok (c', es))).timers = s.timers) := by
  cases hended with
  | retried h => exact ⟨rfl, rfl, fun hno => by simp [h] at hno⟩
  | stopped => exact ⟨rfl, rfl, fun _ => rfl⟩
  | connected h => exact ⟨by split <;> rfl, rfl, fun hno => by simp [h] at hno⟩
  | unwanted => exact ⟨rfl, rfl, fun _ => rfl⟩

theorem callback_outcome (h : s.Phased) {err selfConnect inCallback timerfd : Bool}
    {callback : ChannelCallback} {todo : List ChannelCallback}
    (hpc : s.pc = .event (callback :: todo) inCallback timerfd) :
    (s.callback err selfConnect callback).connector.connect_ = s.connector.connect_ ∧
      (s.connector.connect_ = false → (s.callback err selfConnect callback).timers = s.timers) ∧
      ((s.callback err selfConnect callback).connector.state_ = .kConnected ↔
        s.connector.state_ = .kConnected ∨ s.completes (.callback err selfConnect) = true) := by
  obtain ⟨-, herror⟩ := h.erring _ _ _ hpc
  cases callback with
  | close => exact ⟨rfl, fun _ => rfl, by simp [ConnectorState.callback, completes, hpc]⟩
  | read => exact ⟨rfl, fun _ => rfl, by simp [ConnectorState.callback, completes, hpc]⟩
  | error =>
    have hstate := herror List.mem_cons_self
    obtain ⟨sockfd, hch, -⟩ := h.fits.of_connecting hstate
    obtain ⟨c', es, hrun, hended, hstate'⟩ := Connector.handleError_spec s.nextTimer hstate
      hch
    obtain ⟨hconn, hconnect, htimers⟩ := after_ended hended
    rw [ConnectorState.callback, hrun, hconn]
    exact ⟨hconnect, htimers, by simp [completes, hpc, hstate, hstate']⟩
  | write =>
    by_cases hstate : s.connector.state_ = .kConnecting
    · obtain ⟨sockfd, hch, -⟩ := h.fits.of_connecting hstate
      obtain ⟨c', es, hrun, hended, hstate'⟩ := Connector.handleWrite_spec s.nextTimer hstate
        hch err selfConnect
      obtain ⟨hconn, hconnect, htimers⟩ := after_ended hended
      rw [ConnectorState.callback, hrun, hconn]
      refine ⟨hconnect, htimers, ?_⟩
      cases hfail : err || selfConnect <;> simp [completes, hpc, hstate, hstate', hfail]
    · rw [ConnectorState.callback, Connector.handleWrite_of_ne hstate]
      exact ⟨rfl, fun _ => rfl, by simp [after, completes, hpc, hstate]⟩

/-- A `start` that comes at rest finds the connector ready. -/
theorem Restartable.ready (h : s.Restartable history) (hok : s.StartsAtRest history a)
    (hsee : startStop history s a s' = some history') (ha : s.Begins a) : s.Ready := by
  cases a with
  | startHere =>
    obtain ⟨hch, hcompleted⟩ := hok rfl
    simp only [startStop, Option.ite_none_right_eq_some] at hsee
    obtain ⟨⟨hpc, hmay⟩, -⟩ := hsee
    obtain ⟨htimers, hexpired⟩ := h.off (h.stopped hmay)
    refine ⟨?_, hch, htimers, hexpired⟩
    cases hstate : s.connector.state_ with
    | kDisconnected => rfl
    | kConnecting =>
      obtain ⟨sockfd, hsome, -⟩ := h.phased.fits.of_connecting hstate
      cases hch.symm.trans hsome
    | kConnected => cases hcompleted.symm.trans (h.completed.mp hstate)
  | runFunctor e =>
    obtain ⟨rest, hnext⟩ := ha
    have hqueue := h.queue
    simp [queuedStarts, BatchQueue.toList_of_next hnext] at hqueue
  | _ => exact absurd ha id

/-- A step that is no call keeps the rest of the invariant. -/
theorem Restartable.frame (h : s.Restartable history) (hphased : s'.Phased) {completes : Bool}
    (hconnect : s'.connector.connect_ = s.connector.connect_)
    (hstate : s'.connector.state_ = .kConnected ↔
      s.connector.state_ = .kConnected ∨ completes = true)
    (hoff : s.connector.connect_ = false → s'.timers = [] ∧ s'.pc.expired = [])
    (hstarting : s'.starting = true → s.starting = true)
    (hqueue : s'.queuedStarts = s.queuedStarts) :
    s'.Restartable { history with completed := history.completed || completes } where
  phased := hphased
  completed := by simp [hstate, h.completed]
  off hno := hoff (hconnect.symm.trans hno)
  stopped hmay := hconnect.trans (h.stopped hmay)
  wanted hstart := hconnect.trans (h.wanted (hstarting hstart))
  queue := hqueue.trans h.queue
  attempted := h.attempted

variable [DecidableEq T]

theorem Restartable.step (h : s.Restartable history) (hok : s.RetriesAfterReset a)
    (hrest : s.StartsAtRest history a) (hsee : startStop history s a s' = some history')
    (hs : s.step a = some s') : s'.Restartable history' := by
  have hphased := h.phased.step (h.ready hrest hsee) hok hs
  have hready := h.ready hrest hsee
  obtain ⟨-, hmove⟩ := step_moves hs
  cases hmove with
  | startSet => cases hsee
  | startPush => cases hsee
  | stopSet => cases hsee
  | stopPush => cases hsee
  | startHere =>
    simp only [startStop, Option.ite_none_right_eq_some, Option.some.injEq] at hsee
    obtain ⟨-, rfl⟩ := hsee
    refine ⟨hphased, h.completed, ?_, ?_, fun _ => rfl, h.queue, h.attempted⟩
    · intro hno
      cases hno
    · intro hmay
      cases hmay
  | stopHere hstart =>
    simp only [startStop, Option.ite_none_right_eq_some, Option.some.injEq] at hsee
    obtain ⟨hpc, rfl⟩ := hsee
    refine ⟨hphased, h.completed, fun _ => ⟨?_, ?_⟩, fun _ => rfl, ?_, h.queue, h.attempted⟩
    · have hcancelled : ∀ timer ∈ s.timers, ¬ (some timer ≠ s.connector.timerId_) :=
        fun timer hmem hne => hne (h.phased.named timer hmem).symm
      simpa [cancelInLoop, setConnect, List.filter_eq_nil_iff] using hcancelled
    · exact congrArg ConnectorPc.expired hpc
    · intro hyes
      cases hstart.symm.trans hyes
  | @startInLoop e hstart =>
    cases hsee
    have hr := h.phased.ready hstart
    have hwanted := h.wanted hstart
    have hbegun := startInLoop_begun (e := e) hr.state fun _ _ => hr.channel
    have hnot : history.completed = false := by
      have hno : ¬ s.connector.state_ = .kConnected := by simp [hr.state]
      simpa using mt h.completed.mpr hno
    refine ⟨hphased, by simp [hbegun.state, hnot], ?_, ?_, ?_, ?_, ?_⟩
    · intro hno
      cases (hbegun.connect.trans hwanted).symm.trans hno
    · exact fun hmay => hbegun.connect.trans (h.stopped hmay)
    · intro hyes
      cases hyes
    · exact (after_starts s _).queue.trans h.queue
    · simp [h.attempted, hbegun.attempt hwanted]
  | @callback err selfConnect inCallback timerfd callback todo hstart hpc =>
    cases hsee
    obtain ⟨hconnect, htimers, hstate⟩ := callback_outcome h.phased hpc
    refine h.frame hphased hconnect hstate ?_ ?_ (callback_starts s err selfConnect callback).queue
    · exact fun hno => ⟨(htimers hno).trans (h.off hno).1, rfl⟩
    · intro hyes
      cases callback <;> simpa [ConnectorState.callback] using hyes
  | @closed restart active timerfd hstart hpc hlink =>
    cases restart with
    | true => cases hsee
    | false =>
      cases hsee
      exact h.frame hphased rfl (by simp [ConnectorState.closed, completes]) h.off id rfl
  | timerRead hstart hpc hsub =>
    cases hsee
    refine h.frame hphased rfl (by simp [completes]) ?_ id rfl
    intro hno
    obtain ⟨hnil, -⟩ := h.off hno
    rw [hnil, List.sublist_nil] at hsub
    exact ⟨by simp [hnil], hsub⟩
  | @runTimer e timer expired active hstart hpc =>
    cases hsee
    obtain ⟨hstate, hch⟩ := h.phased.retries hok (by simp [hpc, ConnectorPc.expired])
    have hbegun := startInLoop_begun (e := e) hstate hch
    refine h.frame hphased hbegun.connect ?_ ?_ ?_ (after_starts s _).queue
    · simp [completes, hstate, hbegun.state]
    · intro hno
      have hexpired := (h.off hno).2
      simp [hpc, ConnectorPc.expired] at hexpired
    · intro hyes
      simpa [startInLoop] using hyes
  | beginFunctors hstart hpc =>
    cases hsee
    refine h.frame hphased rfl (by simp [completes]) (fun hno => ⟨(h.off hno).1, rfl⟩) id ?_
    simp [queuedStarts, BatchQueue.toList_swap (h.phased.worked (by simp [hpc]))]
  | @runFunctor e f rest hstart hpc hnext =>
    cases hsee
    have hqueue : s.queuedStarts = (f :: rest.toList).count .startInLoop := by
      rw [queuedStarts, BatchQueue.toList_of_next hnext]
    cases f with
    | startInLoop => simp [h.queue] at hqueue
    | resetChannel sockfd =>
      refine h.frame hphased rfl (by simp [completes, ConnectorState.runFunctor, Connector.resetChannel])
        h.off id ?_
      simpa [queuedStarts, ConnectorState.runFunctor] using hqueue.symm
    | cancelInLoop timerId =>
      refine h.frame hphased rfl (by simp [completes, ConnectorState.runFunctor, cancelInLoop]) ?_ id ?_
      · intro hno
        obtain ⟨hnil, hexpired⟩ := h.off hno
        exact ⟨by simp [ConnectorState.runFunctor, cancelInLoop, hnil], hexpired⟩
      · simpa [queuedStarts, ConnectorState.runFunctor, cancelInLoop] using hqueue.symm
  | endFunctors hstart hpc =>
    cases hsee
    exact h.frame hphased rfl (by simp [completes]) (fun hno => ⟨(h.off hno).1, rfl⟩) id rfl
  | _ =>
    cases hsee
    exact h.frame hphased rfl (by simp [completes]) (fun hno => ⟨(h.off hno).1, rfl⟩) id rfl

/-- A `start` that does not come at rest finds `kConnecting` or `kConnected`. -/
theorem Restartable.breaks (h : s.Restartable history) (hrest : ¬ s.StartsAtRest history a)
    (hmove : s.Moves a s') : ¬ s'.Restarts history' := by
  simp only [StartsAtRest, Classical.not_imp, not_and, Bool.not_eq_false] at hrest
  obtain ⟨rfl, hrest⟩ := hrest
  cases hmove with
  | startHere =>
    intro hfound
    obtain ⟨hstate, hch⟩ := hfound.found rfl
    have hconnected := h.completed.mpr (hrest hch)
    cases hstate.symm.trans hconnected

end ConnectorState

/-- A connector that is started and stopped between the iterations of its loop. -/
def startedStopped (T : Type u) [DecidableEq T] :
    Machine (ConnectorState T × StartStop) (ConnectorAct T) :=
  (connectorLoop T).observe .start ConnectorState.startStop

variable {T : Type u} [DecidableEq T] {p : ConnectorState T × StartStop}

/-- **When `stop` leaves a connector restartable.** In a run of `start` and `stop` in the loop's thread
between iterations, each `start` after the first following a `stop`, with any results of the kernel: no
assertion fails, every `startInLoop` finds `kDisconnected` and no channel, and every `start` leads to an
attempt, if and only if no `start` comes while an attempt is in progress or after one has succeeded, and
no retry overtakes the `resetChannel` of the last attempt. -/
theorem start_stop_iff (h : (startedStopped T).init p) (as : List (ConnectorAct T)) :
    (startedStopped T).Along (fun p => p.1.Restarts p.2) p as ↔
      (startedStopped T).Guarded
        (fun p a => p.1.StartsAtRest p.2 a ∧ p.1.RetriesAfterReset a) p as := by
  obtain ⟨⟨newConnectionCallback, hstart⟩, hhistory⟩ := h
  refine Machine.along_iff_guarded (fun p => p.1.Restartable p.2) (fun p h => h.restarts) ?_ ?_ ?_
  · rintro p a p' hp ⟨hrest, hok⟩ hs
    obtain ⟨hs, hsee⟩ := Machine.observe_step.mp hs
    exact hp.step hok hrest hsee hs
  · rintro p a p' hp hok hs
    obtain ⟨hs, -⟩ := Machine.observe_step.mp hs
    have hmove := (ConnectorState.step_moves hs).2
    rcases not_and_or.mp hok with hrest | hretry
    · exact hp.breaks hrest hmove
    · exact fun hgood => hp.phased.breaks hretry hmove hgood.noFault
  · rw [hstart, hhistory]
    refine ⟨ConnectorState.start_phased newConnectionCallback, ?_, fun _ => ⟨rfl, rfl⟩, fun _ => rfl, ?_,
      rfl, rfl⟩
    · simp [ConnectorState.start, Connector.new, StartStop.start]
    · intro hyes
      cases hyes

/-- The first attempt fails, `stop` cancels the retry, and the next `start` leads to an attempt. -/
theorem start_stop_retry : ∃ p₀ p : ConnectorState Unit × StartStop,
    (startedStopped Unit).init p₀ ∧ p.1.connector.state_ = .kConnecting ∧ p.1.Restarts p.2 := by
  have hinit : (startedStopped Unit).init (.start true, .start) := ⟨⟨true, rfl⟩, rfl⟩
  have halong := (start_stop_iff hinit [.startHere, .startInLoop .ECONNREFUSED, .stopHere, .startHere,
      .startInLoop .EINPROGRESS]).mpr <| by
    rintro p₁ ⟨⟩
    refine ⟨⟨fun _ => ⟨rfl, rfl⟩, by rintro e ⟨⟩⟩, ?_⟩
    rintro p₂ ⟨⟩
    refine ⟨⟨by rintro ⟨⟩, by rintro e ⟨⟩⟩, ?_⟩
    rintro p₃ ⟨⟩
    refine ⟨⟨by rintro ⟨⟩, by rintro e ⟨⟩⟩, ?_⟩
    rintro p₄ ⟨⟩
    refine ⟨⟨fun _ => ⟨rfl, rfl⟩, by rintro e ⟨⟩⟩, ?_⟩
    rintro p₅ ⟨⟩
    exact ⟨⟨by rintro ⟨⟩, by rintro e ⟨⟩⟩, trivial⟩
  exact ⟨_, _, hinit, rfl, halong.last rfl⟩

/-- `stop` and `start` while the first attempt is in progress: `startInLoop` asserts `kDisconnected` and
finds `kConnecting`. -/
theorem start_stop_fails : ¬ ∀ p₀ : ConnectorState Unit × StartStop,
    (startedStopped Unit).init p₀ →
    ∀ as p, (startedStopped Unit).run p₀ as = some p → p.1.Restarts p.2 := by
  intro hall
  have hgood := hall (.start true, .start) ⟨⟨true, rfl⟩, rfl⟩ [.startHere, .startInLoop .EINPROGRESS,
    .stopHere, .startHere, .startInLoop .zero] _ rfl
  cases hgood.noFault

end Netfish

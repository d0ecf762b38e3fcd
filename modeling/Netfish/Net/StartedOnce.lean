import Netfish.Net.ConnectorPhases

/-!
# A connector started once

With one call of `start`, wherever it is made, the steps that follow it find the connector untouched.
What is left is the retry timer: `TimerQueue::handleRead` may come after the handler that armed it and
before the functors of the same iteration, if that takes as long as the delay. The channel of the last
attempt is still there then. `connector_phases_iff` says so exactly.
-/

set_option autoImplicit false

namespace Netfish

open Kit

universe u

namespace ConnectorState

variable {T : Type u} {s s' : ConnectorState T} {a : ConnectorAct T}

/-- No `startInLoop` has run yet. -/
structure Untouched (s : ConnectorState T) : Prop extends s.Resting where
  channel : s.connector.channel_ = none

theorem Untouched.ready (h : s.Untouched) : s.Ready :=
  ⟨h.state, h.channel, h.timers, h.expired⟩

/-- Where the call of `start` is, by whether it has begun. -/
inductive Pending (s : ConnectorState T) : Bool → Prop
  | before (hcalls : ∀ t, s.calls t ≠ .starting) (hqueue : s.queuedStarts = 0) (h : s.Untouched) :
      Pending s false
  | calling (t : T) (hcall : s.calls t = .starting) (hothers : ∀ u, s.calls u = .starting → u = t)
      (hqueue : s.queuedStarts = 0) (h : s.Untouched) : Pending s true
  | queued (hcalls : ∀ t, s.calls t ≠ .starting) (hqueue : s.queuedStarts = 1) (h : s.Untouched) :
      Pending s true
  | ran (hcalls : ∀ t, s.calls t ≠ .starting) (hqueue : s.queuedStarts = 0) : Pending s true

/-- The history: whether `start` was called; it is not called again. -/
def startOnce (started : Bool) (_ : ConnectorState T) (a : ConnectorAct T) (_ : ConnectorState T) :
    Option Bool :=
  match a with
  | .startSet _ => if started then none else some true
  | .startHere => if started then none else some true
  | _ => some started

/-- What the phases promise: no assertion has failed, one retry timer at most is outstanding, and only
in `kDisconnected` with no channel in the poller, and a queued `resetChannel` destroys the channel it
was queued for. -/
structure InPhase (s : ConnectorState T) : Prop where
  noFault : s.fault = none
  one : (s.timers ++ s.pc.expired).length ≤ 1
  waiting : s.timers ++ s.pc.expired ≠ [] → s.connector.state_ = .kDisconnected ∧
    ∀ c ∈ s.connector.channel_, c.channel.mapped = false
  resets : ∀ sockfd, .resetChannel sockfd ∈ s.functors.toList →
    s.connector.channel_.map (·.fd_) = some sockfd

theorem Phased.inPhase (h : s.Phased) : s.InPhase := by
  refine ⟨h.noFault, h.one, ?_, ?_⟩
  · intro hne
    have hstate := h.waiting hne
    refine ⟨hstate, ?_⟩
    rcases h.fits.of_not_connecting (by simp [hstate]) with ⟨hch, -⟩ | ⟨sockfd, hch, -⟩ <;>
      simp [hch, Channel.new]
  · intro sockfd hmem
    have hresets := mem_resetsOf.mpr hmem
    have hnot : s.connector.state_ ≠ .kConnecting := by
      intro hstate
      obtain ⟨-, -, hnil⟩ := h.fits.of_connecting hstate
      rw [hnil] at hresets
      cases hresets
    rcases h.fits.of_not_connecting hnot with ⟨-, hnil⟩ | ⟨fd, hch, hone⟩
    · rw [hnil] at hresets
      cases hresets
    · rw [hone, List.mem_singleton] at hresets
      simp [hch, hresets]

theorem Untouched.start (newConnectionCallback : Bool) :
    (start newConnectionCallback : ConnectorState T).Untouched :=
  ⟨⟨rfl, rfl, rfl, rfl⟩, rfl⟩

/-- The steps of the one `start` find the connector untouched. -/
theorem Pending.untouched {started started' : Bool} (h : s.Pending started)
    (hsee : startOnce started s a s' = some started') (ha : s.Begins a) : s.Untouched := by
  cases a with
  | startHere =>
    cases h with
    | before _ _ h => exact h
    | calling => cases hsee
    | queued => cases hsee
    | ran => cases hsee
  | runFunctor e =>
    obtain ⟨rest, hnext⟩ := ha
    have hpos : s.queuedStarts ≠ 0 := by
      simp [queuedStarts, BatchQueue.toList_of_next hnext]
    cases h with
    | before _ hqueue => exact absurd hqueue hpos
    | calling _ _ _ hqueue => exact absurd hqueue hpos
    | queued _ _ h => exact h
    | ran _ hqueue => exact absurd hqueue hpos
  | _ => exact absurd ha id

variable [DecidableEq T]

/-- An untouched connector stays so until `start`. -/
theorem Untouched.step (h : s.Untouched) (hp : s.Phased) (ha : ¬ s.Begins a)
    (hs : s.step a = some s') : s'.Untouched := by
  obtain ⟨hrest, -, hch⟩ := h.toResting.step hp.toSteady ha hs
  exact ⟨hrest, hch h.channel⟩

/-- A step that is none of `start`. -/
theorem Pending.frame {started : Bool} (h : s.Pending started) (hp : s.Phased) (ha : ¬ s.IsStart a)
    (hs : s.step a = some s') : s'.Pending started := by
  have hsame := step_starts hp.toSteady ha hs
  have hbegins : ¬ s.Begins a := fun hb => ha hb.isStart
  have hcalls : (∀ t, s.calls t ≠ .starting) → ∀ t, s'.calls t ≠ .starting :=
    fun hno t hcall => hno t ((hsame.calls t).mp hcall)
  cases h with
  | before hno hqueue h =>
    exact .before (hcalls hno) (hsame.queue.trans hqueue) (h.step hp hbegins hs)
  | calling t hcall hothers hqueue h =>
    exact .calling t ((hsame.calls t).mpr hcall) (fun u hu => hothers u ((hsame.calls u).mp hu))
      (hsame.queue.trans hqueue) (h.step hp hbegins hs)
  | queued hno hqueue h =>
    exact .queued (hcalls hno) (hsame.queue.trans hqueue) (h.step hp hbegins hs)
  | ran hno hqueue => exact .ran (hcalls hno) (hsame.queue.trans hqueue)

theorem Pending.step {started started' : Bool} (h : s.Pending started) (hp : s.Phased)
    (hsee : startOnce started s a s' = some started') (hs : s.step a = some s') :
    s'.Pending started' := by
  have hbegin := h.untouched hsee
  obtain ⟨-, hmove⟩ := step_moves hs
  cases hmove with
  | @startSet t hcall =>
    cases h with
    | before hno hqueue h =>
      cases hsee
      refine .calling t (by simp [setCall]) ?_ hqueue (h.step hp id hs)
      intro u hu
      by_contra hne
      exact hno u (by simpa [setCall, setConnect, hne] using hu)
    | calling => cases hsee
    | queued => cases hsee
    | ran => cases hsee
  | @startPush t hcall =>
    cases hsee
    cases h with
    | before hno => exact absurd hcall (hno t)
    | calling u hcall' hothers hqueue h =>
      have hone : (s.functors.push .startInLoop).toList.count .startInLoop = 1 := by
        rw [queuedStarts_push, show s.functors.toList.count .startInLoop = 0 from hqueue]
        rfl
      refine .queued ?_ hone (h.step hp id hs)
      intro v hv
      obtain rfl := hothers t hcall
      by_cases hvt : v = t
      · subst hvt
        simp [setCall] at hv
      · exact hvt (hothers v (by simpa [setCall, hvt] using hv))
    | queued hno => exact absurd hcall (hno t)
    | ran hno => exact absurd hcall (hno t)
  | startHere =>
    cases h with
    | before hno hqueue => cases hsee; exact .ran hno hqueue
    | calling => cases hsee
    | queued => cases hsee
    | ran => cases hsee
  | @runFunctor e f rest hstart hpc hnext =>
    cases hsee
    have hlist := BatchQueue.toList_of_next hnext
    by_cases hf : f = .startInLoop
    · subst hf
      have hsame := after_starts { s with functors := rest }
        (s.connector.startInLoop s.nextSocket e s.nextTimer)
      have hcount : s.queuedStarts = rest.toList.count .startInLoop + 1 := by
        simp [queuedStarts, hlist]
      cases h with
      | before _ hqueue => omega
      | calling _ _ _ hqueue => omega
      | queued hno hqueue =>
        refine .ran (fun t hcall => hno t ((hsame.calls t).mp hcall)) (hsame.queue.trans ?_)
        change rest.toList.count .startInLoop = 0
        omega
      | ran _ hqueue => omega
    · refine h.frame hp ?_ hs
      rintro ⟨rest', hnext'⟩
      cases hnext.symm.trans hnext'
      exact hf rfl
  | _ => cases hsee; exact h.frame hp id hs

/-- A retry that overtakes a `resetChannel` stops at the assertion of `connecting`. -/
theorem Phased.breaks (h : s.Phased) (hok : ¬ s.RetriesAfterReset a) (hmove : s.Moves a s') :
    s'.fault ≠ none := by
  simp only [RetriesAfterReset, Classical.not_forall, not_not] at hok
  obtain ⟨e, rfl, he, hconnect, sockfd, hmem⟩ := hok
  cases hmove with
  | @runTimer e timer expired active hstart hpc =>
    have hstate := h.waiting (by simp [hpc, ConnectorPc.expired])
    have hch : s.connector.channel_ ≠ none := by
      intro hnone
      have hfits := h.fits
      rw [Connector.Fits, hnone] at hfits
      have hresets := mem_resetsOf.mpr hmem
      rw [hfits.1] at hresets
      cases hresets
    intro hfault
    rw [ConnectorState.startInLoop, Connector.startInLoop_connecting hstate hconnect he hch] at hfault
    cases hfault

end ConnectorState

/-- A connector among its threads, with `start` called once. -/
def startedOnce (T : Type u) [DecidableEq T] :
    Machine (ConnectorState T × Bool) (ConnectorAct T) :=
  (connectorLoop T).observe false ConnectorState.startOnce

variable {T : Type u} [DecidableEq T] {p : ConnectorState T × Bool}

/-- **The phases of a connector.** In a run with one call of `start`, calls of `restart` by the owner of a
closed connection and of `stop` at any time, and any results of the kernel: no assertion fails, at most
one retry timer is outstanding, only in `kDisconnected` and with no channel in the poller, and each
queued `resetChannel` is for the channel that is there, if and only if no callback of a retry timer that
begins an attempt runs while a `resetChannel` is queued. -/
theorem connector_phases_iff (h : (startedOnce T).init p) (as : List (ConnectorAct T)) :
    (startedOnce T).Along (fun p => p.1.InPhase) p as ↔
      (startedOnce T).Guarded (fun p a => p.1.RetriesAfterReset a) p as := by
  obtain ⟨⟨newConnectionCallback, hstart⟩, hfalse⟩ := h
  refine Machine.along_iff_guarded (fun p => p.1.Phased ∧ p.1.Pending p.2) (fun p h => h.1.inPhase)
    ?_ ?_ ⟨?_, ?_⟩
  · rintro p a p' ⟨hp, hpending⟩ hok hs
    obtain ⟨hs, hsee⟩ := Machine.observe_step.mp hs
    exact ⟨hp.step (fun ha => (hpending.untouched hsee ha).ready) hok hs, hpending.step hp hsee hs⟩
  · rintro p a p' ⟨hp, -⟩ hok hs
    obtain ⟨hs, -⟩ := Machine.observe_step.mp hs
    exact fun hin => hp.breaks hok (ConnectorState.step_moves hs).2 hin.noFault
  · rw [hstart]
    exact ConnectorState.start_phased newConnectionCallback
  · rw [hstart, hfalse]
    exact .before (fun _ => by simp [ConnectorState.start]) rfl (.start newConnectionCallback)

/-- An attempt fails, its channel is reset, and the retry goes through. -/
theorem connector_phases_retry : ∃ p₀ p : ConnectorState Unit × Bool, (startedOnce Unit).init p₀ ∧
    p.1.connector.state_ = .kConnecting ∧ p.1.InPhase := by
  have hinit : (startedOnce Unit).init (.start true, false) := ⟨⟨true, rfl⟩, rfl⟩
  have hfirst : ∀ a ∈ ([.startHere, .startInLoop .EINPROGRESS, .poll (some { pollerr := true }) true,
      .handleEvent, .callback false false, .eventDone, .timerRead [], .timersDone, .beginFunctors,
      .runFunctor .zero, .endFunctors, .poll none true, .timerRead [0]] : List (ConnectorAct Unit)),
      ∀ p : ConnectorState Unit × Bool, p.1.RetriesAfterReset a := by
    rintro a ha p e rfl
    simp at ha
  have halong := (connector_phases_iff hinit (_ ++ [.runTimer .EINPROGRESS])).mpr <|
    (Machine.Guarded.of_labels hfirst _).append (by
      intro t ht u _
      cases ht
      refine ⟨?_, trivial⟩
      rintro e ⟨⟩ - - sockfd hmem
      cases hmem)
  exact ⟨_, _, hinit, rfl, halong.last rfl⟩

/-- The handler of the connector's channel arms the timer, and `TimerQueue::handleRead`, late in the same
iteration, finds it expired: the attempt it begins stops at `assert(!channel_)`. -/
theorem connector_phases_fail : ¬ ∀ p₀ : ConnectorState Unit × Bool, (startedOnce Unit).init p₀ →
    ∀ as p, (startedOnce Unit).run p₀ as = some p → p.1.InPhase := by
  intro hall
  have hin := hall (.start true, false) ⟨⟨true, rfl⟩, rfl⟩ [.startHere, .startInLoop .EINPROGRESS,
    .poll (some { pollerr := true }) true, .handleEvent, .callback false false, .eventDone,
    .timerRead [0], .runTimer .EINPROGRESS] _ rfl
  cases hin.noFault

end Netfish
